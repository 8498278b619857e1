import Mhuxd.VspIntegrity

/-!
# When a read of a virtual serial port is answered (`dv_read`, `data_in_cb`, `read_timer_cb`)

`VspReader` is the reading side of a session with the clock: `VspPort` only says whether the read timer runs, here it
has the time it is due at. `Tty` is the rule for VMIN and VTIME on its own: bytes that wait to be read, and a read that
waits for its bytes or its time. A session that reads follows the rule, step by step.
-/

namespace Mhuxd

/-- How a read is answered: with bytes, or with EAGAIN or EINVAL. -/
inductive ReadAnswer
  | bytes (p : List UInt8)
  | again
  | invalid
deriving DecidableEq

/-- The part of `struct vsp_session` that a read has to do with. Times are in ms; `timer` is the time the read timer is
due at. -/
structure VspReader where
  vmin : Nat
  vtime : Nat
  bufOut : Buffer
  pendingOut : Option HeldRead
  timer : Option Nat
  now : Nat
  log : List ReadAnswer

inductive VspReadEv
  | dvRead (size : Nat) (nonblock : Bool)
  | dataIn (chunk : List UInt8)
  | wait (ms : Nat)
  | readTimer

namespace VspReader

def answer (r : VspReader) (a : ReadAnswer) : VspReader := { r with log := r.log ++ [a] }

/-- `read_timer_arm`. -/
def readTimerArm (r : VspReader) : VspReader :=
  if r.vtime = 0 then r else { r with timer := some (r.now + 100 * r.vtime) }

/-- `reply_pending_read`. -/
def replyPendingRead (r : VspReader) (h : HeldRead) : VspReader :=
  { r with timer := none, pendingOut := none }.answer (.bytes h.got)

/-- `read_timer_cb`. -/
def readTimerCb (r : VspReader) : VspReader :=
  match r.pendingOut with
  | none => { r with timer := none }
  | some h => r.replyPendingRead h

/-- `want` in `dv_read`. -/
def wantOf (r : VspReader) (size : Nat) (nonblock : Bool) : Nat :=
  min size (if nonblock then 1 else if r.vmin = 0 then (if r.vtime = 0 then 0 else 1) else r.vmin)

/-- `dv_read`. -/
def dvRead (r : VspReader) (size : Nat) (nonblock : Bool) : VspReader :=
  if r.pendingOut.isSome then r.answer .invalid
  else
    let unread := r.bufOut.unread
    let want := r.wantOf size nonblock
    if want ≤ unread.length then
      { r with bufOut := r.bufOut.consume (unread.take size).length }.answer (.bytes (unread.take size))
    else if nonblock then r.answer .again
    else
      let r' := { r with pendingOut := some ⟨unread, size, want⟩, bufOut := .empty }
      if r.vmin = 0 ∨ unread ≠ [] then r'.readTimerArm else r'

/-- What is there goes to the read that is held, in `data_in_cb`. -/
def serveRead (r : VspReader) : VspReader :=
  match r.pendingOut with
  | none => r
  | some h =>
    let q := r.bufOut.unread.take (h.size - h.got.length)
    let h := { h with got := h.got ++ q }
    let r := { r with pendingOut := some h, bufOut := r.bufOut.consume q.length }
    if h.want ≤ h.got.length ∨ h.got.length = h.size then r.replyPendingRead h
    else if q ≠ [] then r.readTimerArm
    else r

/-- What a round of `data_in_cb` reads, and what of it the buffer takes. -/
def taken (r : VspReader) (chunk : List UInt8) : List UInt8 := (chunk.take BUFFER_CAPACITY).take r.bufOut.avail

/-- A round of `data_in_cb`. -/
def dataIn (r : VspReader) (chunk : List UInt8) : VspReader :=
  { r with bufOut := r.bufOut.append (chunk.take BUFFER_CAPACITY) }.serveRead

def step (r : VspReader) : VspReadEv → VspReader
  | .dvRead size nonblock => r.dvRead size nonblock
  | .dataIn chunk => r.dataIn chunk
  | .wait ms => { r with now := r.now + ms }
  | .readTimer => if r.timer.any (· ≤ r.now) then r.readTimerCb else r

/-- A session before its first read. -/
def start (vmin vtime : Nat) (buf : Buffer) (now : Nat) : VspReader := ⟨vmin, vtime, buf, none, none, now, []⟩

/-- The bytes that are not in an answer yet. -/
def rest (r : VspReader) : List UInt8 := r.pendingOut.elim [] HeldRead.got ++ r.bufOut.unread

end VspReader

/-! ### The rule -/

/-- A read that waits: since when, and when the last byte came for it. -/
structure TtyWait where
  size : Nat
  since : Nat
  last : Option Nat

/-- A terminal in non-canonical mode. VTIME counts tenths of a second. -/
structure Tty where
  vmin : Nat
  vtime : Nat
  queue : List UInt8
  wait : Option TtyWait
  now : Nat
  log : List ReadAnswer

inductive TtyEv
  | read (size : Nat) (nonblock : Bool)
  | arrive (p : List UInt8)
  | wait (ms : Nat)
  | timer

namespace Tty

/-- How many bytes answer a blocking read. With VMIN 0 a byte does, and with VTIME 0, too, nothing is waited for. -/
def required (t : Tty) (size : Nat) : Nat :=
  if t.vmin = 0 then (if t.vtime = 0 then 0 else min 1 size) else min t.vmin size

/-- When the time of a read is over. It counts from the read with VMIN 0, else from the last byte. -/
def deadline (t : Tty) (w : TtyWait) : Option Nat :=
  if t.vtime = 0 then none else (if t.vmin = 0 then some w.since else w.last).map (· + 100 * t.vtime)

/-- A read takes the next bytes, as many as it wants at most. -/
def serve (t : Tty) (size : Nat) : Tty :=
  { t with wait := none, queue := t.queue.drop size, log := t.log ++ [.bytes (t.queue.take size)] }

def read (t : Tty) (size : Nat) (nonblock : Bool) : Tty :=
  if t.wait.isSome then { t with log := t.log ++ [.invalid] }
  else if nonblock then
    if min 1 size ≤ t.queue.length then t.serve size else { t with log := t.log ++ [.again] }
  else if t.required size ≤ t.queue.length then t.serve size
  else { t with wait := some ⟨size, t.now, if t.queue = [] then none else some t.now⟩ }

def arrive (t : Tty) (p : List UInt8) : Tty :=
  let t := { t with queue := t.queue ++ p }
  match t.wait with
  | none => t
  | some w =>
    if t.required w.size ≤ t.queue.length then t.serve w.size
    else { t with wait := some { w with last := if p = [] then w.last else some t.now } }

/-- The time of a read is over: it gets what is there. -/
def expire (t : Tty) : Tty :=
  match t.wait with
  | none => t
  | some w => if (t.deadline w).any (· ≤ t.now) then t.serve w.size else t

def step (t : Tty) : TtyEv → Tty
  | .read size nonblock => t.read size nonblock
  | .arrive p => t.arrive p
  | .wait ms => { t with now := t.now + ms }
  | .timer => t.expire

def start (vmin vtime : Nat) (queue : List UInt8) (now : Nat) : Tty := ⟨vmin, vtime, queue, none, now, []⟩

end Tty

namespace VspReader

variable {r : VspReader} {t : Tty}

/-- An event as the rule sees it. What the buffer has no room for doesn't arrive. -/
def seen (r : VspReader) : VspReadEv → TtyEv
  | .dvRead size nonblock => .read size nonblock
  | .dataIn chunk => .arrive (r.taken chunk)
  | .wait ms => .wait ms
  | .readTimer => .timer

/-- A read that is held, and the one that waits. -/
structure Held (r : VspReader) (t : Tty) (h : HeldRead) (w : TtyWait) : Prop where
  drained : r.bufOut = .empty
  size : h.size = w.size
  want : h.want = t.required w.size
  less : h.got.length < h.want
  last : h.got = [] ↔ w.last = none
  timer : r.timer = t.deadline w

/-- A session follows the rule. -/
structure Follows (r : VspReader) (t : Tty) : Prop where
  vmin : t.vmin = r.vmin
  vtime : t.vtime = r.vtime
  now : t.now = r.now
  log : t.log = r.log
  queue : t.queue = r.rest
  wait : match r.pendingOut, t.wait with
    | none, none => r.timer = none
    | some h, some w => r.Held t h w
    | _, _ => False

theorem required_le (t : Tty) (size : Nat) : t.required size ≤ size := by
  unfold Tty.required
  split_ifs <;> omega

theorem Follows.wantOf (h : r.Follows t) (size : Nat) : r.wantOf size false = t.required size := by
  unfold VspReader.wantOf Tty.required
  rw [h.vmin, h.vtime, if_neg Bool.false_ne_true]
  split_ifs <;> simp [Nat.min_comm]

/-- Neither has a read that waits, or both have. -/
theorem Follows.waits (h : r.Follows t) : r.pendingOut.isSome = t.wait.isSome := by
  have hwait := h.wait
  split at hwait
  · next h1 h2 => rw [h1, h2]; rfl
  · next h1 h2 => rw [h1, h2]; rfl
  · exact hwait.elim

theorem Follows.answered (h : r.Follows t) (a : ReadAnswer) : (r.answer a).Follows { t with log := t.log ++ [a] } where
  vmin := h.vmin
  vtime := h.vtime
  now := h.now
  log := by rw [VspReader.answer, h.log]
  queue := h.queue
  wait := by
    have hwait := h.wait
    unfold VspReader.answer
    dsimp only
    split at hwait
    · exact hwait
    · exact { hwait with }
    · exact hwait

theorem Follows.idle (h : r.Follows t) (hidle : r.pendingOut = none) :
    t.wait = none ∧ r.timer = none ∧ t.queue = r.bufOut.unread := by
  have hnone : t.wait = none := by
    have := h.waits
    simpa [hidle] using this.symm
  have hwait := h.wait
  rw [hidle, hnone] at hwait
  exact ⟨hnone, hwait, by simpa [rest, hidle] using h.queue⟩

/-- A read that needn't wait. -/
theorem Follows.served (h : r.Follows t) (hidle : r.pendingOut = none) (size : Nat) :
    ({ r with bufOut := r.bufOut.consume (r.bufOut.unread.take size).length }.answer
      (.bytes (r.bufOut.unread.take size))).Follows (t.serve size) := by
  obtain ⟨-, htimer, hqueue⟩ := h.idle hidle
  refine ⟨h.vmin, h.vtime, h.now, ?_, ?_, ?_⟩
  · rw [Tty.serve, VspReader.answer, h.log, hqueue]
  · show t.queue.drop size = r.pendingOut.elim [] HeldRead.got ++ (r.bufOut.consume _).unread
    rw [Buffer.unread_consume_take, hqueue, hidle]
    rfl
  · simpa [Tty.serve, VspReader.answer, hidle] using htimer

/-- A read that is held waits. -/
theorem Follows.held (h : r.Follows t) (hidle : r.pendingOut = none) {size : Nat}
    (hless : r.bufOut.unread.length < t.required size) :
    (r.dvRead size false).Follows { t with wait := some ⟨size, t.now, if t.queue = [] then none else some t.now⟩ } := by
  obtain ⟨-, htimer, hqueue⟩ := h.idle hidle
  have hheld : r.dvRead size false = { r with
      pendingOut := some ⟨r.bufOut.unread, size, t.required size⟩
      bufOut := .empty
      timer := t.deadline ⟨size, t.now, if t.queue = [] then none else some t.now⟩ } := by
    unfold dvRead
    dsimp only
    rw [hidle, h.wantOf, if_neg (by simp), if_neg (Nat.not_le.2 hless), if_neg (by simp)]
    unfold readTimerArm Tty.deadline
    dsimp only
    rw [h.vmin, h.vtime, h.now, hqueue]
    by_cases hvtime : r.vtime = 0 <;> by_cases hvmin : r.vmin = 0 <;> by_cases hnil : r.bufOut.unread = [] <;>
      simp [hvtime, hvmin, hnil, htimer]
  rw [hheld]
  refine ⟨h.vmin, h.vtime, h.now, h.log, ?_, ?_⟩
  · simpa [rest] using hqueue
  · exact { drained := rfl, size := rfl, want := rfl, less := hless, timer := rfl
            last := by rw [hqueue]; split_ifs with hnil <;> simp [hnil] }

theorem Follows.read (h : r.Follows t) (size : Nat) (nonblock : Bool) :
    (r.dvRead size nonblock).Follows (t.read size nonblock) := by
  rcases hpending : r.pendingOut with _ | held
  · obtain ⟨hnone, -, hqueue⟩ := h.idle hpending
    have hbusy : ¬ t.wait.isSome = true := by simp [hnone]
    have hfree : ¬ r.pendingOut.isSome = true := by simp [hpending]
    unfold Tty.read
    rw [if_neg hbusy]
    cases nonblock with
    | true =>
      have hwant : r.wantOf size true = min 1 size := by simp [VspReader.wantOf, Nat.min_comm]
      unfold dvRead
      dsimp only
      rw [if_neg hfree, hwant, if_pos rfl, if_pos rfl]
      by_cases hready : min 1 size ≤ r.bufOut.unread.length
      · rw [if_pos hready, if_pos (by rwa [hqueue])]
        exact h.served hpending size
      · rw [if_neg hready, if_neg (by rwa [hqueue])]
        exact h.answered .again
    | false =>
      rw [if_neg Bool.false_ne_true]
      by_cases hready : t.required size ≤ r.bufOut.unread.length
      · have hserve : r.dvRead size false = { r with bufOut := r.bufOut.consume (r.bufOut.unread.take size).length }.answer
            (.bytes (r.bufOut.unread.take size)) := by
          unfold dvRead
          dsimp only
          rw [if_neg hfree, h.wantOf, if_pos hready]
        rw [hserve, if_pos (by rwa [hqueue])]
        exact h.served hpending size
      · rw [if_neg (by rwa [hqueue])]
        exact h.held hpending (Nat.not_le.1 hready)
  · have hbusy : t.wait.isSome = true := by rw [← h.waits, hpending]; rfl
    unfold dvRead Tty.read
    rw [if_pos hbusy, if_pos (by rw [hpending]; rfl)]
    exact h.answered .invalid

/-- A read that is held is answered with the first bytes of what there is. -/
theorem Follows.replied (hf : r.Follows t) (h : HeldRead) {b : Buffer} {queue : List UInt8} {size : Nat}
    (hgot : h.got = queue.take size) (hrest : b.unread = queue.drop size) :
    ({ r with bufOut := b }.replyPendingRead h).Follows ({ t with queue := queue }.serve size) where
  vmin := hf.vmin
  vtime := hf.vtime
  now := hf.now
  log := by simp [Tty.serve, replyPendingRead, VspReader.answer, hf.log, hgot]
  queue := by simp [Tty.serve, replyPendingRead, VspReader.answer, VspReader.rest, hrest]
  wait := rfl

/-- Bytes arrive for a read that is held. -/
theorem Follows.arrive_held (hf : r.Follows t) {h : HeldRead} {w : TtyWait} (hpending : r.pendingOut = some h)
    (hw : t.wait = some w) (hheld : r.Held t h w) (chunk : List UInt8) :
    (r.dataIn chunk).Follows (t.arrive (r.taken chunk)) := by
  obtain ⟨kept, hkept⟩ : ∃ kept, kept = r.taken chunk := ⟨_, rfl⟩
  obtain ⟨b, hb⟩ : ∃ b, b = r.bufOut.append (chunk.take BUFFER_CAPACITY) := ⟨_, rfl⟩
  have hunread : b.unread = kept := by
    rw [hb, Buffer.unread_append, hheld.drained, hkept, taken, hheld.drained]
    rfl
  have hqueue : t.queue = h.got := by
    have := hf.queue
    simpa [rest, hpending, hheld.drained] using this
  have hwant : h.want ≤ h.size := by
    rw [hheld.want, hheld.size]
    exact required_le t w.size
  have hless := hheld.less
  obtain ⟨q, hq⟩ : ∃ q, q = kept.take (h.size - h.got.length) := ⟨_, rfl⟩
  have hdata : r.dataIn chunk = if h.want ≤ (h.got ++ q).length ∨ (h.got ++ q).length = h.size then
      ({ r with bufOut := b.consume q.length }.replyPendingRead { h with got := h.got ++ q })
    else if q ≠ [] then { r with pendingOut := some { h with got := h.got ++ q }, bufOut := b.consume q.length }.readTimerArm
    else { r with pendingOut := some { h with got := h.got ++ q }, bufOut := b.consume q.length } := by
    unfold dataIn serveRead
    dsimp only
    rw [← hb, hpending]
    dsimp only
    rw [hunread, ← hq]
    rfl
  have hgot : h.got ++ q = (h.got ++ kept).take h.size := by
    rw [List.take_append, List.take_of_length_le (by omega), hq]
  have hrest : (b.consume q.length).unread = (h.got ++ kept).drop h.size := by
    have hall : h.got.drop h.size = [] := List.drop_eq_nil_of_le (by omega)
    rw [Buffer.unread_consume, hunread, hq, drop_length_take, List.drop_append, hall, List.nil_append]
  have hlen : (h.got ++ q).length = min h.size (h.got ++ kept).length := by rw [hgot, List.length_take]
  have harrive : t.arrive kept = if h.want ≤ (h.got ++ kept).length then { t with queue := h.got ++ kept }.serve h.size
      else { t with
        queue := h.got ++ kept, wait := some { w with last := if kept = [] then w.last else some t.now } } := by
    unfold Tty.arrive
    rw [hw, hheld.want, hheld.size, hqueue]
    rfl
  rw [hdata, ← hkept, harrive]
  by_cases hready : h.want ≤ (h.got ++ kept).length
  · rw [if_pos (.inl (by omega)), if_pos hready]
    exact hf.replied _ hgot hrest
  · rw [if_neg (by omega), if_neg hready]
    -- all bytes that came are in the buffer of the read
    have hqk : q = kept := by
      rw [List.length_append] at hready
      rw [hq, List.take_of_length_le (by omega)]
    have hempty : b.consume q.length = .empty := by
      apply Buffer.eq_empty_of_unread
      rw [Buffer.unread_consume, hunread, hqk, List.drop_length]
    rw [hqk] at hempty ⊢
    have hfollows (r' : VspReader) (hr' : r' = { r with
        pendingOut := some { h with got := h.got ++ kept }, bufOut := .empty, timer := r'.timer })
        (htimer : r'.timer = t.deadline { w with last := if kept = [] then w.last else some t.now }) :
        r'.Follows { t with
          queue := h.got ++ kept, wait := some { w with last := if kept = [] then w.last else some t.now } } := by
      rw [hr']
      refine ⟨hf.vmin, hf.vtime, hf.now, hf.log, by simp [rest], ?_⟩
      exact { drained := rfl, size := hheld.size, want := hheld.want, less := Nat.not_le.1 hready, timer := htimer
              last := by
                by_cases hnil : kept = []
                · simpa [hnil] using hheld.last
                · simp [hnil] }
    by_cases hnil : kept = []
    · rw [if_neg (not_not_intro hnil)]
      refine hfollows _ (by rw [hempty]) ?_
      rw [if_pos hnil]
      exact hheld.timer
    · rw [if_pos hnil]
      by_cases hvtime : r.vtime = 0
      · have harm : { r with pendingOut := some { h with got := h.got ++ kept }, bufOut := b.consume kept.length
            : VspReader }.readTimerArm = { r with
            pendingOut := some { h with got := h.got ++ kept }, bufOut := b.consume kept.length } := if_pos hvtime
        rw [harm]
        refine hfollows _ (by rw [hempty]) ?_
        have htimer := hheld.timer
        rw [Tty.deadline, hf.vtime, if_pos hvtime] at htimer ⊢
        exact htimer
      · have harm : { r with pendingOut := some { h with got := h.got ++ kept }, bufOut := b.consume kept.length
            : VspReader }.readTimerArm = { r with
            pendingOut := some { h with got := h.got ++ kept }, bufOut := b.consume kept.length
            timer := some (r.now + 100 * r.vtime) } := if_neg hvtime
        rw [harm]
        refine hfollows _ (by rw [hempty]) ?_
        have hvmin : t.vmin ≠ 0 := by
          intro hvmin
          have hone := hheld.want
          have hpos := List.length_pos_iff.2 hnil
          rw [Tty.required, if_pos hvmin, hf.vtime, if_neg hvtime] at hone
          rw [List.length_append] at hready
          omega
        rw [Tty.deadline, hf.vtime, if_neg hvtime, if_neg hvmin, if_neg hnil, hf.now]
        rfl

theorem Follows.arrive (h : r.Follows t) (chunk : List UInt8) : (r.dataIn chunk).Follows (t.arrive (r.taken chunk)) := by
  have hwait := h.wait
  split at hwait
  · next hpending hnone =>
    have hdata : r.dataIn chunk = { r with bufOut := r.bufOut.append (chunk.take BUFFER_CAPACITY) } := by
      unfold dataIn serveRead
      simp [hpending]
    rw [hdata, Tty.arrive, hnone]
    refine ⟨h.vmin, h.vtime, h.now, h.log, ?_, ?_⟩
    · show t.queue ++ r.taken chunk = _ ++ (r.bufOut.append _).unread
      rw [h.queue, Buffer.unread_append, rest, List.append_assoc]
      rfl
    · simpa [hpending] using hwait
  · next held w hpending hw => exact h.arrive_held hpending hw hwait chunk
  · exact hwait.elim

theorem Follows.expire (h : r.Follows t) : (r.step .readTimer).Follows t.expire := by
  have hwait := h.wait
  split at hwait
  · next hpending hnone =>
    rw [VspReader.step, hwait, Tty.expire, hnone]
    exact h
  · next held w hpending hw =>
    have hqueue : t.queue = held.got := by
      have := h.queue
      simpa [rest, hpending, hwait.drained] using this
    rw [VspReader.step, hwait.timer, Tty.expire, hw, h.now]
    dsimp only
    split_ifs with hdue
    · have hless := hwait.less
      have hle := required_le t w.size
      rw [← hwait.want] at hle
      rw [readTimerCb, hpending]
      refine @Follows.replied _ _ h held r.bufOut t.queue _ ?_ ?_
      · rw [hqueue, List.take_of_length_le (by omega)]
      · rw [hqueue, List.drop_eq_nil_of_le (by omega), hwait.drained]
        rfl
    · exact h
  · exact hwait.elim

theorem Follows.step (h : r.Follows t) (e : VspReadEv) : (r.step e).Follows (t.step (r.seen e)) := by
  cases e with
  | dvRead size nonblock => exact h.read size nonblock
  | dataIn chunk => exact h.arrive chunk
  | wait ms =>
    refine ⟨h.vmin, h.vtime, congrArg (· + ms) h.now, h.log, h.queue, ?_⟩
    have hwait := h.wait
    unfold VspReader.step VspReader.seen Tty.step
    dsimp only
    split at hwait
    · exact hwait
    · exact { hwait with }
    · exact hwait
  | readTimer => exact h.expire

end VspReader

/-! ### The session in its port -/

/-- The answers to reads in the log of a port. -/
def VspPort.answers (log : List PortObs) : List ReadAnswer := log.filterMap fun
  | .readReply p => some (.bytes p)
  | .readErr .eagain _ => some .again
  | .readErr .einval _ => some .invalid
  | _ => none

theorem VspPort.answers_append (log o : List PortObs) : answers (log ++ o) = answers log ++ answers o :=
  List.filterMap_append ..

/-- The reading side of a port whose way to the router stands at `a`. -/
structure VspReader.Of (r : VspReader) (a : Vsp) (p : VspPort) : Prop where
  vsp : p.vsp = a
  readable : p.isReadable = true
  vmin : p.vmin = r.vmin
  vtime : p.vtime = r.vtime
  bufOut : p.bufOut = r.bufOut
  pendingOut : p.pendingOut = r.pendingOut
  timer : p.timer = r.timer.isSome
  log : VspPort.answers p.log = r.log

/-- The session with the number is there, and its port is served. -/
structure Vsp.Serves (a : Vsp) (id : Nat) : Prop where
  session : (a.findVs id).isSome = true
  chanIn : a.wChanIn = true
  dataIn : a.wDataIn = true
  live : a.isTerminal = false

/-- The calls that an event is for the port. The read timer runs out when it's due. -/
def VspReader.calls (r : VspReader) (id : Nat) : VspReadEv → List PortEv
  | .dvRead size nonblock => [.dvRead id size nonblock]
  | .dataIn chunk => [.dataIn [.data (chunk.take BUFFER_CAPACITY), .again] fun _ => true]
  | .wait _ => []
  | .readTimer => if r.timer.any (· ≤ r.now) then [.readTimer] else []

/-- A read of the router's socket that gives no bytes is its end, and ends the session. -/
def VspReadEv.Brings : VspReadEv → Prop
  | .dataIn chunk => chunk ≠ []
  | _ => True

namespace VspReader.Of

variable {r : VspReader} {a : Vsp} {p : VspPort} {id : Nat}

theorem readTimerArm (h : r.Of a p) : r.readTimerArm.Of a p.readTimerArm := by
  unfold VspReader.readTimerArm
  split_ifs with hvtime
  · exact { h with timer := by simp [VspPort.readTimerArm, h.vtime, hvtime, h.timer] }
  · exact { h with timer := by simp [VspPort.readTimerArm, h.vtime, hvtime] }

/-- A read is answered on both sides. -/
theorem answer (h : r.Of a p) {o : PortObs} {x : ReadAnswer} (ho : VspPort.answers [o] = [x]) :
    (r.answer x).Of a (p.obs [o]) :=
  { h with log := by rw [VspPort.obs, VspPort.answers_append, h.log, ho, VspReader.answer] }

theorem replyPendingRead (h : r.Of a p) (held : HeldRead) : (r.replyPendingRead held).Of a (p.replyPendingRead held) := by
  unfold VspReader.replyPendingRead VspPort.replyPendingRead
  refine answer ?_ rfl
  exact { h with pendingOut := rfl, timer := rfl }

theorem readTimerCb (h : r.Of a p) : r.readTimerCb.Of a p.readTimerCb := by
  unfold VspReader.readTimerCb VspPort.readTimerCb
  cases hheld : r.pendingOut with
  | none =>
    rw [h.pendingOut.trans hheld]
    exact { h with pendingOut := rfl, timer := rfl }
  | some held =>
    rw [h.pendingOut.trans hheld]
    exact h.replyPendingRead held

theorem dvRead (h : r.Of a p) (size : Nat) (nonblock : Bool) : (r.dvRead size nonblock).Of a (p.dvRead size nonblock) := by
  obtain ⟨vsp, vmin, vtime, isReadable, bufOut, pendingOut, overrun, timer, heldBuf, log⟩ := p
  obtain ⟨rfl, rfl, rfl, rfl, rfl, rfl, rfl, hlog⟩ := h
  have hwant : VspPort.wantOf ⟨vsp, r.vmin, r.vtime, true, r.bufOut, r.pendingOut, overrun, r.timer.isSome, heldBuf,
      log⟩ size nonblock = r.wantOf size nonblock := rfl
  unfold VspReader.dvRead VspPort.dvRead
  dsimp only
  rw [hwant]
  split_ifs
  · refine answer ?_ rfl
    exact ⟨rfl, rfl, rfl, rfl, rfl, rfl, rfl, hlog⟩
  · refine answer ?_ rfl
    exact ⟨rfl, rfl, rfl, rfl, rfl, rfl, rfl, hlog⟩
  · refine answer ?_ rfl
    exact ⟨rfl, rfl, rfl, rfl, rfl, rfl, rfl, hlog⟩
  · exact readTimerArm ⟨rfl, rfl, rfl, rfl, rfl, rfl, rfl, hlog⟩
  · exact ⟨rfl, rfl, rfl, rfl, rfl, rfl, rfl, hlog⟩

theorem serveRead (h : r.Of a p) : r.serveRead.Of a p.serveRead := by
  obtain ⟨vsp, vmin, vtime, isReadable, bufOut, pendingOut, overrun, timer, heldBuf, log⟩ := p
  obtain ⟨h1, h2, h3, h4, h5, h6, h7, hlog⟩ := h
  obtain ⟨vmin', vtime', bufOut', _ | held, timer', now, log'⟩ := r <;> dsimp only at h1 h2 h3 h4 h5 h6 h7 <;>
    subst h1 h2 h3 h4 h5 h6 h7
  · exact ⟨rfl, rfl, rfl, rfl, rfl, rfl, rfl, hlog⟩
  · unfold VspReader.serveRead VspPort.serveRead
    dsimp only
    split_ifs
    · refine replyPendingRead ?_ _
      exact ⟨rfl, rfl, rfl, rfl, rfl, rfl, rfl, hlog⟩
    · exact readTimerArm ⟨rfl, rfl, rfl, rfl, rfl, rfl, rfl, hlog⟩
    · exact ⟨rfl, rfl, rfl, rfl, rfl, rfl, rfl, hlog⟩

theorem dataIn (h : r.Of a p) (chunk : List UInt8) :
    (r.dataIn chunk).Of a (p.dataInChunk (chunk.take BUFFER_CAPACITY)) := by
  unfold VspReader.dataIn VspPort.dataInChunk
  rw [if_neg (by simp [h.readable])]
  refine serveRead { h with bufOut := congrArg (Buffer.append · (chunk.take BUFFER_CAPACITY)) h.bufOut, log := ?_ }
  rw [VspPort.obs, VspPort.answers_append, h.log]
  exact List.append_nil _

/-- The port serves the session with the number. -/
theorem request (h : r.Of a p) (ha : a.Serves id) (f : VspPort → VspPort) : p.request id (fun _ => f p) = f p := by
  obtain ⟨vs, hvs⟩ := Option.isSome_iff_exists.1 ha.session
  unfold VspPort.request
  rw [h.vsp, hvs, ha.chanIn, ha.live]
  rfl

theorem data (h : r.Of a p) (ha : a.Serves id) {chunk : List UInt8} (hchunk : chunk ≠ []) (taken : Nat → Bool) :
    p.step (.dataIn [.data (chunk.take BUFFER_CAPACITY), .again] taken) =
      p.dataInChunk (chunk.take BUFFER_CAPACITY) := by
  obtain ⟨c, cs, hcs⟩ : ∃ c cs, chunk.take BUFFER_CAPACITY = c :: cs := by
    cases chunk with
    | nil => exact absurd rfl hchunk
    | cons c cs => exact ⟨c, _, rfl⟩
  have hlist : p.vsp.sessionList ≠ [] := by
    rintro hnil
    have hsession := ha.session
    rw [← h.vsp, Vsp.findVs, hnil] at hsession
    cases hsession
  have hvsp : (p.dataInChunk (c :: cs)).vsp = a := by
    rw [← hcs]
    exact (h.dataIn chunk).vsp
  have hsame : a.step (.dataIn [.data (c :: cs), .again] taken) = a := by
    rw [Vsp.step, ha.dataIn, Vsp.dataInCb, ha.live]
    rfl
  rw [hcs, VspPort.step, h.vsp, if_pos ⟨ha.dataIn, ha.live⟩, VspPort.dataInLoop, if_neg hlist, VspPort.dataInLoop]
  exact VspPort.ending_same (by rw [hvsp, hsame]) _

/-- An event of the reader is the same for the port. -/
theorem step (h : r.Of a p) (ha : a.Serves id) {e : VspReadEv} (he : e.Brings) :
    (r.step e).Of a (Run.run VspPort.step p (r.calls id e)) := by
  cases e with
  | dvRead size nonblock =>
    rw [VspReader.calls, Run.run_cons, Run.run_nil, VspPort.step, h.request ha fun p => p.dvRead size nonblock]
    exact h.dvRead size nonblock
  | dataIn chunk =>
    rw [VspReader.calls, Run.run_cons, Run.run_nil, h.data ha he]
    exact h.dataIn chunk
  | wait ms => exact { h with }
  | readTimer =>
    rw [VspReader.step, VspReader.calls]
    split_ifs with hdue
    · have htimer : p.timer = true := by
        rw [h.timer]
        cases hnone : r.timer with
        | none => rw [hnone] at hdue; cases hdue
        | some => rfl
      rw [Run.run_cons, Run.run_nil, VspPort.step, if_pos htimer]
      exact h.readTimerCb
    · exact h

end VspReader.Of

/-- A session and the rule, step by step. -/
def readStep (s : VspReader × Tty) (e : VspReadEv) : VspReader × Tty := (s.1.step e, s.2.step (s.1.seen e))

/-- The reads of a session are answered when the rule says so, with the bytes it says; the other bytes are kept in their
order. While a read is held all bytes that come are for it. -/
theorem vsp_read_law (vmin vtime : Nat) (buf : Buffer) (now : Nat) (evs : List VspReadEv) :
    let s := Run.run readStep (.start vmin vtime buf now, .start vmin vtime buf.unread now) evs
    s.1.log = s.2.log ∧ s.1.rest = s.2.queue ∧ s.1.pendingOut.isSome = s.2.wait.isSome ∧
      (s.1.pendingOut.isSome = true → ∀ chunk, s.1.taken chunk = chunk.take BUFFER_CAPACITY) := by
  have hstart : (VspReader.start vmin vtime buf now).Follows (.start vmin vtime buf.unread now) :=
    ⟨rfl, rfl, rfl, rfl, rfl, rfl⟩
  have hstep : ∀ (s : VspReader × Tty) e, s.1.Follows s.2 → (readStep s e).1.Follows (readStep s e).2 :=
    fun s e h => h.step e
  have h := Run.run_inv hstep (s := (.start vmin vtime buf now, .start vmin vtime buf.unread now)) hstart evs
  refine ⟨h.log.symm, h.queue.symm, h.waits, fun hsome chunk => ?_⟩
  have hwait := h.wait
  split at hwait
  · next hnone _ =>
    rw [hnone] at hsome
    cases hsome
  · rw [VspReader.taken, hwait.drained]
    exact List.take_of_length_le (by rw [List.length_take]; exact Nat.min_le_left ..)
  · exact hwait.elim

/-- A session, the rule, and the port with the number of the session, step by step. -/
def portStep (id : Nat) (s : (VspReader × Tty) × VspPort) (e : VspReadEv) : (VspReader × Tty) × VspPort :=
  (readStep s.1 e, Run.run VspPort.step s.2 (s.1.1.calls id e))

/-- A port follows the rule while a session reads from it. -/
theorem port_read_law {r : VspReader} {t : Tty} {a : Vsp} {p : VspPort} {id : Nat} (hr : r.Of a p) (ht : r.Follows t)
    (ha : a.Serves id) {evs : List VspReadEv} (hevs : ∀ e ∈ evs, e.Brings) :
    let s := Run.run (portStep id) ((r, t), p) evs
    VspPort.answers s.2.log = s.1.2.log ∧ s.2.collected ++ s.2.bufOut.unread = s.1.2.queue := by
  have hstep : ∀ (s : (VspReader × Tty) × VspPort) e, (s.1.1.Of a s.2 ∧ s.1.1.Follows s.1.2) → e.Brings →
      (portStep id s e).1.1.Of a (portStep id s e).2 ∧ (portStep id s e).1.1.Follows (portStep id s e).1.2 :=
    fun s e h he => ⟨h.1.step ha he, h.2.step e⟩
  obtain ⟨hof, hfollows⟩ := Run.run_inv_of_ok hstep (s := ((r, t), p)) ⟨hr, ht⟩ (Run.stepsOk_const_iff.2 hevs)
  refine ⟨hof.log.trans hfollows.log.symm, ?_⟩
  rw [hfollows.queue, VspPort.collected, hof.pendingOut, hof.bufOut]
  rfl

end Mhuxd
