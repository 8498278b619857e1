import Mhuxd.YbinFrames

/-!
# Whose answers the decoder of the older Yaesu radios gets

The answers have no marks: the decoder counts their bytes, and long ones are passed on in pieces. If the
radio answers the commands in their order with as many bytes as each has, in time, the decoder waits for
exactly the commands that got no answer yet (`Tracks`), and the pieces of an answer are tagged with the
sender of its command (`answers_tagged_in_pieces`).
-/

namespace Mhuxd

namespace Ybin

/-- A command on the line that has an answer. -/
structure Asked where
  cmd : List UInt8
  own : Bool
  client : Nat
  tMs : Nat
deriving DecidableEq

/-- An answer of the radio with the sender of its command. -/
structure Answer where
  own : Bool
  client : Nat
  bytes : List UInt8
deriving DecidableEq

/-- The decoder in a run, with the commands on the line that aren't answered yet and what the radio sent:
the answers, the last of them complete at `free`, and `got` of the next one. The decoder reads none of it. -/
structure Line where
  y : Ybin
  now : Nat
  waiting : List Asked
  free : Nat
  got : List UInt8
  tLast : Nat
  answers : List Answer

namespace Line

/-- The length of a command's answer. -/
def len (l : Line) (q : Asked) : Nat := (answerLen l.y.model q.cmd).1

/-- The radio takes up a command when it has answered the one before. -/
def due (l : Line) (q : Asked) : Nat := max q.tMs l.free

/-- The answer to the first command isn't overdue. -/
def InTime (l : Line) (t : Nat) (q : Asked) : Prop :=
  if l.got = [] then t ≤ l.due q + YBIN_ANSWER_MS else t ≤ l.tLast + YBIN_BYTE_GAP_MS

instance (l : Line) (t : Nat) (q : Asked) : Decidable (l.InTime t q) :=
  inferInstanceAs (Decidable (if l.got = [] then t ≤ l.due q + YBIN_ANSWER_MS else t ≤ l.tLast + YBIN_BYTE_GAP_MS))

/-- The command that a byte completes. -/
def command (l : Line) (dir : CatDir) (client : Nat) (b : UInt8) : Option (List UInt8) :=
  (Src.of dir client).bind fun src =>
    if (l.y.rx src).buf.length + 1 = YBIN_CMD_LEN then some ((l.y.rx src).buf ++ [b]) else none

/-- A byte of the radio belongs to the answer to the first command. -/
def answered (l : Line) (b : UInt8) (t : Nat) : Line :=
  match l.waiting with
  | [] => l
  | q :: qs =>
    if l.got.length + 1 = l.len q then
      { l with
        waiting := qs
        free := t
        got := []
        answers := l.answers ++ [⟨q.own, q.client, l.got ++ [b]⟩] }
    else { l with got := l.got ++ [b], tLast := t }

/-- A command that has an answer. -/
def asked (l : Line) (dir : CatDir) (client : Nat) (c : List UInt8) (t : Nat) : Line :=
  if (answerLen l.y.model c).1 = 0 then l
  else { l with waiting := l.waiting ++ [⟨c, dir == .own, if dir = .host then client else 0, t⟩] }

def event (l : Line) (e : YbinEvent) : Line :=
  match e with
  | .byte dir client b t =>
    let noted := if dir = .radio then l.answered b t else (l.command dir client b).elim l fun c =>
      l.asked dir client c t
    { noted with y := l.y.event e, now := t }
  | .expire t => { l with y := l.y.event e, now := t }

/-- What may be on the line. The radio answers the first command in time. A command has no pause and is no
pacing command; it comes when there's room for it and the first command isn't stale. -/
def EventOk (l : Line) : YbinEvent → Prop
  | .byte dir client b t =>
    l.now ≤ t ∧
      if dir = .radio then ∃ q ∈ l.waiting.head?, l.InTime t q
      else
        (∃ src ∈ Src.of dir client, (l.y.rx src).buf ≠ [] → t ≤ (l.y.rx src).tMs + YBIN_CMD_GAP_MS) ∧
          ∀ c ∈ l.command dir client b,
            ¬(cmdOp c = 0x0e ∧ hasPacing l.y.model) ∧ ((answerLen l.y.model c).1 ≠ 0 →
              l.waiting.length < PEND_MAX) ∧
              ∀ q ∈ l.waiting.head?, l.got = [] → t ≤ l.due q + GIVEUP_MS
  | .expire t => l.now ≤ t

instance (l : Line) : ∀ e, Decidable (l.EventOk e)
  | .byte dir _ _ t => inferInstanceAs (Decidable (l.now ≤ t ∧ if dir = .radio then _ else _))
  | .expire t => inferInstanceAs (Decidable (l.now ≤ t))

/-- A line from `cat_ybin_create`. -/
def create (model : YbinModel) (st : CatState) : Line := ⟨.create model st, 0, [], 0, [], 0, []⟩

end Line

/-- The frames of the radio. -/
def radioFrames (out : List Emit) : List CatFrame := (out.map Emit.frame).filter fun f => f.dir == .radio

/-- A frame tagged with a sender. -/
def TaggedWith (own : Bool) (client : Nat) (f : CatFrame) : Prop :=
  f.own = own ∧ f.client = client ∧ f.kind ≠ .unmatched ∧ f.kind ≠ .dropped

/-- The pieces of an answer. -/
def Carries (a : Answer) (fs : List CatFrame) : Prop :=
  (∀ f ∈ fs, TaggedWith a.own a.client f) ∧ fs.flatMap CatFrame.buf = a.bytes

/-- What the radio sent. -/
def radioBytes (evs : List YbinEvent) : List UInt8 :=
  evs.filterMap fun e => match e with
    | .byte .radio _ b _ => some b
    | _ => none

variable {l : Line} {y y' : Ybin} {dir : CatDir} {client t : Nat} {src : Src} {b : UInt8} {c : List UInt8} {p : YbinPending}
  {q : Asked} {e : YbinEvent}

/-! ### Time -/

theorem Line.InTime.mono {t' : Nat} (h : l.InTime t q) (hle : t' ≤ t) : l.InTime t' q := by
  unfold InTime at h ⊢
  split_ifs at h ⊢ <;> omega

/-- A byte of a command appends to the commands on the line at most. -/
theorem Line.event_host (l : Line) (hd : dir ≠ .radio) (client : Nat) (b : UInt8) (t : Nat) :
    ∃ qs, l.event (.byte dir client b t) = { l with
      y := l.y.event (.byte dir client b t)
      now := t
      waiting := l.waiting ++ qs } := by
  unfold event
  dsimp only
  rw [if_neg hd]
  cases l.command dir client b with
  | none => exact ⟨[], by rw [List.append_nil]; rfl⟩
  | some c =>
    unfold asked
    dsimp only [Option.elim]
    by_cases hlen : (answerLen l.y.model c).1 = 0
    · rw [if_pos hlen]
      exact ⟨[], by rw [List.append_nil]⟩
    · rw [if_neg hlen]
      exact ⟨_, rfl⟩

/-- If all commands are answered in the end no answer is overdue. -/
theorem Line.inTime_of_end {evs : List YbinEvent} (hok : Run.StepsOk Line.event Line.EventOk l evs)
    (hend : (Run.run Line.event l evs).waiting = []) : ∀ q ∈ l.waiting.head?, l.InTime l.now q := by
  induction evs generalizing l with
  | nil =>
    rw [Run.run_nil] at hend
    rw [hend]
    exact nofun
  | cons e evs ih =>
    obtain ⟨he, hrest⟩ := hok
    have hnext := ih hrest hend
    intro q hq
    cases e with
    | expire t => exact (hnext q hq).mono he
    | byte dir client b t =>
      obtain ⟨hle, hbyte⟩ := he
      by_cases hd : dir = .radio
      · rw [if_pos hd] at hbyte
        obtain ⟨q', hq', htime⟩ := hbyte
        obtain rfl : q = q' := Option.some.inj (hq.symm.trans hq')
        exact htime.mono hle
      · obtain ⟨qs, heq⟩ := l.event_host hd client b t
        rw [heq] at hnext
        have hq' : q ∈ (l.waiting ++ qs).head? := by
          rw [List.head?_append, hq]
          rfl
        exact (hnext q hq').mono hle

/-! ### The decoder's list -/

/-- The decoder's entry of a command. -/
def Asked.pending (q : Asked) (m : YbinModel) : YbinPending :=
  ⟨q.cmd, (answerLen m q.cmd).1, (answerLen m q.cmd).2, q.own, q.client, 0, q.tMs, q.tMs⟩

/-- The decoder's entries: the first command is due when the answer before is complete. -/
def pendings (m : YbinModel) (free : Nat) (got : List UInt8) (tLast : Nat) : List Asked → List YbinPending
  | [] => []
  | q :: qs =>
    { q.pending m with
      got := got.length
      tMs := max q.tMs free
      tLast := if got = [] then q.tMs else tLast } :: qs.map fun q => q.pending m

/-- The frames of the answers so far, those of the answer that is coming in being the last. -/
def Delivered (l : Line) : Prop :=
  ∃ pieces cur, radioFrames l.y.out = pieces.flatten ++ cur ∧ List.Forall₂ Carries l.answers pieces ∧
    (∀ q ∈ l.waiting.head?, ∀ f ∈ cur, TaggedWith q.own q.client f) ∧ cur.flatMap CatFrame.buf ++ l.y.ans = l.got ∧
      (l.got = [] → cur = [])

/-- The decoder waits for the commands on the line that aren't answered yet. -/
structure Tracks (l : Line) : Prop where
  pend : l.y.pend = pendings l.y.model l.free l.got l.tLast l.waiting
  pacing : l.y.pacingMs = 0
  idle : l.waiting = [] → l.got = []
  short : ∀ q ∈ l.waiting.head?, l.got.length < l.len q
  ans : l.y.ans.length < YBIN_MAX_FRAME
  asks : ∀ q ∈ l.waiting, l.len q ≠ 0
  sent : ∀ q ∈ l.waiting, q.tMs ≤ l.now
  free : l.free ≤ l.now
  delivered : Delivered l

namespace Tracks

/-- The first command is live in the decoder. -/
theorem live (h : Tracks l) (hin : ∀ q ∈ l.waiting.head?, l.InTime t q) :
    ∀ p ∈ l.y.pend.head?, l.y.pendLive p t = true := by
  intro p hp
  rw [h.pend] at hp
  cases hw : l.waiting with
  | nil =>
    rw [hw] at hp
    exact nomatch hp
  | cons q qs =>
    rw [hw] at hp
    obtain rfl := Option.some.inj hp
    have htime := hin q (by rw [hw]; rfl)
    unfold Line.InTime at htime
    unfold pendLive byteGap
    dsimp only
    rw [h.pacing]
    by_cases hgot : l.got = []
    · rw [if_pos hgot] at htime
      rw [if_neg (not_not_intro (List.length_eq_zero_iff.2 hgot)), decide_eq_true_eq]
      exact htime
    · rw [if_neg hgot] at htime
      rw [if_pos fun hlen => hgot (List.length_eq_zero_iff.1 hlen), decide_eq_true_eq, if_neg hgot]
      exact htime

end Tracks

/-- What isn't about answers: the list and the frames of the radio stay as they are. -/
structure Unanswered (y y' : Ybin) : Prop where
  model : y'.model = y.model
  pend : y'.pend = y.pend
  ans : y'.ans = y.ans
  pacing : y'.pacingMs = y.pacingMs
  frames : radioFrames y'.out = radioFrames y.out

theorem Unanswered.trans {z : Ybin} (h : Unanswered y y') (h' : Unanswered y' z) : Unanswered y z :=
  ⟨h'.model.trans h.model, h'.pend.trans h.pend, h'.ans.trans h.ans, h'.pacing.trans h.pacing,
    h'.frames.trans h.frames⟩

theorem radioFrames_concat (out : List Emit) (e : Emit) :
    radioFrames (out ++ [e]) = radioFrames out ++ if e.frame.dir = .radio then [e.frame] else [] := by
  unfold radioFrames
  rw [List.map_append, List.filter_append, List.map_singleton, List.filter_singleton]
  by_cases h : e.frame.dir = .radio
  · rw [if_pos h, beq_iff_eq.2 h]
    rfl
  · rw [if_neg h, beq_eq_false_iff_ne.2 h]
    rfl

theorem unanswered_emit (hd : dir ≠ .radio) (y : Ybin) (kind : FrameKind) (buf : List UInt8)
    (applied own : Bool) (client t : Nat) :
    Unanswered y (y.emit kind dir buf applied own client t) := by
  refine ⟨rfl, rfl, rfl, rfl, ?_⟩
  show radioFrames (y.out ++ [_]) = _
  rw [radioFrames_concat, if_neg hd, List.append_nil]

theorem unanswered_rxExpire (hd : dir ≠ .radio) (y : Ybin) (client : Nat) (src : Src) (t : Nat) :
    Unanswered y (y.rxExpire dir client src t) := by
  unfold rxExpire
  dsimp only
  split_ifs
  · exact ⟨rfl, rfl, rfl, rfl, rfl⟩
  · exact (unanswered_emit hd ..).trans ⟨rfl, rfl, rfl, rfl, rfl⟩

theorem Tracks.of_unanswered (h : Tracks l) (hy : Unanswered l.y y') (hle : l.now ≤ t) :
    Tracks { l with y := y', now := t } := by
  obtain ⟨pieces, cur, hframes, hdel⟩ := h.delivered
  refine ⟨?_, ?_, h.idle, fun q hq => ?_, ?_, fun q hq => ?_, fun q hq => ?_, ?_, pieces, cur, ?_, ?_⟩
  · dsimp only
    rw [hy.model, hy.pend]
    exact h.pend
  · exact hy.pacing.trans h.pacing
  · unfold Line.len
    rw [hy.model]
    exact h.short q hq
  · rw [hy.ans]
    exact h.ans
  · unfold Line.len
    rw [hy.model]
    exact h.asks q hq
  · exact Nat.le_trans (h.sent q hq) hle
  · exact Nat.le_trans h.free hle
  · exact hy.frames.trans hframes
  · rw [hy.ans]
    exact hdel

/-! ### Commands -/

theorem rxExpire_of_fresh (h : (y.rx src).buf ≠ [] → t ≤ (y.rx src).tMs + YBIN_CMD_GAP_MS) :
    y.rxExpire dir client src t = y := by
  unfold rxExpire
  dsimp only
  refine if_pos ?_
  by_cases hbuf : (y.rx src).buf = []
  · exact .inl hbuf
  · exact .inr (h hbuf)

/-- Nothing of the earlier commands goes when a command comes in time. -/
theorem ready_of_live (hlive : ∀ p ∈ y.pend.head?, y.pendLive p t = true)
    (hfresh : ∀ p ∈ y.pend.head?, p.got = 0 → t ≤ p.tMs + GIVEUP_MS)
    (hpace : ¬(cmdOp c = 0x0e ∧ hasPacing y.model)) :
    Noted y (y.ready c t) := by
  unfold ready
  obtain ⟨st, hst, hv⟩ := noted_vfo (y := y) (t := t)
  rw [hst, pendExpire_of_live, pendGiveup_of_fresh]
  · unfold paced
    rw [if_neg hpace]
    exact ⟨st, rfl, hv⟩
  · exact hfresh
  · exact hlive

theorem Tracks.fresh (h : Tracks l) (hstale : ∀ q ∈ l.waiting.head?, l.got = [] → t ≤ l.due q + GIVEUP_MS) :
    ∀ p ∈ l.y.pend.head?, p.got = 0 → t ≤ p.tMs + GIVEUP_MS := by
  intro p hp hgot
  rw [h.pend] at hp
  cases hw : l.waiting with
  | nil =>
    rw [hw] at hp
    exact nomatch hp
  | cons q qs =>
    rw [hw] at hp
    obtain rfl := Option.some.inj hp
    exact hstale q (by rw [hw]; rfl) (List.length_eq_zero_iff.1 hgot)

theorem pendings_concat {m : YbinModel} {free tLast : Nat} {got : List UInt8} {qs : List Asked}
    (hidle : qs = [] → got = []) (hfree : free ≤ q.tMs) :
    pendings m free got tLast (qs ++ [q]) = pendings m free got tLast qs ++ [q.pending m] := by
  cases qs with
  | nil =>
    rw [List.nil_append, pendings, pendings, hidle rfl, if_pos rfl, Nat.max_eq_left hfree]
    rfl
  | cons q' qs =>
    rw [List.cons_append, pendings, pendings, List.map_append]
    rfl

/-- A command that has an answer is waited for. -/
theorem Tracks.of_asked (h : Tracks l) (hy : y'.model = l.y.model) (hans : y'.ans = l.y.ans)
    (hpacing : y'.pacingMs = l.y.pacingMs)
    (hframes : radioFrames y'.out = radioFrames l.y.out) (hle : l.now ≤ t) (hlen : l.len q ≠ 0) (hq : q.tMs = t)
    (hpend : y'.pend = l.y.pend ++ [q.pending l.y.model]) : Tracks { l with y := y', now := t, waiting := l.waiting ++ [q] } := by
  have hhead : ∀ q' ∈ (l.waiting ++ [q]).head?, q' ∈ l.waiting.head? ∨ (q' = q ∧ l.waiting = []) := by
    intro q' hq'
    cases hw : l.waiting with
    | nil =>
      rw [hw] at hq'
      exact .inr ⟨(Option.some.inj hq').symm, rfl⟩
    | cons q'' qs =>
      rw [hw] at hq'
      exact .inl hq'
  obtain ⟨pieces, cur, hfr, hcarry, htag, hbytes, hcur⟩ := h.delivered
  refine ⟨?_, ?_, ?_, ?_, ?_, ?_, ?_, ?_, pieces, cur, ?_, hcarry, ?_, ?_, hcur⟩
  · dsimp only
    rw [hpend, hy, pendings_concat h.idle (by rw [hq]; exact Nat.le_trans h.free hle), h.pend]
  · exact hpacing.trans h.pacing
  · exact fun hnil => absurd (List.append_eq_nil_iff.1 hnil).2 nofun
  · intro q' hq'
    unfold Line.len
    rw [hy]
    rcases hhead q' hq' with hq' | ⟨rfl, hnil⟩
    · exact h.short q' hq'
    · rw [show ({ l with y := y', now := t, waiting := l.waiting ++ [q'] } : Line).got = [] from h.idle hnil]
      exact Nat.pos_of_ne_zero hlen
  · rw [hans]
    exact h.ans
  · intro q' hq'
    unfold Line.len
    rw [hy]
    rcases List.mem_append.1 hq' with hq' | hq'
    · exact h.asks q' hq'
    · rw [List.mem_singleton.1 hq']
      exact hlen
  · intro q' hq'
    rcases List.mem_append.1 hq' with hq' | hq'
    · exact Nat.le_trans (h.sent q' hq') hle
    · rw [List.mem_singleton.1 hq']
      exact Nat.le_of_eq hq
  · exact Nat.le_trans h.free hle
  · exact hframes.trans hfr
  · intro q' hq'
    rcases hhead q' hq' with hq' | ⟨-, hnil⟩
    · exact htag q' hq'
    · rw [hcur (h.idle hnil)]
      exact nofun
  · rw [hans]
    exact hbytes

theorem length_pendings (m : YbinModel) (free : Nat) (got : List UInt8) (tLast : Nat) (qs : List Asked) :
    (pendings m free got tLast qs).length = qs.length := by
  cases qs with
  | nil => rfl
  | cons q qs => rw [pendings, List.length_cons, List.length_map, List.length_cons]

/-- A command, when nothing of the earlier ones goes. -/
theorem Tracks.command (h : Tracks l) (hd : dir ≠ .radio) (hle : l.now ≤ t)
    (hin : ∀ q ∈ l.waiting.head?, l.InTime t q) (hpace : ¬(cmdOp c = 0x0e ∧ hasPacing l.y.model))
    (hroom : (answerLen l.y.model c).1 ≠ 0 → l.waiting.length < PEND_MAX)
    (hstale : ∀ q ∈ l.waiting.head?, l.got = [] → t ≤ l.due q + GIVEUP_MS) (rx : YbinRx) :
    Tracks { l.asked dir client c t with
      y := (l.y.setRx src rx).command dir (if dir = .host then client else 0) c t
      now := t } := by
  obtain ⟨st, kind, applied, heq⟩ := (l.y.setRx src rx).command_eq dir (if dir = .host then client else 0) c t
  obtain ⟨st', hst', -⟩ : Noted (l.y.setRx src rx) ((l.y.setRx src rx).ready c t) :=
    ready_of_live (h.live hin) (h.fresh hstale) hpace
  rw [heq]
  by_cases hlen : (answerLen l.y.model c).1 = 0
  · have hasked : l.asked dir client c t = l := if_pos hlen
    have htaken : (l.y.setRx src rx).taken c (dir == .own) (if dir = .host then client else 0) t =
        ((l.y.setRx src rx).ready c t).kept (dir == .own) (if dir = .host then client else 0) t :=
        if_neg (not_not_intro hlen)
    rw [hasked, htaken, hst']
    refine h.of_unanswered (Unanswered.trans ?_ (unanswered_emit hd ..)) hle
    exact ⟨rfl, rfl, rfl, rfl, rfl⟩
  · have hasked : l.asked dir client c t = { l with
        waiting := l.waiting ++ [⟨c, dir == .own, if dir = .host then client else 0, t⟩] } := if_neg hlen
    have hpend : l.y.pend.length ≠ PEND_MAX := by
      rw [h.pend, length_pendings]
      exact Nat.ne_of_lt (hroom hlen)
    have htaken : (l.y.setRx src rx).taken c (dir == .own) (if dir = .host then client else 0) t =
        { l.y.setRx src rx with
          st := st'
          pend := l.y.pend ++ [(⟨c, dir == .own, if dir = .host then client else 0, t⟩ : Asked).pending l.y.model] } := by
      refine (if_pos hlen).trans ?_
      rw [hst']
      unfold pendAdd pendRoom
      cases hp : l.y.pend with
      | nil =>
        rw [show ({ l.y.setRx src rx with st := st' } : Ybin).pend = [] from hp]
        rfl
      | cons p ps =>
        rw [show ({ l.y.setRx src rx with st := st' } : Ybin).pend = p :: ps from hp]
        rw [hp] at hpend
        dsimp only
        rw [if_neg hpend]
        rfl
    rw [hasked, htaken]
    have hz := unanswered_emit hd { l.y.setRx src rx with
        st := st
        pend := l.y.pend ++ [(⟨c, dir == .own, if dir = .host then client else 0, t⟩ : Asked).pending l.y.model] }
      kind c applied (dir == .own) (if dir = .host then client else 0) t
    exact h.of_asked hz.model hz.ans hz.pacing hz.frames hle hlen rfl hz.pend

/-! ### Answers -/

/-- A complete answer is a frame for the sender of its command. -/
theorem answerDone_complete (hans : y.ans ≠ []) :
    ∃ st f, y.answerDone p true t = { y.answered st t with out := y.out ++ [⟨f, 0⟩] } ∧ f.dir = .radio ∧
    f.buf = y.ans ∧
      TaggedWith p.own p.client f := by
  unfold answerDone
  dsimp only
  rw [if_neg hans, if_neg (by decide)]
  by_cases hlen : YBIN_MAX_FRAME < p.len
  · rw [if_pos hlen]
    exact ⟨y.st, ⟨.reply, .radio, t, y.ans, false, p.own, p.client⟩, rfl, rfl, rfl, rfl, rfl, nofun, nofun⟩
  · rw [if_neg hlen]
    obtain ⟨st, hst, -⟩ := noted_applyAnswer (y := { y.pendRemove 0 with pend := dueFrom t (y.pendRemove 0).pend }) (t := t)
      p.cmd y.ans
    dsimp only
    rw [hst]
    refine ⟨st, ⟨_, .radio, t, y.ans, _, p.own, p.client⟩, rfl, rfl, rfl, rfl, rfl, ?_, ?_⟩
    · dsimp only
      split_ifs <;> exact nofun
    · dsimp only
      split_ifs <;> exact nofun

theorem dueFrom_pendings {m : YbinModel} {qs : List Asked} (hsent : ∀ q ∈ qs, q.tMs ≤ t) (tLast : Nat) :
    dueFrom t (qs.map fun q => q.pending m) = pendings m t [] tLast qs := by
  cases qs with
  | nil => rfl
  | cons q qs =>
    have hq := hsent q List.mem_cons_self
    rw [List.map_cons, dueFrom, pendings, if_pos rfl, Nat.max_eq_right hq]
    congr 1
    by_cases hlt : q.tMs < t
    · exact if_pos hlt
    · have heq : q.tMs = t := by omega
      refine (if_neg hlt).trans ?_
      rw [← heq]
      rfl

/-- A byte of the answer to the first command. -/
theorem Tracks.answered (h : Tracks l) (hin : ∃ q ∈ l.waiting.head?, l.InTime t q) (hle : l.now ≤ t) (b : UInt8) :
    Tracks { l.answered b t with y := l.y.radioByte b t, now := t } := by
  obtain ⟨q, hq, htime⟩ := hin
  have hlive := h.live (t := t) fun q' hq' => by
    obtain rfl : q = q' := Option.some.inj (hq.symm.trans hq')
    exact htime
  obtain ⟨qs, hw⟩ := List.head?_eq_some_iff.1 hq
  have hpend := h.pend
  rw [hw, pendings] at hpend
  obtain ⟨st, hst, -⟩ := noted_vfo (y := l.y) (t := t)
  have hbyte : l.y.radioByte b t = l.y.answerByte { q.pending l.y.model with
      got := l.got.length
      tMs := max q.tMs l.free
      tLast := if l.got = [] then q.tMs else l.tLast } (qs.map fun q => q.pending l.y.model) b t := by
    unfold radioByte
    rw [pendExpire_of_live hlive]
    dsimp only
    rw [hpend]
  obtain ⟨pieces, cur, hfr, hcarry, htag, hbytes, hcur⟩ := h.delivered
  have htag := htag q hq
  rw [hbyte]
  unfold answerByte Line.answered
  dsimp only
  rw [hst, hw]
  dsimp only
  have hsent : ∀ q ∈ qs, q.tMs ≤ t := fun q hq => Nat.le_trans (h.sent q (by rw [hw]; exact List.mem_cons_of_mem _ hq)) hle
  have hbytes' : cur.flatMap CatFrame.buf ++ (l.y.ans ++ [b]) = l.got ++ [b] := by rw [← List.append_assoc, hbytes]
  by_cases hdone : l.got.length + 1 = l.len q
  · rw [if_pos (show l.got.length + 1 = (q.pending l.y.model).len from hdone), if_pos hdone]
    obtain ⟨st', f, heq, hfdir, hfbuf, hftag⟩ := answerDone_complete (t := t)
      (y := { l.y with
        st := st
        pend := { q.pending l.y.model with
          got := l.got.length + 1
          tMs := max q.tMs l.free
          tLast := t } :: qs.map fun q => q.pending l.y.model
        ans := l.y.ans ++ [b] })
      (p := { q.pending l.y.model with
        got := l.got.length + 1
        tMs := max q.tMs l.free
        tLast := t })
      (List.append_ne_nil_of_right_ne_nil _ (List.cons_ne_nil b []))
    rw [heq]
    refine ⟨dueFrom_pendings hsent _, h.pacing, fun _ => rfl, fun q' hq' => ?_, Nat.zero_lt_succ 79,
      fun q' hq' => ?_, fun q' hq' => ?_,
      Nat.le_refl _, pieces ++ [cur ++ [f]], [], ?_, ?_, fun _ _ => nofun, rfl, fun _ => rfl⟩
    · exact Nat.pos_of_ne_zero (h.asks q' (by rw [hw]; exact List.mem_cons_of_mem _ (List.mem_of_mem_head? hq')))
    · exact h.asks q' (by rw [hw]; exact List.mem_cons_of_mem _ hq')
    · exact hsent q' hq'
    · dsimp only
      rw [radioFrames_concat, if_pos hfdir, List.flatten_append, List.append_nil, List.flatten_singleton,
        ← List.append_assoc]
      exact congrArg (· ++ [f]) hfr
    · refine List.rel_append hcarry (.cons ⟨fun f' hf' => ?_, ?_⟩ .nil)
      · rcases List.mem_append.1 hf' with hf' | hf'
        · exact htag f' hf'
        · rw [List.mem_singleton.1 hf']
          exact hftag
      · rw [List.flatMap_append, List.flatMap_singleton, hfbuf]
        exact hbytes'
  · rw [if_neg (show ¬l.got.length + 1 = (q.pending l.y.model).len from hdone), if_neg hdone]
    have hgot : (l.got ++ [b]).length = l.got.length + 1 := List.length_append
    have hne : l.got ++ [b] ≠ [] := List.append_ne_nil_of_right_ne_nil _ (List.cons_ne_nil b [])
    have hshort := h.short q hq
    have hpend' : ({ q.pending l.y.model with
        got := l.got.length + 1
        tMs := max q.tMs l.free
        tLast := t } :: qs.map fun q => q.pending l.y.model) =
        pendings l.y.model l.free (l.got ++ [b]) t (q :: qs) := by
      rw [pendings, hgot, if_neg hne]
    have hlen : ∀ q' ∈ (q :: qs).head?, (l.got ++ [b]).length < l.len q' := by
      intro q' hq'
      rw [← Option.some.inj hq', hgot]
      omega
    have hnow : ∀ q' ∈ q :: qs, q'.tMs ≤ t := fun q' hq' => Nat.le_trans (h.sent q' (by rw [hw]; exact hq')) hle
    have hasks : ∀ q' ∈ q :: qs, l.len q' ≠ 0 := fun q' hq' => h.asks q' (by rw [hw]; exact hq')
    have hlast : (l.y.ans ++ [b]).length = l.y.ans.length + 1 := List.length_append
    have hans := h.ans
    split_ifs with hmax
    · refine ⟨hpend', h.pacing, nofun, hlen, Nat.zero_lt_succ 79, hasks, hnow, Nat.le_trans h.free hle, pieces,
        cur ++ [⟨.reply, .radio, t, l.y.ans ++ [b], false, q.own, q.client⟩], ?_, hcarry, ?_, ?_, fun hnil =>
        absurd hnil hne⟩
      · refine (radioFrames_concat _ _).trans ?_
        rw [if_pos rfl, ← List.append_assoc]
        exact congrArg (· ++ _) hfr
      · intro q' hq' f hf
        rw [← Option.some.inj hq']
        rcases List.mem_append.1 hf with hf | hf
        · exact htag f hf
        · rw [List.mem_singleton.1 hf]
          exact ⟨rfl, rfl, nofun, nofun⟩
      · rw [List.flatMap_append, List.flatMap_singleton, List.append_nil]
        exact hbytes'
    · refine ⟨hpend', h.pacing, nofun, hlen, ?_, hasks, hnow, Nat.le_trans h.free hle, pieces, cur, hfr, hcarry,
        ?_, hbytes',
        fun hnil => absurd hnil hne⟩
      · show (l.y.ans ++ [b]).length < YBIN_MAX_FRAME
        have : ¬(l.y.ans ++ [b]).length = YBIN_MAX_FRAME := hmax
        omega
      · intro q' hq'
        rw [← Option.some.inj hq']
        exact htag

/-! ### Runs -/

theorem unanswered_expire (hlive : ∀ p ∈ y.pend.head?, y.pendLive p t = true) : Unanswered y (y.expire t) := by
  have hfold : ∀ (cs : List Nat) (z : Ybin), Unanswered y z →
      Unanswered y (cs.foldl (fun y c => y.rxExpire .host (c + 1) (.client (c + 1)) t) z) := by
    intro cs
    induction cs with
    | nil => exact fun _ hz => hz
    | cons c cs ih => exact fun z hz => ih _ (hz.trans (unanswered_rxExpire (by decide) ..))
  have hrx := (hfold (List.range CAT_MAX_CLIENTS) y ⟨rfl, rfl, rfl, rfl, rfl⟩).trans
    (unanswered_rxExpire (show CatDir.own ≠ .radio by decide) _ 0 .own t)
  unfold expire
  dsimp only
  rw [pendExpire_of_live]
  · exact hrx
  · intro p hp
    rw [hrx.pend] at hp
    have hp' := hlive p hp
    unfold pendLive byteGap at hp' ⊢
    rw [hrx.pacing]
    exact hp'

theorem Tracks.host (h : Tracks l) (hd : dir ≠ .radio) (hok : l.EventOk (.byte dir client b t))
    (hin : ∀ q ∈ l.waiting.head?, l.InTime t q) : Tracks (l.event (.byte dir client b t)) := by
  obtain ⟨hle, hbyte⟩ := hok
  rw [if_neg hd] at hbyte
  obtain ⟨⟨src, hsrc, hgap⟩, hcmd⟩ := hbyte
  have hsrc : Src.of dir client = some src := hsrc
  have hev : l.y.event (.byte dir client b t) = l.y.hostByte dir (if dir = .host then client else 0) src b t := by
    have hne : src ≠ .radio := by
      rintro rfl
      cases dir with
      | radio => exact hd rfl
      | own => exact nomatch hsrc
      | host =>
        unfold Src.of at hsrc
        dsimp only at hsrc
        split_ifs at hsrc
        exact nomatch hsrc
    unfold Ybin.event feed
    dsimp only
    rw [hsrc]
    cases src with
    | radio => exact absurd rfl hne
    | own => rfl
    | client n => rfl
  unfold Line.event
  dsimp only
  rw [if_neg hd, hev]
  unfold hostByte
  rw [rxExpire_of_fresh hgap]
  dsimp only
  by_cases hlen : (l.y.rx src).buf.length + 1 = YBIN_CMD_LEN
  · have hc : l.command dir client b = some ((l.y.rx src).buf ++ [b]) := by
      unfold Line.command
      rw [hsrc]
      exact if_pos hlen
    obtain ⟨hpace, hroom, hstale⟩ := hcmd _ hc
    rw [hc, if_pos (List.length_append.trans hlen)]
    exact h.command hd hle hin hpace hroom hstale _
  · have hc : l.command dir client b = none := by
      unfold Line.command
      rw [hsrc]
      exact if_neg hlen
    rw [hc, if_neg (fun hlen' => hlen (List.length_append.symm.trans hlen'))]
    exact h.of_unanswered ⟨rfl, rfl, rfl, rfl, rfl⟩ hle

theorem Tracks.event (h : Tracks l) (hok : l.EventOk e) (hin : ∀ q ∈ (l.event e).waiting.head?,
    (l.event e).InTime (l.event e).now q) :
    Tracks (l.event e) := by
  cases e with
  | expire t => exact h.of_unanswered (unanswered_expire (h.live hin)) hok
  | byte dir client b t =>
    by_cases hd : dir = .radio
    · subst hd
      obtain ⟨hle, hbyte⟩ := hok
      exact h.answered hbyte hle b
    · refine h.host hd hok fun q hq => ?_
      obtain ⟨qs, heq⟩ := l.event_host hd client b t
      rw [heq] at hin
      refine hin q ?_
      rw [List.head?_append, hq]
      rfl

theorem Tracks.run {evs : List YbinEvent} (h : Tracks l) (hok : Run.StepsOk Line.event Line.EventOk l evs)
    (hend : (Run.run Line.event l evs).waiting = []) : Tracks (Run.run Line.event l evs) := by
  induction evs generalizing l with
  | nil => exact h
  | cons e evs ih => exact ih (h.event hok.1 (Line.inTime_of_end hok.2 hend)) hok.2 hend

theorem Tracks.create (model : YbinModel) (st : CatState) : Tracks (.create model st) :=
  ⟨rfl, rfl, fun _ => rfl, nofun, Nat.zero_lt_succ 79, nofun, nofun, Nat.le_refl 0, [], [], rfl, .nil, nofun,
    rfl, fun _ => rfl⟩

/-- The answers are what the radio sent. -/
theorem answers_run {evs : List YbinEvent} (hok : Run.StepsOk Line.event Line.EventOk l evs) :
    (Run.run Line.event l evs).answers.flatMap Answer.bytes ++ (Run.run Line.event l evs).got =
      l.answers.flatMap Answer.bytes ++ l.got ++ radioBytes evs := by
  induction evs generalizing l with
  | nil => exact (List.append_nil _).symm
  | cons e evs ih =>
    have hstep : (l.event e).answers.flatMap Answer.bytes ++ (l.event e).got =
        l.answers.flatMap Answer.bytes ++ l.got ++ radioBytes [e] := by
      cases e with
      | expire t => exact (List.append_nil _).symm
      | byte dir client b t =>
        by_cases hd : dir = .radio
        · subst hd
          obtain ⟨⟨-, q, hq, -⟩, -⟩ := hok
          unfold Line.event Line.answered
          dsimp only
          cases hw : l.waiting with
          | nil =>
            rw [hw] at hq
            exact nomatch hq
          | cons q qs =>
            rw [if_pos rfl]
            dsimp only
            split_ifs
            · rw [List.flatMap_append, List.flatMap_singleton, List.append_nil, List.append_assoc]
              rfl
            · exact (List.append_assoc ..).symm
        · obtain ⟨qs, heq⟩ := l.event_host hd client b t
          rw [heq]
          cases dir with
          | radio => exact absurd rfl hd
          | host => exact (List.append_nil _).symm
          | own => exact (List.append_nil _).symm
    have happ : radioBytes [e] ++ radioBytes evs = radioBytes (e :: evs) := (List.filterMap_append (l := [e])).symm
    rw [Run.run_cons, ih hok.2, hstep, List.append_assoc, happ]

theorem y_run (l : Line) (evs : List YbinEvent) : (Run.run Line.event l evs).y = Run.run Ybin.event l.y evs := by
  induction evs generalizing l with
  | nil => rfl
  | cons e evs ih =>
    rw [Run.run_cons, Run.run_cons, ih]
    cases e <;> rfl

/-- If the radio answers all commands of a run as it should, every byte of it is in a frame tagged with the sender
of the command it answers, and the frames of an answer are its pieces. -/
theorem answers_tagged_in_pieces (model : YbinModel) (st : CatState) (cs : List YbinCall)
    (hok : Run.StepsOk Line.event Line.EventOk (.create model st) (cs.flatMap YbinCall.events))
    (hend : (Run.run Line.event (.create model st) (cs.flatMap YbinCall.events)).waiting = []) :
    (Run.run Line.event (.create model st) (cs.flatMap YbinCall.events)).answers.flatMap Answer.bytes =
        radioBytes (cs.flatMap YbinCall.events) ∧
      ∃ pieces, radioFrames (Run.run call (Ybin.create model st) cs).out = pieces.flatten ∧
        List.Forall₂ Carries (Run.run Line.event (.create model st)
          (cs.flatMap YbinCall.events)).answers pieces := by
  have h := (Tracks.create model st).run hok hend
  have hy := y_run (.create model st) (cs.flatMap YbinCall.events)
  have hgot := h.idle hend
  have hbytes := answers_run hok
  obtain ⟨pieces, cur, hfr, hcarry, -, -, hcur⟩ := h.delivered
  rw [hgot, List.append_nil] at hbytes
  refine ⟨hbytes, pieces, ?_, hcarry⟩
  rw [calls_events]
  rw [hy, hcur hgot, List.append_nil] at hfr
  exact hfr

/-- Two clients and mhuxd ask for the frequency, and the second client for a byte of the memory. -/
def sharedCalls : List YbinCall :=
  [.feed ⟨.host, 1, [0, 0, 0, 0, 0x03], 0⟩, .feed ⟨.own, 0, [0, 0, 0, 0, 0x03], 20⟩, .expire 30,
    .feed ⟨.host, 2, [0, 0x55], 40⟩,
    .feed ⟨.radio, 0, [0x43, 0x97, 0, 0, 0x01, 0x43], 60⟩, .feed ⟨.host, 2, [0, 0, 0xbb], 70⟩, .expire 80,
    .feed ⟨.radio, 0, [0x97, 0, 0, 0x01, 0], 90⟩, .feed ⟨.radio, 0, [0], 150⟩]

theorem answers_tagged_in_pieces_shared :
    ∃ pieces, radioFrames (Run.run call (Ybin.create .ft817 .init) sharedCalls).out = pieces.flatten ∧
      List.Forall₂ Carries [⟨false, 1, [0x43, 0x97, 0, 0, 0x01]⟩, ⟨true, 0, [0x43, 0x97, 0, 0, 0x01]⟩,
        ⟨false, 2, [0, 0]⟩] pieces := by
  obtain ⟨-, pieces, hframes, hcarry⟩ := answers_tagged_in_pieces .ft817 .init sharedCalls (by decide)
    (by decide)
  refine ⟨pieces, hframes, ?_⟩
  rw [show [_, _, _] = (Run.run Line.event (.create .ft817 .init)
    (sharedCalls.flatMap YbinCall.events)).answers by decide]
  exact hcarry

end Ybin

end Mhuxd
