import Mhuxd.YbinFrames
import Mhuxd.Lib.Replay

/-!
# Replaying a trace of the older Yaesu radios

The frames the decoder gives to its callback are fed to a fresh one, each with its time. The fresh decoder
has no bytes between the frames and sees all bytes of a frame at the time of the last one, and it is told
of nothing but the frames: what is noticed late, or only told from the pauses between the bytes, it may not
notice. As long as that doesn't happen (`CallOk`) it gives the same frames (`ybin_trace_replays`).
-/

namespace Mhuxd

def YbinCall.tMs : YbinCall → Nat
  | feed f => f.tMs
  | expire t => t

namespace Ybin

/-- A decoder with the time of the last call. -/
structure Tape where
  y : Ybin
  now : Nat

def Tape.call (s : Tape) (c : YbinCall) : Tape := ⟨s.y.call c, c.tMs⟩

/-- A frame of a trace. -/
def refeed (r : Ybin) (e : Emit) : Ybin := r.feed e.frame.dir e.frame.client e.frame.buf e.frame.tMs

/-- The trace has non-decreasing times, and a fresh decoder gives the same frames and has the same state. -/
structure Faithful (model : YbinModel) (st : CatState) (y : Ybin) : Prop where
  times : (y.out.map fun e => e.frame.tMs).Pairwise (· ≤ ·)
  frames : (Replay.replay refeed (create model st) y.out).out = y.out
  state : (Replay.replay refeed (create model st) y.out).st = y.st

/-! ### The runs that replay -/

/-- The time of the radio's last frame. -/
def recordedAt (y : Ybin) : Nat :=
  (((y.out.map Emit.frame).filter fun f => f.dir == .radio).getLast?.map CatFrame.tMs).getD 0

/-- The answer that is coming in would still be waited for at `t` after the pieces of it that are frames. -/
def SeenLive (y : Ybin) (t : Nat) (p : YbinPending) : Prop :=
  y.pendLive { p with got := p.got - y.ans.length, tLast := y.recordedAt } t = true

instance (y : Ybin) (t : Nat) (p : YbinPending) : Decidable (y.SeenLive t p) :=
  inferInstanceAs (Decidable (_ = true))

/-- No frame of the trace is later. -/
def NoneAfter (y : Ybin) (t : Nat) : Prop := ∀ e ∈ y.out, e.frame.tMs ≤ t

instance (y : Ybin) (t : Nat) : Decidable (y.NoneAfter t) :=
  inferInstanceAs (Decidable (∀ e ∈ y.out, e.frame.tMs ≤ t))

/-- The end of an answer that stopped is the next frame of the trace. -/
def StopOk (y : Ybin) (p : YbinPending) : Prop := y.NoneAfter p.tLast ∧ y.SeenLive p.tLast p

instance (y : Ybin) (p : YbinPending) : Decidable (y.StopOk p) := inferInstanceAs (Decidable (_ ∧ _))

/-- An answer that stopped. -/
def Stopped (y : Ybin) (t : Nat) (p : YbinPending) : Prop := p.got ≠ 0 ∧ y.pendLive p t = false

instance (y : Ybin) (t : Nat) (p : YbinPending) : Decidable (y.Stopped t p) := inferInstanceAs (Decidable (_ ∧ _))

/-- A command whose bytes stopped. -/
def Stale (rx : YbinRx) (t : Nat) : Prop := rx.buf ≠ [] ∧ rx.tMs + YBIN_CMD_GAP_MS < t

instance (rx : YbinRx) (t : Nat) : Decidable (Stale rx t) := inferInstanceAs (Decidable (_ ∧ _))

/-- A byte of the radio: if an answer stopped before, its end is a frame now and the byte is one too; if the byte
makes a frame, the answer is waited for without its bytes since the last frame. -/
def RadioOk (y : Ybin) (t : Nat) : Prop :=
  ∀ p ∈ y.pend.head?,
    (y.Stopped t p → (y.ans ≠ [] → y.StopOk p) ∧ ∀ q ∈ y.pend.tail.head?, q.len = 1) ∧
      (¬y.Stopped t p → y.ans ≠ [] → p.got + 1 = p.len ∨ y.ans.length + 1 = YBIN_MAX_FRAME → y.SeenLive t p)

instance (y : Ybin) (t : Nat) : Decidable (y.RadioOk t) :=
  inferInstanceAs (Decidable (∀ p ∈ y.pend.head?,
    (y.Stopped t p → (y.ans ≠ [] → y.StopOk p) ∧ ∀ q ∈ y.pend.tail.head?, q.len = 1) ∧
      (¬y.Stopped t p → y.ans ≠ [] → p.got + 1 = p.len ∨ y.ans.length + 1 = YBIN_MAX_FRAME → y.SeenLive t p)))

/-- A command: if an answer is given up its end is a frame now; otherwise it is waited for without its bytes since
the last frame. -/
def CommandOk (y : Ybin) (c : List UInt8) (t : Nat) : Prop :=
  ∀ p ∈ y.pend.head?, y.ans ≠ [] →
    if y.pendLive p t = false ∨ (answerLen y.model c).1 ≠ 0 ∧ y.pend.length = PEND_MAX then y.StopOk p
    else y.SeenLive t p ∧ (p.got = y.ans.length → t ≤ p.tMs + GIVEUP_MS)

instance (y : Ybin) (c : List UInt8) (t : Nat) : Decidable (y.CommandOk c t) :=
  inferInstanceAs (Decidable (∀ p ∈ y.pend.head?, y.ans ≠ [] →
    if y.pendLive p t = false ∨ (answerLen y.model c).1 ≠ 0 ∧ y.pend.length = PEND_MAX then y.StopOk p
    else y.SeenLive t p ∧ (p.got = y.ans.length → t ≤ p.tMs + GIVEUP_MS)))

/-- A byte of a call of `cat_ybin_feed`. -/
def ByteOk (dir : CatDir) (client t : Nat) (y : Ybin) (b : UInt8) : Prop :=
  ∀ src ∈ Src.of dir client,
    if src = .radio then y.RadioOk t
    else ((y.rxExpire dir (if dir = .host then client else 0) src t).rx src).buf.length + 1 = YBIN_CMD_LEN →
      (y.rxExpire dir (if dir = .host then client else 0) src t).CommandOk
        (((y.rxExpire dir (if dir = .host then client else 0) src t).rx src).buf ++ [b]) t

instance (dir : CatDir) (client t : Nat) (y : Ybin) (b : UInt8) : Decidable (ByteOk dir client t y b) :=
  inferInstanceAs (Decidable (∀ src ∈ Src.of dir client,
    if src = .radio then y.RadioOk t
    else ((y.rxExpire dir (if dir = .host then client else 0) src t).rx src).buf.length + 1 = YBIN_CMD_LEN →
      (y.rxExpire dir (if dir = .host then client else 0) src t).CommandOk
        (((y.rxExpire dir (if dir = .host then client else 0) src t).rx src).buf ++ [b]) t))

/-- A command that stopped short is noticed by a call that completes the next one of its source. -/
def ShortOk (y : Ybin) (f : Feed) : Prop :=
  ∀ src ∈ Src.of f.dir f.client, src ≠ .radio → f.buf ≠ [] → Stale (y.rx src) f.tMs →
    YBIN_CMD_LEN ≤ f.buf.length ∧ y.NoneAfter (y.rx src).tMs

instance (y : Ybin) (f : Feed) : Decidable (y.ShortOk f) :=
  inferInstanceAs (Decidable (∀ src ∈ Src.of f.dir f.client, src ≠ .radio → f.buf ≠ [] → Stale (y.rx src) f.tMs →
    YBIN_CMD_LEN ≤ f.buf.length ∧ y.NoneAfter (y.rx src).tMs))

/-- `cat_ybin_expire` notices nothing that makes a frame, and no answer in front of another. -/
def ExpireOk (y : Ybin) (t : Nat) : Prop :=
  (∀ c ∈ List.range CAT_MAX_CLIENTS, ¬Stale (y.rx (.client (c + 1))) t) ∧ ¬Stale (y.rx .own) t ∧
    ∀ p ∈ y.pend.head?, y.Stopped t p → y.ans = [] ∧ y.pend.tail = []

instance (y : Ybin) (t : Nat) : Decidable (y.ExpireOk t) := inferInstanceAs (Decidable (_ ∧ _ ∧ _))

/-- A call whose frames replay. -/
def CallOk (s : Tape) : YbinCall → Prop
  | .feed f =>
    s.now ≤ f.tMs ∧ s.y.ShortOk f ∧
      Run.StepsOk (fun y b => y.feed f.dir f.client [b] f.tMs) (ByteOk f.dir f.client f.tMs) s.y f.buf
  | .expire t => s.now ≤ t ∧ s.y.ExpireOk t

instance (s : Tape) : ∀ c, Decidable (CallOk s c)
  | .feed _ => inferInstanceAs (Decidable (_ ∧ _ ∧ _))
  | .expire _ => inferInstanceAs (Decidable (_ ∧ _))

variable {y y' r z : Ybin} {dir : CatDir} {client t t' now : Nat} {src : Src} {b : UInt8} {c a : List UInt8}
  {p q : YbinPending} {ps dead : List YbinPending} {rx : Src → YbinRx} {hold : Nat → Nat}

/-! ### The list of commands -/

/-- A command without a byte of its answer. -/
def Fresh (p : YbinPending) : Prop := p.got = 0 ∧ p.len ≠ 0

/-- Only the answer to the first command is coming in. -/
structure Orderly (y : Ybin) : Prop where
  head : ∀ p ∈ y.pend.head?, p.got < p.len ∧ y.ans.length ≤ p.got
  rest : ∀ p ∈ y.pend.tail, Fresh p
  none : y.pend = [] → y.ans = []
  ans : y.ans.length < YBIN_MAX_FRAME
  vfo : y.pend ≠ [] → y.st.vfoAb.valid = true

/-- No answer is coming in. -/
theorem Orderly.of_fresh (hpend : ∀ p ∈ y.pend, Fresh p) (hans : y.ans = [])
    (hvfo : y.pend ≠ [] → y.st.vfoAb.valid = true) :
    Orderly y := by
  refine ⟨fun p hp => ?_, fun p hp => hpend p (List.mem_of_mem_tail hp), fun _ => hans, ?_, hvfo⟩
  · obtain ⟨hgot, hlen⟩ := hpend p (List.mem_of_mem_head? hp)
    rw [hgot, hans]
    exact ⟨Nat.pos_of_ne_zero hlen, Nat.le_refl 0⟩
  · rw [hans]
    exact Nat.zero_lt_succ 79

theorem dueFrom_fresh (h : ∀ p ∈ ps, Fresh p) : ∀ p ∈ dueFrom t ps, Fresh p := by
  intro p hp
  cases ps with
  | nil => exact absurd hp List.not_mem_nil
  | cons q ps =>
    rcases List.mem_cons.1 hp with rfl | hp
    · have hq := h q List.mem_cons_self
      split_ifs
      · exact hq
      · exact hq
    · exact h p (List.mem_cons_of_mem _ hp)

theorem length_dueFrom (t : Nat) (ps : List YbinPending) : (dueFrom t ps).length = ps.length := by
  cases ps <;> rfl

theorem answerDone_pend (y : Ybin) (p : YbinPending) (complete : Bool) (t : Nat) :
    (y.answerDone p complete t).pend = dueFrom t y.pend.tail := by
  obtain ⟨st, kind, applied, -, heq⟩ := y.answerDone_eq p complete t
  rw [heq]
  split
  · exact congrArg (dueFrom t) (List.eraseIdx_zero ..)
  · exact congrArg (dueFrom t) (List.eraseIdx_zero ..)

theorem length_pendEnd (y : Ybin) (p : YbinPending) (t : Nat) :
    (y.pendEnd p t).pend.length = y.pend.tail.length := by
  unfold pendEnd
  split_ifs
  · rw [answerDone_pend, length_dueFrom]
  · exact congrArg List.length (List.eraseIdx_zero ..)

/-- One round of `pend_expire`. -/
theorem pendExpire_cons (h : y.pend = p :: ps) :
    y.pendExpire t = if y.pendLive p t then y else (y.pendEnd p t).pendExpire t := by
  have hlen : (y.pendEnd p t).pend.length = ps.length := by
    rw [length_pendEnd, h]
    rfl
  unfold pendExpire
  rw [hlen, h, List.length_cons, expireLoop, h]

theorem pendExpire_nil (h : y.pend = []) : y.pendExpire t = y := by
  unfold pendExpire
  rw [h]
  rfl

/-- An answer that stopped: what there is of it is a frame, with the time of its last byte. -/
theorem answerDone_stopped (y : Ybin) (p : YbinPending) (t : Nat) : y.answerDone p false t =
    if y.ans = [] then y.answered y.st t
    else (y.answered y.st t).emit (if p.var then .reply else .dropped) .radio y.ans false p.own p.client p.tLast := rfl

theorem pendLive_mono (h : y.pendLive p t = false) (hle : t ≤ t') : y.pendLive p t' = false := by
  unfold pendLive at h ⊢
  split_ifs at h ⊢
  · rw [decide_eq_false_iff_not] at h ⊢
    omega
  · rw [decide_eq_false_iff_not] at h ⊢
    omega

/-- The commands in front of `l` wait for nothing from `t` on; one with bytes is the last of all. -/
def Gone (y : Ybin) (t : Nat) (l : List YbinPending) : List YbinPending → Prop
  | [] => True
  | d :: ds => y.pendLive d t = false ∧ (d.got = 0 ∨ ds = [] ∧ l = []) ∧ Gone y t l ds

theorem Gone.mono {l : List YbinPending} (h : Gone y t l dead) (hle : t ≤ t') : Gone y t' l dead := by
  induction dead with
  | nil => exact trivial
  | cons d ds ih => exact ⟨pendLive_mono h.1 hle, h.2.1, ih h.2.2⟩

theorem Gone.congr {l : List YbinPending} (h : Gone y t l dead) (hp : y'.pacingMs = y.pacingMs) :
    Gone y' t l dead := by
  induction dead with
  | nil => exact trivial
  | cons d ds ih => exact ⟨(pendLive_congr hp d t).trans h.1, h.2.1, ih h.2.2⟩

/-- With one behind them none has bytes. -/
theorem Gone.behind {l l' : List YbinPending} (h : Gone y t l dead) (hl : l ≠ []) : Gone y t l' dead := by
  induction dead with
  | nil => exact trivial
  | cons d ds ih => exact ⟨h.1, h.2.1.imp_right fun h => absurd h.2 hl, ih h.2.2⟩

theorem Gone.append {l ds : List YbinPending} (h : Gone y t (ds ++ l) dead) (hds : ds ≠ []) (h' : Gone y t l ds) :
    Gone y t l (dead ++ ds) := by
  induction dead with
  | nil => exact h'
  | cons d dead ih => exact ⟨h.1, h.2.1.imp_right fun h => absurd (List.append_eq_nil_iff.1 h.2).1 hds, ih h.2.2⟩

/-- They are taken off, and nothing else happens. -/
theorem pendExpire_gone {l : List YbinPending} (h : y.pend = dead ++ l) (hans : y.ans = [])
    (hgone : Gone y t l dead) :
    y.pendExpire t = { y with pend := l }.pendExpire t := by
  induction dead generalizing y with
  | nil => rw [← show y.pend = l from h]
  | cons d dead ih =>
    obtain ⟨hlive, hgot, hgone⟩ := hgone
    have hend : y.pendEnd d t = { y with pend := dead ++ l } := by
      have htail : y.pend.eraseIdx 0 = dead ++ l := by
        rw [h]
        rfl
      unfold pendEnd
      by_cases hg : d.got = 0
      · rw [if_neg (not_not_intro hg)]
        unfold pendRemove
        rw [htail, if_pos rfl, ← hans]
      · obtain ⟨rfl, rfl⟩ := hgot.resolve_left hg
        rw [if_pos hg, answerDone_stopped, if_pos hans]
        unfold answered
        rw [htail, ← hans]
        rfl
    rw [pendExpire_cons h, hlive, if_neg Bool.false_ne_true, hend]
    exact ih rfl hans (hgone.congr rfl)

/-! ### Bytes without a frame -/

/-- A byte that completes neither the answer nor a piece of it. -/
theorem radioByte_part (hpend : y.pend = p :: ps) (hlive : y.pendLive p t = true) (hvfo : y.st.vfoAb.valid = true)
    (hlen : p.got + 1 ≠ p.len) (hmax : y.ans.length + 1 ≠ YBIN_MAX_FRAME) (b : UInt8) :
    y.radioByte b t = { y with
      pend := { p with got := p.got + 1, tLast := t } :: ps
      ans := y.ans ++ [b] } := by
  have hexp : y.pendExpire t = y := by
    rw [pendExpire_cons hpend, if_pos hlive]
  have hans : ¬(y.ans ++ [b]).length = YBIN_MAX_FRAME := by
    rw [List.length_append]
    exact hmax
  unfold radioByte
  rw [hexp]
  dsimp only
  rw [hpend]
  unfold answerByte
  dsimp only
  rw [if_pos hvfo, if_neg hlen, if_neg hans]

theorem feed_radio (y : Ybin) (client : Nat) (a : List UInt8) (t : Nat) :
    y.feed .radio client a t = a.foldl (fun y b => y.radioByte b t) y := rfl

theorem radioBytes_part (hpend : y.pend = p :: ps) (hlive : y.pendLive p t = true) (hvfo : y.st.vfoAb.valid = true)
    (ha : a ≠ []) (hlen : p.got + a.length < p.len) (hmax : y.ans.length + a.length < YBIN_MAX_FRAME) :
    a.foldl (fun y b => y.radioByte b t) y = { y with
      pend := { p with got := p.got + a.length, tLast := t } :: ps
      ans := y.ans ++ a } := by
  induction a generalizing y p with
  | nil => exact absurd rfl ha
  | cons b a ih =>
    rw [List.length_cons] at hlen hmax
    rw [List.foldl_cons, radioByte_part hpend hlive hvfo (by omega) (by omega)]
    by_cases hnil : a = []
    · rw [hnil]
      rfl
    · have hlive' : pendLive { y with
          pend := { p with got := p.got + 1, tLast := t } :: ps
          ans := y.ans ++ [b] } { p with got := p.got + 1, tLast := t } t = true := by
        unfold pendLive
        rw [if_pos (Nat.succ_ne_zero _), decide_eq_true_eq]
        exact Nat.le_add_right ..
      have hmax' : (y.ans ++ [b]).length + a.length < YBIN_MAX_FRAME := by
        rw [List.length_append, List.length_singleton]
        omega
      rw [ih rfl hlive' hvfo hnil (by dsimp only; omega) hmax']
      simp only [List.length_cons, List.append_assoc, List.singleton_append]
      rw [Nat.add_assoc, Nat.add_comm 1]

/-! ### The same decoder, but for the framers -/

/-- `y` with other framers and lines kept. -/
def aside (y : Ybin) (rx : Src → YbinRx) (hold : Nat → Nat) : Ybin := { y with rx := rx, hold := hold }

theorem Blind.aside {f : Ybin → Ybin × Applied} (hf : Blind f) (hn : ∀ y, Noted y (f y).1) (y : Ybin)
    (rx : Src → YbinRx) (hold : Nat → Nat) :
    f (y.aside rx hold) = ((f y).1.aside rx hold, (f y).2) := by
  have h := hf.noted (hn y) (z := y.aside rx hold) rfl rfl
  obtain ⟨st, hst, -⟩ := hn y
  rw [h, hst]
  rfl

theorem answerDone_aside (complete : Bool) :
    (y.aside rx hold).answerDone p complete t = (y.answerDone p complete t).aside rx hold := by
  have happly := (blind_applyAnswer (t := t) p.cmd y.ans).aside (fun y' => noted_applyAnswer p.cmd y.ans)
    { y.pendRemove 0 with pend := dueFrom t (y.pendRemove 0).pend } rx hold
  have hans : (y.aside rx hold).ans = y.ans := rfl
  have hy : { (y.aside rx hold).pendRemove 0 with pend := dueFrom t ((y.aside rx hold).pendRemove 0).pend } =
      ({ y.pendRemove 0 with pend := dueFrom t (y.pendRemove 0).pend } : Ybin).aside rx hold := rfl
  unfold answerDone
  dsimp only at happly ⊢
  rw [hans, hy, happly]
  generalize Ybin.applyAnswer _ p.cmd y.ans t = res
  by_cases hc : complete = false
  · simp only [if_pos hc]
    split_ifs <;> rfl
  · simp only [if_neg hc]
    by_cases hlen : YBIN_MAX_FRAME < p.len
    · simp only [if_pos hlen]
      split_ifs <;> rfl
    · simp only [if_neg hlen]
      by_cases hnil : y.ans = []
      · rw [if_pos hnil, if_pos hnil]
      · rw [if_neg hnil, if_neg hnil]
        rfl

theorem pendEnd_aside : (y.aside rx hold).pendEnd p t = (y.pendEnd p t).aside rx hold := by
  unfold pendEnd
  split_ifs
  · exact answerDone_aside false
  · rfl

theorem expireLoop_aside (n : Nat) : expireLoop t n (y.aside rx hold) = (expireLoop t n y).aside rx hold := by
  induction n generalizing y with
  | zero => rfl
  | succ n ih =>
    have hpend : (y.aside rx hold).pend = y.pend := rfl
    unfold expireLoop
    rw [hpend]
    cases y.pend with
    | nil => rfl
    | cons p ps =>
      have hlive : (y.aside rx hold).pendLive p t = y.pendLive p t := rfl
      dsimp only
      rw [hlive, pendEnd_aside, ih]
      split_ifs <;> rfl

theorem pendExpire_aside : (y.aside rx hold).pendExpire t = (y.pendExpire t).aside rx hold := expireLoop_aside _

theorem giveupLoop_aside (n : Nat) : giveupLoop t n (y.aside rx hold) = (giveupLoop t n y).aside rx hold := by
  induction n generalizing y with
  | zero => rfl
  | succ n ih =>
    have hpend : (y.aside rx hold).pend = y.pend := rfl
    have hrem : (y.aside rx hold).pendRemove 0 = (y.pendRemove 0).aside rx hold := rfl
    unfold giveupLoop
    rw [hpend]
    cases y.pend with
    | nil => rfl
    | cons p ps =>
      dsimp only
      rw [hrem, ih]
      split_ifs <;> rfl

theorem ready_aside : (y.aside rx hold).ready c t = (y.ready c t).aside rx hold := by
  have hvfo : (if (y.aside rx hold).st.vfoAb.valid then y.aside rx hold else (y.aside rx hold).selectVfo false t) =
      (if y.st.vfoAb.valid then y else y.selectVfo false t).aside rx hold := by
    by_cases h : y.st.vfoAb.valid = true
    · rw [if_pos h, if_pos (show (y.aside rx hold).st.vfoAb.valid = true from h)]
    · rw [if_neg h, if_neg (show ¬(y.aside rx hold).st.vfoAb.valid = true from h)]
      rfl
  have hpaced : ∀ z : Ybin, (z.aside rx hold).paced c = (z.paced c).aside rx hold := by
    intro z
    have hm : (z.aside rx hold).model = z.model := rfl
    unfold paced
    rw [hm]
    split_ifs <;> rfl
  unfold ready
  rw [hvfo, pendExpire_aside, ← hpaced]
  exact congrArg (fun z : Ybin => z.paced c) (giveupLoop_aside _)

theorem pendAdd_aside {len : Nat × Bool} {own : Bool} :
    (y.aside rx hold).pendAdd c len own client t = (y.pendAdd c len own client t).aside rx hold := by
  have hroom : (y.aside rx hold).pendRoom t = (y.pendRoom t).aside rx hold := by
    have hpend : (y.aside rx hold).pend = y.pend := rfl
    unfold pendRoom
    rw [hpend]
    cases y.pend with
    | nil => rfl
    | cons p ps =>
      dsimp only
      rw [pendEnd_aside]
      split_ifs <;> rfl
  unfold pendAdd
  rw [hroom]
  rfl

theorem command_aside : ∃ hold', (y.aside rx hold).command dir client c t =
    (y.command dir client c t).aside rx hold' := by
  have htaken : ∃ hold', (y.aside rx hold).taken c (dir == .own) client t =
      (y.taken c (dir == .own) client t).aside rx hold' := by
    have hlen : answerLen (y.aside rx hold).model c = answerLen y.model c := rfl
    unfold taken
    rw [hlen, ready_aside, pendAdd_aside]
    split_ifs
    · exact ⟨_, rfl⟩
    · exact ⟨_, rfl⟩
  obtain ⟨hold', htaken⟩ := htaken
  have happly := (blind_applyCommand (t := t) c).aside (fun y' => noted_applyCommand c)
    (y.taken c (dir == .own) client t) rx hold'
  refine ⟨hold', ?_⟩
  rw [command_applied, command_applied, htaken, happly]
  rfl

theorem radioByte_aside : (y.aside rx hold).radioByte b t = (y.radioByte b t).aside rx hold := by
  unfold radioByte
  rw [pendExpire_aside]
  generalize y.pendExpire t = z
  have hpend : (z.aside rx hold).pend = z.pend := rfl
  dsimp only
  rw [hpend]
  cases z.pend with
  | nil => rfl
  | cons p ps =>
    have hvfo : (if (z.aside rx hold).st.vfoAb.valid then z.aside rx hold else (z.aside rx hold).selectVfo false t) =
        (if z.st.vfoAb.valid then z else z.selectVfo false t).aside rx hold := by
      by_cases h : z.st.vfoAb.valid = true
      · rw [if_pos h, if_pos (show (z.aside rx hold).st.vfoAb.valid = true from h)]
      · rw [if_neg h, if_neg (show ¬(z.aside rx hold).st.vfoAb.valid = true from h)]
        rfl
    unfold answerByte
    dsimp only
    rw [hvfo]
    generalize (if z.st.vfoAb.valid then z else z.selectVfo false t) = z
    have hans : (z.aside rx hold).ans = z.ans := rfl
    rw [hans]
    split_ifs
    · exact answerDone_aside (y := { z with pend := { p with got := p.got + 1, tLast := t } :: ps, ans := z.ans ++ [b] }) true
    · rfl
    · rfl

/-! ### Feeding a frame -/

theorem radioByte_gone {l : List YbinPending} (h : r.pend = dead ++ l) (hans : r.ans = [])
    (hgone : Gone r t l dead)
    (b : UInt8) : r.radioByte b t = { r with pend := l }.radioByte b t := by
  unfold radioByte
  rw [pendExpire_gone h hans hgone]

theorem command_gone {l : List YbinPending} (h : r.pend = dead ++ l) (hans : r.ans = []) (hgone : Gone r t l dead)
    (dir : CatDir) (client : Nat) (c : List UInt8) :
    r.command dir client c t = { r with pend := l }.command dir client c t := by
  have hexp : ({ r with pend := l }.pendExpire t) = r.pendExpire t := (pendExpire_gone h hans hgone).symm
  have hsel : ({ r.selectVfo false t with pend := l }.pendExpire t) = (r.selectVfo false t).pendExpire t :=
    (pendExpire_gone (y := r.selectVfo false t) h hans (hgone.congr rfl)).symm
  have hready : ({ r with pend := l } : Ybin).ready c t = r.ready c t := by
    unfold ready
    split_ifs
    · rw [hexp]
    · exact congrArg (fun z => (z.pendGiveup t).paced c) hsel
  have htaken : ∀ own client, ({ r with pend := l } : Ybin).taken c own client t = r.taken c own client t := by
    intro own client
    unfold taken
    rw [hready]
  rw [command_applied, command_applied, htaken]

/-- A piece of the answer to the first command that counts. -/
theorem feed_answer (hpend : r.pend = dead ++ q :: ps) (hans : r.ans = []) (hgone : Gone r t (q :: ps) dead)
    (hlive : r.pendLive q t = true) (hvfo : r.st.vfoAb.valid = true) (ha : a ≠ [])
    (hlen : q.got + a.length < q.len)
    (hmax : a.length < YBIN_MAX_FRAME) (client : Nat) : r.feed .radio client a t = { r with
      pend := { q with got := q.got + a.length, tLast := t } :: ps
      ans := a } := by
  obtain ⟨b, a, rfl⟩ := List.exists_cons_of_ne_nil ha
  have hmax' : r.ans.length + (b :: a).length < YBIN_MAX_FRAME := by
    rw [hans, List.length_nil, Nat.zero_add]
    exact hmax
  rw [feed_radio, List.foldl_cons, radioByte_gone hpend hans hgone, ← List.foldl_cons (l := a)]
  rw [radioBytes_part (y := { r with pend := q :: ps }) rfl hlive hvfo ha hlen hmax']
  dsimp only
  rw [hans, List.nil_append]

theorem rxExpire_fresh (h : ¬Stale (y.rx src) t) (dir : CatDir) (client : Nat) :
    y.rxExpire dir client src t = y := by
  have hle : (y.rx src).buf = [] ∨ t ≤ (y.rx src).tMs + YBIN_CMD_GAP_MS := by
    by_cases hbuf : (y.rx src).buf = []
    · exact .inl hbuf
    · exact .inr (Nat.le_of_not_lt fun hlt => h ⟨hbuf, hlt⟩)
  unfold rxExpire
  dsimp only
  rw [if_pos hle]

/-- A byte before the last one of a command. -/
theorem hostByte_part (h : ((y.rxExpire dir client src t).rx src).buf.length + 1 ≠ YBIN_CMD_LEN) (b : UInt8) :
    y.hostByte dir client src b t =
      (y.rxExpire dir client src t).setRx src ⟨((y.rxExpire dir client src t).rx src).buf ++ [b], t⟩ := by
  unfold hostByte
  dsimp only
  rw [List.length_append, List.length_singleton, if_neg h]

theorem hostByte_last (h : ((y.rxExpire dir client src t).rx src).buf.length + 1 = YBIN_CMD_LEN) (b : UInt8) :
    y.hostByte dir client src b t = ((y.rxExpire dir client src t).setRx src ⟨[], t⟩).command dir client
      (((y.rxExpire dir client src t).rx src).buf ++ [b]) t := by
  unfold hostByte
  dsimp only
  rw [List.length_append, List.length_singleton, if_pos h]

theorem setRx_rx (y : Ybin) (src : Src) (x : YbinRx) : (y.setRx src x).rx src = x := Function.update_self ..

/-- A framer that got a byte now has nothing to drop. -/
theorem rxExpire_now (y : Ybin) (src : Src) (buf : List UInt8) (dir : CatDir) (client t : Nat) :
    (y.setRx src ⟨buf, t⟩).rxExpire dir client src t = y.setRx src ⟨buf, t⟩ := by
  refine rxExpire_fresh (fun h => ?_) dir client
  rw [setRx_rx] at h
  exact absurd h.2 (Nat.not_lt_of_le (Nat.le_add_right ..))

theorem hostBytes_part (ha : a ≠ []) (h : ((y.rxExpire dir client src t).rx src).buf.length + a.length < YBIN_CMD_LEN) :
    a.foldl (fun y b => y.hostByte dir client src b t) y =
      (y.rxExpire dir client src t).setRx src ⟨((y.rxExpire dir client src t).rx src).buf ++ a, t⟩ := by
  induction a generalizing y with
  | nil => exact absurd rfl ha
  | cons b a ih =>
    rw [List.length_cons] at h
    rw [List.foldl_cons, hostByte_part (by omega)]
    generalize y.rxExpire dir client src t = z at h ⊢
    by_cases hnil : a = []
    · rw [hnil]
      rfl
    · rw [ih hnil]
      · rw [rxExpire_now, setRx_rx, List.append_assoc]
        unfold setRx
        dsimp only
        rw [Function.update_idem]
        rfl
      · rw [rxExpire_now, setRx_rx, List.length_append, List.length_singleton]
        omega

/-! ### What is taken off the list -/

/-- No answer is coming in. -/
def Resting (y : Ybin) : Prop := (∀ p ∈ y.pend, Fresh p) ∧ y.ans = []

theorem Orderly.resting (h : Orderly y) (h0 : ∀ p ∈ y.pend.head?, p.got = 0) : Resting y := by
  obtain ⟨hhead, hrest, hnone, -, -⟩ := h
  cases hpend : y.pend with
  | nil =>
    refine ⟨fun p hp => ?_, hnone hpend⟩
    rw [hpend] at hp
    exact absurd hp List.not_mem_nil
  | cons p ps =>
    rw [hpend] at hhead hrest h0
    obtain ⟨hlt, hle⟩ := hhead p rfl
    have hgot : p.got = 0 := h0 p rfl
    refine ⟨fun q hq => ?_, List.eq_nil_of_length_eq_zero (by omega)⟩
    rw [hpend] at hq
    rcases List.mem_cons.1 hq with rfl | hq
    · exact ⟨hgot, by omega⟩
    · exact hrest q hq

theorem Resting.pendExpire (h : Resting y) (t : Nat) : ∃ ds l, y.pend = ds ++ l ∧
    y.pendExpire t = { y with pend := l } ∧
    (∀ p ∈ l.head?, y.pendLive p t = true) ∧ Gone y t l ds := by
  obtain ⟨hfresh, hans⟩ := h
  generalize hl : y.pend = l at hfresh ⊢
  induction l generalizing y with
  | nil =>
    refine ⟨[], [], rfl, ?_, fun p hp => absurd hp (Option.not_mem_none p), trivial⟩
    rw [pendExpire_nil hl, ← hl]
  | cons p ps ih =>
    by_cases hlive : y.pendLive p t = true
    · refine ⟨[], p :: ps, rfl, ?_, fun q hq => ?_, trivial⟩
      · rw [pendExpire_cons hl, if_pos hlive, ← hl]
      · rw [← Option.some.inj hq]
        exact hlive
    · have hend : y.pendEnd p t = { y with pend := ps } := by
        unfold pendEnd pendRemove
        rw [if_neg (not_not_intro (hfresh p List.mem_cons_self).1), hl, if_pos rfl, ← hans]
        rfl
      obtain ⟨ds, l, heq, hexp, hhead, hgone⟩ := ih (y := { y with pend := ps }) hans rfl
        fun q hq => hfresh q (List.mem_cons_of_mem _ hq)
      refine ⟨p :: ds, l, congrArg (p :: ·) heq, ?_, hhead, ?_⟩
      · rw [pendExpire_cons hl, if_neg hlive, hend]
        exact hexp
      · exact ⟨Bool.eq_false_iff.2 hlive, .inl (hfresh p List.mem_cons_self).1, hgone.congr rfl⟩

/-- The next command is taken by the radio when an answer ends. -/
theorem dueFrom_live (h : ∀ p ∈ ps, Fresh p) : ∀ p ∈ (dueFrom t ps).head?, y.pendLive p t = true := by
  intro p hp
  have hgot : p.got = 0 := (dueFrom_fresh h p (List.mem_of_mem_head? hp)).1
  cases ps with
  | nil => exact absurd hp (Option.not_mem_none p)
  | cons q ps =>
    have hle : t ≤ p.tMs := by
      rw [← Option.some.inj hp]
      split_ifs with hlt
      · exact Nat.le_refl t
      · exact Nat.le_of_not_lt hlt
    unfold pendLive
    rw [if_neg (not_not_intro hgot), decide_eq_true_eq]
    omega

/-- The commands behind an answer that stopped have until now to be answered. -/
theorem Orderly.pendExpire_stopped (h : Orderly y) {p : YbinPending} {ps : List YbinPending} (hpend : y.pend = p :: ps)
    (hstop : y.Stopped t p) : y.pendExpire t = y.answerDone p false t := by
  have hrest : ∀ q ∈ ps, Fresh q := by
    have := h.rest
    rw [hpend] at this
    exact this
  rw [pendExpire_cons hpend, if_neg (Bool.eq_false_iff.1 hstop.2), pendEnd, if_pos hstop.1]
  refine pendExpire_of_live ?_
  rw [answerDone_pend, hpend]
  exact dueFrom_live hrest

/-- `pend_expire` ends an answer that stopped, or takes off commands that got none. -/
theorem Orderly.pendExpire_cases (h : Orderly y) (t : Nat) :
    (∃ p ps, y.pend = p :: ps ∧ y.Stopped t p ∧ y.pendExpire t = y.answerDone p false t) ∨
    ((∀ p ∈ y.pend.head?, ¬y.Stopped t p) ∧ ∃ ds l, y.pend = ds ++ l ∧ y.pendExpire t = { y with pend := l } ∧
      (∀ p ∈ l.head?, y.pendLive p t = true) ∧ Gone y t l ds ∧ (ds ≠ [] → Resting y)) := by
  by_cases h0 : ∀ p ∈ y.pend.head?, p.got = 0
  · obtain ⟨ds, l, heq, hexp, hhead, hgone⟩ := (h.resting h0).pendExpire t
    exact .inr ⟨fun p hp hs => hs.1 (h0 p hp), ds, l, heq, hexp, hhead, hgone, fun _ => h.resting h0⟩
  · push Not at h0
    obtain ⟨p, hp, hgot⟩ := h0
    obtain ⟨ps, hpend⟩ := List.head?_eq_some_iff.1 hp
    by_cases hlive : y.pendLive p t = true
    · refine .inr ⟨fun q hq hs => ?_, [], y.pend, rfl, ?_, fun q hq => ?_, trivial, fun hnil => absurd rfl hnil⟩
      · rw [← Option.mem_unique hp hq, Stopped, hlive] at hs
        exact Bool.noConfusion hs.2
      · rw [pendExpire_cons hpend, if_pos hlive]
      · rw [← Option.mem_unique hp hq]
        exact hlive
    · have hdead := Bool.eq_false_iff.2 hlive
      exact .inl ⟨p, ps, hpend, ⟨hgot, hdead⟩, h.pendExpire_stopped hpend ⟨hgot, hdead⟩⟩

/-! ### The decoder and its trace -/

theorem recordedAt_radio {e : Emit} (h : y'.out = y.out ++ [e]) (hdir : e.frame.dir = .radio) :
    y'.recordedAt = e.frame.tMs := by
  unfold recordedAt
  rw [h, List.map_append, List.filter_append, List.map_singleton, List.filter_cons_of_pos (by rw [hdir]; rfl),
    List.filter_nil,
    List.getLast?_append]
  rfl

theorem recordedAt_other {e : Emit} (h : y'.out = y.out ++ [e]) (hdir : e.frame.dir ≠ .radio) :
    y'.recordedAt = y.recordedAt := by
  have hneg : [e.frame].filter (fun f => f.dir == CatDir.radio) = [] :=
    List.filter_cons_of_neg fun hb => hdir (beq_iff_eq.1 hb)
  unfold recordedAt
  rw [h, List.map_append, List.filter_append, List.map_singleton, hneg, List.append_nil]

/-- The decoder at `now`. -/
structure Timed (now : Nat) (y : Ybin) : Prop where
  orderly : Orderly y
  framers : ∀ src, (y.rx src).buf.length < YBIN_CMD_LEN
  times : (y.out.map fun e => e.frame.tMs).Pairwise (· ≤ ·)
  late : y.NoneAfter now
  last : ∀ p ∈ y.pend.head?, p.got ≠ 0 → p.tLast ≤ now ∧ (y.ans = [] → p.tLast = y.recordedAt)

theorem NoneAfter.mono (h : y.NoneAfter t) (hle : t ≤ t') : y.NoneAfter t' := fun e he => Nat.le_trans (h e he) hle

theorem NoneAfter.concat {e : Emit} (h : y.NoneAfter t) (hout : y'.out = y.out ++ [e]) (he : e.frame.tMs = t) :
    y'.NoneAfter t := by
  intro w hw
  rw [hout] at hw
  rcases List.mem_append.1 hw with hw | hw
  · exact h w hw
  · rw [List.mem_singleton.1 hw]
    exact Nat.le_of_eq he

theorem times_concat {e : Emit} (h : (y.out.map fun e => e.frame.tMs).Pairwise (· ≤ ·))
    (hl : y.NoneAfter e.frame.tMs)
    (hout : y'.out = y.out ++ [e]) : (y'.out.map fun e => e.frame.tMs).Pairwise (· ≤ ·) := by
  rw [hout, List.map_append, List.pairwise_append]
  refine ⟨h, List.pairwise_singleton .., fun a ha b hb => ?_⟩
  obtain ⟨w, hw, rfl⟩ := List.mem_map.1 ha
  rw [List.mem_singleton.1 hb]
  exact hl w hw

theorem Timed.mono (h : Timed now y) (hle : now ≤ t) : Timed t y :=
  ⟨h.orderly, h.framers, h.times, h.late.mono hle, fun p hp hg =>
    ⟨Nat.le_trans (h.last p hp hg).1 hle, (h.last p hp hg).2⟩⟩

/-- What the fresh decoder has: commands that are gone, and of the first one the pieces of its answer that are
frames. -/
def seen (y : Ybin) (tLast : Nat) : List YbinPending :=
  match y.pend with
  | [] => []
  | p :: ps => (if y.ans = [] then p else { p with got := p.got - y.ans.length, tLast := tLast }) :: ps

theorem seen_nil (h : y.ans = []) (tLast : Nat) : y.seen tLast = y.pend := by
  unfold seen
  cases y.pend with
  | nil => rfl
  | cons p ps => exact congrArg (· :: ps) (if_pos h)

theorem seen_cons (h : y.ans ≠ []) (hpend : y.pend = p :: ps) (tLast : Nat) :
    y.seen tLast = { p with got := p.got - y.ans.length, tLast := tLast } :: ps := by
  unfold seen
  rw [hpend]
  dsimp only
  rw [if_neg h]

def lagged (y : Ybin) (rx : Src → YbinRx) (hold : Nat → Nat) (dead : List YbinPending) (tLast : Nat) : Ybin :=
  { y with
    rx := rx
    hold := hold
    ans := []
    pend := dead ++ y.seen tLast }

structure Lag (now : Nat) (y : Ybin) (rx : Src → YbinRx) (dead : List YbinPending) (tLast : Nat) : Prop where
  framers : ∀ src, (rx src).buf = []
  gone : Gone y now y.pend dead
  before : ∀ p ∈ y.pend.head?, p.got ≠ 0 → Gone y p.tLast y.pend dead
  last : ∀ p ∈ y.pend.head?, y.ans ≠ [] → p.got ≠ y.ans.length → tLast = y.recordedAt

/-- The fresh decoder `r` after the trace of `y`. -/
def Follows (now : Nat) (y r : Ybin) : Prop := ∃ rx hold dead tLast, Lag now y rx dead tLast ∧
    r = y.lagged rx hold dead tLast

/-- Without bytes between the frames it's the same decoder. -/
theorem Follows.of_aside (hans : y.ans = []) (hrx : ∀ src, (rx src).buf = []) :
    Follows now y (y.aside rx hold) := by
  refine ⟨rx, hold, [], 0, ⟨hrx, trivial, fun _ _ _ => trivial, fun _ _ h => absurd hans h⟩, ?_⟩
  unfold lagged aside
  rw [seen_nil hans, List.nil_append, hans]

/-! ### A byte of the radio -/

/-- A frame of the radio. -/
structure RadioFrame (a : List UInt8) (t : Nat) (e : Emit) : Prop where
  dir : e.frame.dir = .radio
  buf : e.frame.buf = a
  tMs : e.frame.tMs = t

theorem refeed_radio {e : Emit} (h : RadioFrame a t e) (r : Ybin) :
    refeed r e = r.feed .radio e.frame.client a t := by
  unfold refeed
  rw [h.dir, h.buf, h.tMs]

/-- A byte that makes a frame. -/
theorem radioByte_frame (h : Orderly y) (hlive : ∀ p ∈ y.pend.head?, y.pendLive p t = true)
    (hframe : ∀ p ∈ y.pend.head?, p.got + 1 = p.len ∨ y.ans.length + 1 = YBIN_MAX_FRAME) (b : UInt8) :
    ∃ e, RadioFrame (y.ans ++ [b]) t e ∧ (y.radioByte b t).out = y.out ++ [e] ∧ (y.radioByte b t).ans = [] ∧
      (y.radioByte b t).rx = y.rx ∧ Orderly (y.radioByte b t) ∧
      ∀ p ∈ (y.radioByte b t).pend.head?, p.got ≠ 0 → p.tLast = t := by
  unfold radioByte
  rw [pendExpire_of_live hlive]
  dsimp only
  cases hpend : y.pend with
  | nil =>
    have hans : y.ans = [] := h.none hpend
    refine ⟨_, ⟨rfl, ?_, rfl⟩, rfl, hans, rfl, ?_, fun p hp => ?_⟩
    · rw [hans]
      rfl
    · exact .of_fresh (fun p hp => absurd (hpend ▸ hp) List.not_mem_nil) hans fun hne => absurd hpend hne
    · exact absurd (hpend ▸ hp : p ∈ ([] : List YbinPending).head?) (Option.not_mem_none p)
  | cons p ps =>
    have hvfo : y.st.vfoAb.valid = true := h.vfo (by rw [hpend]; exact List.cons_ne_nil p ps)
    have hlt : p.got < p.len := (h.head p (by rw [hpend]; rfl)).1
    have hrest : ∀ q ∈ ps, Fresh q := by
      have := h.rest
      rw [hpend] at this
      exact this
    unfold answerByte
    dsimp only
    rw [if_pos hvfo]
    by_cases hlen : p.got + 1 = p.len
    · obtain ⟨st, kind, applied, hv, heq⟩ := answerDone_eq
        { y with
          pend := { p with got := p.got + 1, tLast := t } :: ps
          ans := y.ans ++ [b] } { p with got := p.got + 1, tLast := t } true t
      have hne : ¬y.ans ++ [b] = [] := List.append_ne_nil_of_right_ne_nil _ (List.cons_ne_nil b [])
      rw [if_pos hlen, heq, if_neg hne]
      refine ⟨_, ⟨rfl, rfl, rfl⟩, rfl, rfl, rfl, .of_fresh (dueFrom_fresh hrest) rfl fun _ => hv hvfo,
        fun q hq hg => ?_⟩
      exact absurd (dueFrom_fresh hrest q (List.mem_of_mem_head? hq)).1 hg
    · have hmax : (y.ans ++ [b]).length = YBIN_MAX_FRAME := by
        rw [List.length_append]
        exact (hframe p (by rw [hpend]; rfl)).resolve_left hlen
      rw [if_neg hlen, if_pos hmax]
      refine ⟨_, ⟨rfl, rfl, rfl⟩, rfl, rfl, rfl, ⟨fun q hq => ?_, hrest, fun _ =>
        rfl, Nat.zero_lt_succ 79, fun _ => hvfo⟩,
        fun q hq _ => ?_⟩
      · rw [← Option.some.inj hq]
        dsimp only
        exact ⟨by omega, Nat.zero_le _⟩
      · rw [← Option.some.inj hq]

/-- The pieces of the answer since the last frame bring the fresh decoder up to date. -/
theorem Lag.answer (hL : Lag now y rx dead t') (hO : Orderly y) (hpend : y.pend = p :: ps) (hans : y.ans ≠ [])
    (hgone : Gone y t y.pend dead) (hseen : y.SeenLive t p) (hr : r.pend = dead ++ y.seen t') (hr0 : r.ans = [])
    (hst : r.st = y.st) (hpace : r.pacingMs = y.pacingMs) (client : Nat) :
    r.feed .radio client y.ans t = { r with
      pend := { p with tLast := t } :: ps
      ans := y.ans } := by
  obtain ⟨hlt, hle⟩ := hO.head p (by rw [hpend]; rfl)
  have hne : y.pend ≠ [] := by rw [hpend]; exact List.cons_ne_nil p ps
  have hgot : p.got - y.ans.length + y.ans.length = p.got := Nat.sub_add_cancel hle
  have hlive : r.pendLive { p with got := p.got - y.ans.length, tLast := t' } t = true := by
    rw [pendLive_congr hpace _ t, ← hseen]
    unfold pendLive
    by_cases h0 : p.got - y.ans.length = 0
    · rw [if_neg (not_not_intro h0), if_neg (not_not_intro h0)]
    · rw [if_pos h0, if_pos h0, hL.last p (by rw [hpend]; rfl) hans (by omega)]
  rw [seen_cons hans hpend] at hr
  rw [feed_answer hr hr0 ((hgone.behind hne).congr hpace) hlive (hst ▸ hO.vfo hne) hans (by dsimp only; omega) hO.ans]
  dsimp only
  rw [hgot]

theorem Lag.sync (hL : Lag now y rx dead t') (hO : Orderly y) (hpend : y.pend = p :: ps) (hans : y.ans ≠ [])
    (hgone : Gone y t y.pend dead) (hseen : y.SeenLive t p) (hold : Nat → Nat) (client : Nat) :
    (y.lagged rx hold dead t').feed .radio client y.ans t =
      ({ y with pend := { p with tLast := t } :: ps } : Ybin).aside rx hold :=
  hL.answer (r := y.lagged rx hold dead t') hO hpend hans hgone hseen rfl rfl rfl rfl client

theorem lagged_aside (hans : y.ans = []) (rx : Src → YbinRx) (hold : Nat → Nat) (dead : List YbinPending)
    (t' : Nat) :
    ({ y.lagged rx hold dead t' with pend := y.pend } : Ybin) = y.aside rx hold := by
  unfold lagged aside
  dsimp only
  rw [hans]

/-- Without bytes of an answer the fresh decoder only has commands that are gone. -/
theorem Lag.radioByte (hL : Lag now y rx dead t') (hans : y.ans = []) (hle : now ≤ t) (hold : Nat → Nat)
    (b : UInt8) :
    (y.lagged rx hold dead t').radioByte b t = (y.radioByte b t).aside rx hold := by
  have hpend : (y.lagged rx hold dead t').pend = dead ++ y.pend := congrArg (dead ++ ·) (seen_nil hans t')
  rw [radioByte_gone hpend rfl ((hL.gone.mono hle).congr rfl), ← radioByte_aside, lagged_aside hans]

/-- The time of the last byte of an answer counts for nothing when the next one comes. -/
theorem radioByte_touch (hpend : y.pend = p :: ps) (hgot : p.got ≠ 0) (hlive : y.pendLive p t = true)
    (hvfo : y.st.vfoAb.valid = true) (b : UInt8) :
    ({ y with pend := { p with tLast := t } :: ps } : Ybin).radioByte b t = y.radioByte b t := by
  have hlive' : ({ y with pend := { p with tLast := t } :: ps } : Ybin).pendLive { p with tLast := t } t =
    true := by
    unfold pendLive
    rw [if_pos hgot, decide_eq_true_eq]
    exact Nat.le_add_right ..
  unfold radioByte
  rw [pendExpire_cons hpend, if_pos hlive, pendExpire_cons rfl, if_pos hlive']
  dsimp only
  rw [hpend]
  unfold answerByte
  dsimp only
  rw [if_pos hvfo, if_pos hvfo]

/-- A step of the decoder: the frames it gives lead the fresh decoder along. -/
def Leads (now t : Nat) (y y' : Ybin) : Prop :=
  Timed t y' ∧ ∃ ws, y'.out = y.out ++ ws ∧ ∀ r, Follows now y r → Follows t y' (Replay.replay refeed r ws)

theorem Leads.trans (h : Leads now t y z) (h' : Leads t t' z y') : Leads now t' y y' := by
  obtain ⟨-, ws, hout, hr⟩ := h
  obtain ⟨ht, ws', hout', hr'⟩ := h'
  refine ⟨ht, ws ++ ws', ?_, fun r h => ?_⟩
  · rw [hout', hout, List.append_assoc]
  · rw [Replay.replay_append]
    exact hr' _ (hr r h)

/-- A byte of the radio that makes a frame. -/
theorem Timed.radioFrame (h : Timed now y) (hle : now ≤ t) (hlive : ∀ p ∈ y.pend.head?, y.pendLive p t = true)
    (hframe : ∀ p ∈ y.pend.head?, p.got + 1 = p.len ∨ y.ans.length + 1 = YBIN_MAX_FRAME)
    (hseen : ∀ p ∈ y.pend.head?, y.ans ≠ [] → y.SeenLive t p) (b : UInt8) : Leads now t y (y.radioByte b t) := by
  obtain ⟨e, he, hout, hans', hrx', ho', hlast'⟩ := radioByte_frame h.orderly hlive hframe b
  have hlate : y.NoneAfter t := h.late.mono hle
  refine ⟨⟨ho', ?_, ?_, hlate.concat hout he.tMs, fun p hp hg => ?_⟩, [e], hout, fun r hr => ?_⟩
  · rw [hrx']
    exact h.framers
  · exact times_concat h.times (he.tMs ▸ hlate) hout
  · rw [hlast' p hp hg, recordedAt_radio hout he.dir, he.tMs]
    exact ⟨Nat.le_refl t, fun _ => rfl⟩
  · obtain ⟨rx, hold, dead, t', hL, rfl⟩ := hr
    rw [Replay.replay_cons, Replay.replay_nil, refeed_radio he]
    by_cases hans : y.ans = []
    · rw [hans, List.nil_append, feed_radio, List.foldl_cons, List.foldl_nil, hL.radioByte hans hle]
      exact .of_aside hans' hL.framers
    · obtain ⟨p, ps, hpend⟩ := List.exists_cons_of_ne_nil (fun hnil => hans (h.orderly.none hnil))
      have hp : p ∈ y.pend.head? := by rw [hpend]; rfl
      have hgot : p.got ≠ 0 := by
        have hpos := List.length_pos_iff.2 hans
        have hlen := (h.orderly.head p hp).2
        omega
      have hsync := hL.sync h.orderly hpend hans (hL.gone.mono hle) (hseen p hp hans) hold e.frame.client
      rw [feed_radio] at hsync
      rw [feed_radio, List.foldl_append, hsync, List.foldl_cons, List.foldl_nil, radioByte_aside,
        radioByte_touch hpend hgot (hlive p hp) (h.orderly.vfo (by rw [hpend]; exact List.cons_ne_nil p ps))]
      exact .of_aside hans' hL.framers

theorem Leads.silent (h : Timed t y') (hout : y'.out = y.out) (hr : ∀ r, Follows now y r → Follows t y' r) :
    Leads now t y y' :=
  ⟨h, [], by rw [hout, List.append_nil], hr⟩

/-- A byte of the radio that makes none. -/
theorem Timed.radioPart (h : Timed now y) (hle : now ≤ t) (hpend : y.pend = p :: ps)
    (hlive : y.pendLive p t = true)
    (hlen : p.got + 1 ≠ p.len) (hmax : y.ans.length + 1 ≠ YBIN_MAX_FRAME) (b : UInt8) :
    Leads now t y (y.radioByte b t) := by
  have hp : p ∈ y.pend.head? := by rw [hpend]; rfl
  have hne : y.pend ≠ [] := by rw [hpend]; exact List.cons_ne_nil p ps
  have hans : ¬y.ans ++ [b] = [] := List.append_ne_nil_of_right_ne_nil _ (List.cons_ne_nil b [])
  obtain ⟨hlt, hleAns⟩ := h.orderly.head p hp
  have hrest : ∀ q ∈ ps, Fresh q := by
    have := h.orderly.rest
    rw [hpend] at this
    exact this
  have hcount := h.orderly.ans
  rw [radioByte_part hpend hlive (h.orderly.vfo hne) hlen hmax]
  refine .silent ⟨⟨fun q hq => ?_, hrest, fun hnil => absurd hnil (List.cons_ne_nil _ _), ?_, fun _ =>
    h.orderly.vfo hne⟩,
    h.framers, h.times, h.late.mono hle, fun q hq _ => ?_⟩ rfl fun r hr => ?_
  · rw [← Option.some.inj hq]
    dsimp only
    rw [List.length_append, List.length_singleton]
    omega
  · dsimp only
    rw [List.length_append, List.length_singleton]
    omega
  · rw [← Option.some.inj hq]
    exact ⟨Nat.le_refl t, fun hnil => absurd hnil hans⟩
  · obtain ⟨rx, hold, dead, t', hL, rfl⟩ := hr
    have hgone : Gone y t ({ p with got := p.got + 1, tLast := t } :: ps) dead := (hL.gone.mono hle).behind hne
    refine ⟨rx, hold, dead, if y.ans = [] then p.tLast else t', ⟨hL.framers, hgone.congr rfl, fun q hq _ => ?_,
      fun q hq _ hg => ?_⟩, ?_⟩
    · rw [← Option.some.inj hq]
      exact hgone.congr rfl
    · rw [← Option.some.inj hq] at hg
      dsimp only at hg
      rw [List.length_append, List.length_singleton] at hg
      split_ifs with hnil
      · exact (h.last p hp (by rw [hnil] at hg; intro h0; exact hg (congrArg (· + 1) h0))).2 hnil
      · exact hL.last p hp hnil fun heq => hg (congrArg (· + 1) heq)
    · have hseen : y.seen t' = (if y.ans = [] then p
          else { p with got := p.got - y.ans.length, tLast := t' }) :: ps := by
        unfold seen
        rw [hpend]
      unfold lagged
      rw [hseen, seen_cons (y := { y with pend := { p with got := p.got + 1, tLast := t } :: ps, ans := y.ans ++ [b] }) hans rfl]
      dsimp only
      rw [List.length_append, List.length_singleton, Nat.add_sub_add_right]
      split_ifs with hnil
      · rw [hnil]
        rfl
      · rfl

/-- Commands that are waited for no more make no frame. -/
theorem Timed.pendExpire (h : Timed now y) (hle : now ≤ t)
    (hcalm : ∀ p ∈ y.pend.head?, y.Stopped t p → y.ans = [] ∧ y.pend.tail = []) :
    Leads now t y (y.pendExpire t) := by
  rcases h.orderly.pendExpire_cases t with ⟨p, ps, hpend, hs, hexp⟩ | ⟨-, ds, l, hpend, hexp, -, hgone, hidle⟩
  · obtain ⟨hans, htail⟩ := hcalm p (by rw [hpend]; rfl) hs
    obtain rfl : ps = [] := by
      rw [hpend] at htail
      exact htail
    have hy : y.pendExpire t = { y with pend := [] } := by
      rw [hexp, answerDone_stopped, if_pos hans, answered, hpend, ← hans]
      rfl
    rw [hy]
    refine .silent ⟨.of_fresh (fun q hq => absurd hq List.not_mem_nil) hans fun hne => absurd rfl hne,
      h.framers, h.times,
      h.late.mono hle, fun q hq => absurd hq (Option.not_mem_none q)⟩ rfl fun r hr => ?_
    obtain ⟨rx, hold, dead, t', hL, rfl⟩ := hr
    have hgone : Gone y now ([p] ++ []) dead := by
      have := hL.gone
      rw [hpend] at this
      exact this
    refine ⟨rx, hold, dead ++ [p], t', ⟨hL.framers, ?_, fun q hq => absurd hq (Option.not_mem_none q),
      fun q hq => absurd hq (Option.not_mem_none q)⟩, ?_⟩
    · exact ((hgone.mono hle).append (List.cons_ne_nil p []) ⟨hs.2, .inr ⟨rfl, rfl⟩, trivial⟩).congr rfl
    · unfold lagged
      rw [seen_nil hans, hpend]
      dsimp only
      rw [List.append_assoc]
      rfl
  · by_cases hds : ds = []
    · have hy : y.pendExpire t = y := by
        rw [hexp, show l = y.pend by rw [hpend, hds, List.nil_append]]
      rw [hy]
      refine .silent (h.mono hle) rfl fun r hr => ?_
      obtain ⟨rx, hold, dead, t', hL, rfl⟩ := hr
      exact ⟨rx, hold, dead, t', ⟨hL.framers, hL.gone.mono hle, hL.before, hL.last⟩, rfl⟩
    · obtain ⟨hfresh, hans⟩ := hidle hds
      have hl : ∀ q ∈ l, Fresh q := fun q hq => hfresh q (by rw [hpend]; exact List.mem_append_right ds hq)
      have hvfo : y.st.vfoAb.valid = true := h.orderly.vfo (by rw [hpend]; exact List.append_ne_nil_of_left_ne_nil hds l)
      rw [hexp]
      refine .silent ⟨.of_fresh hl hans fun _ => hvfo, h.framers, h.times, h.late.mono hle,
        fun q hq hg => absurd (hl q (List.mem_of_mem_head? hq)).1 hg⟩ rfl fun r hr => ?_
      obtain ⟨rx, hold, dead, t', hL, rfl⟩ := hr
      have hgone' : Gone y now (ds ++ l) dead := hpend ▸ hL.gone
      refine ⟨rx, hold, dead ++ ds, t', ⟨hL.framers, ((hgone'.mono hle).append hds hgone).congr rfl,
        fun q hq hg => absurd (hl q (List.mem_of_mem_head? hq)).1 hg, fun _ _ hne => absurd hans hne⟩, ?_⟩
      unfold lagged
      rw [seen_nil hans, seen_nil (y := { y with pend := l }) hans, hpend, List.append_assoc]

/-- What an answer that ends leaves, and the frame it makes. -/
theorem Orderly.stopped (h : Orderly y) (hpend : y.pend = p :: ps) (t : Nat) :
    (y.answerDone p false t).pend = dueFrom t ps ∧ Resting (y.answerDone p false t) ∧
      (y.answerDone p false t).rx = y.rx ∧ (y.answerDone p false t).st = y.st ∧
      if y.ans = [] then (y.answerDone p false t).out = y.out
      else ∃ d, RadioFrame y.ans p.tLast d ∧ (y.answerDone p false t).out = y.out ++ [d] := by
  have hrest : ∀ q ∈ ps, Fresh q := by
    have := h.rest
    rw [hpend] at this
    exact this
  have hlist : (y.answerDone p false t).pend = dueFrom t ps := by
    rw [answerDone_pend, hpend]
    rfl
  refine ⟨hlist, ⟨fun q hq => ?_, ?_⟩, ?_, ?_, ?_⟩
  · rw [hlist] at hq
    exact dueFrom_fresh hrest q hq
  · rw [answerDone_stopped]
    split <;> rfl
  · rw [answerDone_stopped]
    split <;> rfl
  · rw [answerDone_stopped]
    split <;> rfl
  · rw [answerDone_stopped]
    by_cases hans : y.ans = []
    · rw [if_pos hans, if_pos hans]
      rfl
    · rw [if_neg hans, if_neg hans]
      exact ⟨_, ⟨rfl, rfl, rfl⟩, rfl⟩

/-- A byte of the radio after an answer stopped. -/
theorem Timed.radioStop (h : Timed now y) (hle : now ≤ t) (hpend : y.pend = p :: ps) (hs : y.Stopped t p)
    (hok : y.ans ≠ [] → y.StopOk p) (hnext : ∀ q ∈ ps.head?, q.len = 1) (b : UInt8) :
    Leads now t y (y.radioByte b t) := by
  have hp : p ∈ y.pend.head? := by rw [hpend]; rfl
  have hne : y.pend ≠ [] := by rw [hpend]; exact List.cons_ne_nil p ps
  have hvfo := h.orderly.vfo hne
  have hrest : ∀ q ∈ ps, Fresh q := by
    have := h.orderly.rest
    rw [hpend] at this
    exact this
  obtain ⟨hlist, hidle, hrx, hst, hframe⟩ := h.orderly.stopped hpend t
  have hbyte : y.radioByte b t = (y.answerDone p false t).radioByte b t := by
    have hlive : ∀ q ∈ (y.answerDone p false t).pend.head?, (y.answerDone p false t).pendLive q t = true := by
      rw [hlist]
      exact dueFrom_live hrest
    unfold Ybin.radioByte
    rw [h.orderly.pendExpire_stopped hpend hs, pendExpire_of_live hlive]
  have hone : ∀ q ∈ (y.answerDone p false t).pend.head?, q.got + 1 = q.len := by
    intro q hq
    rw [hlist] at hq
    have hgot : q.got = 0 := (dueFrom_fresh hrest q (List.mem_of_mem_head? hq)).1
    have hlen : q.len = 1 := by
      cases ps with
      | nil => exact absurd hq (Option.not_mem_none q)
      | cons q' ps =>
        rw [← hnext q' rfl, ← Option.some.inj hq]
        split_ifs <;> rfl
    rw [hgot, hlen]
  obtain ⟨e, he, hout, hans', hrx', ho', hlast'⟩ := radioByte_frame (y := y.answerDone p false t) (t := t)
    (.of_fresh hidle.1 hidle.2 fun _ => hst ▸ hvfo) (by rw [hlist]; exact dueFrom_live hrest)
    (fun q hq => .inl (hone q hq)) b
  rw [hidle.2, List.nil_append] at he
  have hlate : y.NoneAfter t := h.late.mono hle
  have hfr : ∀ src, ((y.radioByte b t).rx src).buf.length < YBIN_CMD_LEN := by
    rw [hbyte, hrx', hrx]
    exact h.framers
  rw [← hbyte] at hout hans' ho' hlast'
  have hlast : ∀ q ∈ (y.radioByte b t).pend.head?, q.got ≠ 0 →
      q.tLast ≤ t ∧ ((y.radioByte b t).ans = [] → q.tLast = (y.radioByte b t).recordedAt) := by
    intro q hq hg
    rw [hlast' q hq hg, recordedAt_radio hout he.dir, he.tMs]
    exact ⟨Nat.le_refl t, fun _ => rfl⟩
  by_cases hans : y.ans = []
  · rw [if_pos hans] at hframe
    rw [hframe] at hout
    refine ⟨⟨ho', hfr, times_concat h.times (he.tMs ▸ hlate) hout, hlate.concat hout he.tMs, hlast⟩, [e], hout,
      fun r hr => ?_⟩
    obtain ⟨rx, hold, dead, t', hL, rfl⟩ := hr
    rw [Replay.replay_cons, Replay.replay_nil, refeed_radio he, feed_radio, List.foldl_cons, List.foldl_nil,
      hL.radioByte hans hle]
    exact .of_aside hans' hL.framers
  · rw [if_neg hans] at hframe
    obtain ⟨d, hd, hdout⟩ := hframe
    obtain ⟨hnone, hseen⟩ := hok hans
    have hlast_le : p.tLast ≤ t := Nat.le_trans (h.last p hp hs.1).1 hle
    have htimes := times_concat h.times (by rw [hd.tMs]; exact hnone) hdout
    have hlate' : (y.answerDone p false t).NoneAfter t := (hnone.concat hdout hd.tMs).mono hlast_le
    refine ⟨⟨ho', hfr, times_concat htimes (he.tMs ▸ hlate') hout, hlate'.concat hout he.tMs, hlast⟩, [d, e],
      ?_, fun r hr => ?_⟩
    · rw [hout, hdout, List.append_assoc]
      rfl
    · obtain ⟨rx, hold, dead, t', hL, rfl⟩ := hr
      have hself : ({ y with pend := { p with tLast := p.tLast } :: ps } : Ybin) = y := by
        rw [show { p with tLast := p.tLast } = p from rfl, ← hpend]
      rw [Replay.replay_cons, Replay.replay_cons, Replay.replay_nil, refeed_radio hd,
        hL.sync h.orderly hpend hans (hL.before p hp hs.1) hseen, hself, refeed_radio he, feed_radio,
        List.foldl_cons,
        List.foldl_nil, radioByte_aside]
      exact .of_aside hans' hL.framers

/-- A byte of the radio. -/
theorem Timed.radioByte (h : Timed now y) (hle : now ≤ t) (hok : y.RadioOk t) (b : UInt8) :
    Leads now t y (y.radioByte b t) := by
  rcases h.orderly.pendExpire_cases t with ⟨p, ps, hpend, hs, -⟩ | ⟨hcalm, ds, l, hpend, hexp, hlive, -, hidle⟩
  · obtain ⟨hstop, -⟩ := hok p (by rw [hpend]; rfl)
    obtain ⟨hend, hnext⟩ := hstop hs
    rw [hpend] at hnext
    exact h.radioStop hle hpend hs hend hnext b
  · have hfirst := h.pendExpire hle fun p hp hs => absurd hs (hcalm p hp)
    have hseen : ∀ p ∈ l.head?, y.ans ≠ [] → p.got + 1 = p.len ∨ y.ans.length + 1 = YBIN_MAX_FRAME →
      y.SeenLive t p := by
      intro p hp hans
      have hds : ds = [] := by_contra fun hne => hans (hidle hne).2
      have hp' : p ∈ y.pend.head? := by
        rw [hpend, hds]
        exact hp
      exact (hok p hp').2 (hcalm p hp') hans
    rw [hexp] at hfirst
    have hbyte : y.radioByte b t = ({ y with pend := l } : Ybin).radioByte b t := by
      unfold Ybin.radioByte
      rw [hexp, pendExpire_of_live (y := { y with pend := l }) hlive]
    rw [hbyte]
    refine hfirst.trans ?_
    by_cases hframe : ∀ p ∈ l.head?, p.got + 1 = p.len ∨ y.ans.length + 1 = YBIN_MAX_FRAME
    · exact hfirst.1.radioFrame (Nat.le_refl t) hlive hframe (fun p hp hans => hseen p hp hans (hframe p hp)) b
    · push Not at hframe
      obtain ⟨p, hp, hlen, hmax⟩ := hframe
      obtain ⟨ps, rfl⟩ : ∃ ps, l = p :: ps := by
        cases l with
        | nil => exact absurd hp (Option.not_mem_none p)
        | cons q ps => exact ⟨ps, congrArg (· :: ps) (Option.some.inj hp)⟩
      exact hfirst.1.radioPart (Nat.le_refl t) rfl (hlive p rfl) hlen hmax b

/-! ### A command -/

/-- `y'` is `y` with other commands, none of them with bytes. -/
def Calm (y y' : Ybin) : Prop := Resting y' ∧ y'.out = y.out ∧ y'.rx = y.rx ∧ y'.st = y.st

theorem Calm.of_pend (h : Resting y) {l : List YbinPending} (hl : ∀ p ∈ l, Fresh p) :
    Calm y { y with pend := l } :=
  ⟨⟨hl, h.2⟩, rfl, rfl, rfl⟩

theorem Calm.trans (h : Calm y z) (h' : Calm z y') : Calm y y' :=
  ⟨h'.1, h'.2.1.trans h.2.1, h'.2.2.1.trans h.2.2.1, h'.2.2.2.trans h.2.2.2⟩

theorem Resting.calm_expire (h : Resting y) (t : Nat) : Calm y (y.pendExpire t) := by
  obtain ⟨ds, l, hpend, hexp, -, -⟩ := h.pendExpire t
  rw [hexp]
  exact .of_pend h fun p hp => h.1 p (by rw [hpend]; exact List.mem_append_right ds hp)

theorem Resting.calm_giveupLoop (h : Resting y) (t n : Nat) : Calm y (giveupLoop t n y) := by
  induction n generalizing y with
  | zero => exact ⟨h, rfl, rfl, rfl⟩
  | succ n ih =>
    unfold giveupLoop
    cases hl : y.pend with
    | nil => exact ⟨h, rfl, rfl, rfl⟩
    | cons p ps =>
      have hrem : Calm y (y.pendRemove 0) :=
        ⟨⟨fun q hq => h.1 q ((List.eraseIdx_sublist ..).subset hq), rfl⟩, rfl, rfl, rfl⟩
      dsimp only
      split_ifs
      · exact hrem.trans (ih hrem.1)
      · exact ⟨h, rfl, rfl, rfl⟩

theorem Resting.calm_paced (h : Resting y) (c : List UInt8) : Calm y (y.paced c) := by
  unfold paced
  split_ifs
  · exact ⟨h, rfl, rfl, rfl⟩
  · exact ⟨h, rfl, rfl, rfl⟩

theorem Resting.calm_room (h : Resting y) (t : Nat) : Calm y (y.pendRoom t) := by
  unfold pendRoom
  cases hl : y.pend with
  | nil => exact ⟨h, rfl, rfl, rfl⟩
  | cons p ps =>
    have hgot : p.got = 0 := (h.1 p (by rw [hl]; exact List.mem_cons_self)).1
    dsimp only
    rw [pendEnd, if_neg (not_not_intro hgot)]
    split_ifs
    · exact ⟨⟨fun q hq => h.1 q ((List.eraseIdx_sublist ..).subset hq), rfl⟩, rfl, rfl, rfl⟩
    · exact ⟨h, rfl, rfl, rfl⟩

/-- The new command is put behind what `pend_add` leaves, or the line is kept. -/
def put (y : Ybin) (c : List UInt8) (len : Nat × Bool) (own : Bool) (client t : Nat) : Ybin :=
  if len.1 ≠ 0 then { y with pend := y.pend ++ [⟨c, len.1, len.2, own, client, 0, t, t⟩] } else y.kept own client t

theorem Resting.calm_put (h : Resting y) (c : List UInt8) (len : Nat × Bool) (own : Bool) (client t : Nat) :
    Calm y (y.put c len own client t) := by
  unfold put
  split_ifs with hlen
  · refine .of_pend h fun p hp => ?_
    rcases List.mem_append.1 hp with hp | hp
    · exact h.1 p hp
    · rw [List.mem_singleton.1 hp]
      exact ⟨rfl, hlen⟩
  · exact ⟨h, rfl, rfl, rfl⟩

/-- Room is made only for a command with an answer. -/
theorem taken_put (y : Ybin) (c : List UInt8) (own : Bool) (client t : Nat) : y.taken c own client t =
    (if (answerLen y.model c).1 ≠ 0 then (y.ready c t).pendRoom t else y.ready c t).put c (answerLen y.model c) own client t := by
  unfold taken put
  split_ifs <;> rfl

theorem Resting.calm_taken (h : Resting (y.ready c t)) (own : Bool) (client : Nat) :
    Calm (y.ready c t) (y.taken c own client t) := by
  have hroom : Calm (y.ready c t) (if (answerLen y.model c).1 ≠ 0 then (y.ready c t).pendRoom t else y.ready c t) := by
    split_ifs
    · exact h.calm_room t
    · exact ⟨h, rfl, rfl, rfl⟩
  rw [taken_put]
  exact hroom.trans (hroom.1.calm_put ..)

/-- What's left of an answer that is still coming in when a command comes: all. -/
theorem ready_live (hpend : y.pend = p :: ps) (hlive : y.pendLive p t = true) (hvfo : y.st.vfoAb.valid = true)
    (hgive : p.got = 0 → t ≤ p.tMs + GIVEUP_MS) (c : List UInt8) : y.ready c t = y.paced c := by
  have hfirst : ∀ {q}, q ∈ y.pend.head? → p = q := by
    intro q hq
    rw [hpend] at hq
    exact Option.some.inj hq
  unfold ready
  rw [if_pos hvfo, pendExpire_of_live fun q hq => hfirst hq ▸ hlive, pendGiveup_of_fresh fun q hq =>
    hfirst hq ▸ hgive]

/-- A frame of a command. -/
structure CommandFrame (dir : CatDir) (client : Nat) (c : List UInt8) (t : Nat) (e : Emit) : Prop where
  dir : e.frame.dir = dir
  client : e.frame.client = client
  buf : e.frame.buf = c
  tMs : e.frame.tMs = t

theorem refeed_command {e : Emit} (h : CommandFrame dir client c t e) (r : Ybin) :
    refeed r e = r.feed dir client c t := by
  unfold refeed
  rw [h.dir, h.client, h.buf, h.tMs]

theorem feed_host (hsrc : Src.of dir client = some src) (hs : src ≠ .radio) (buf : List UInt8) (y : Ybin)
    (t : Nat) :
    y.feed dir client buf t =
      buf.foldl (fun y b => y.hostByte dir (if dir = .host then client else 0) src b t) y := by
  unfold feed
  rw [hsrc]
  cases src with
  | radio => exact absurd rfl hs
  | _ => rfl

/-- A whole command is its last byte after four others. -/
theorem command_concat {c : List UInt8} (hc : c.length = YBIN_CMD_LEN) :
    ∃ (a : List UInt8) (b : UInt8), c = a ++ [b] ∧ a.length = 4 := by
  rcases List.eq_nil_or_concat c with rfl | ⟨a, b, rfl⟩
  · exact absurd hc (by decide)
  · rw [List.length_concat] at hc
    exact ⟨a, b, List.concat_eq_append, Nat.succ.inj hc⟩

/-- A whole command. -/
theorem hostBytes_command (hc : c.length = YBIN_CMD_LEN) (hbuf : ((y.rxExpire dir client src t).rx src).buf = []) :
    c.foldl (fun y b => y.hostByte dir client src b t) y =
      ((y.rxExpire dir client src t).setRx src ⟨[], t⟩).command dir client c t := by
  obtain ⟨a, b, rfl, hlen⟩ := command_concat hc
  have ha : a ≠ [] := List.ne_nil_of_length_eq_add_one hlen
  rw [List.foldl_append, hostBytes_part ha (by rw [hbuf, hlen]; decide), hbuf, List.nil_append, List.foldl_cons,
    List.foldl_nil, hostByte_last]
  · rw [rxExpire_now, setRx_rx]
    unfold setRx
    dsimp only
    rw [Function.update_idem]
  · rw [rxExpire_now, setRx_rx, hlen]
    rfl

/-- An answer that is coming in stays: the radio isn't given up and there is room. -/
def Stays (y : Ybin) (c : List UInt8) (t : Nat) (p : YbinPending) : Prop :=
  y.pendLive p t = true ∧ (p.got = 0 → t ≤ p.tMs + GIVEUP_MS) ∧
    ¬((answerLen y.model c).1 ≠ 0 ∧ y.pend.length = PEND_MAX)

theorem taken_stays (hpend : y.pend = p :: ps) (hvfo : y.st.vfoAb.valid = true) (h : y.Stays c t p) (own : Bool)
    (client : Nat) :
    y.taken c own client t = (y.paced c).put c (answerLen y.model c) own client t := by
  obtain ⟨hlive, hgive, hroom⟩ := h
  have hpaced : (y.paced c).pend = y.pend := by
    unfold paced
    split_ifs <;> rfl
  rw [taken_put, ready_live hpend hlive hvfo hgive]
  by_cases hlen : (answerLen y.model c).1 ≠ 0
  · have hkeep : (y.paced c).pendRoom t = y.paced c := by
      unfold pendRoom
      rw [hpaced, hpend]
      dsimp only
      rw [← hpend, if_neg fun h => hroom ⟨hlen, h⟩]
    rw [if_pos hlen, hkeep]
  · rw [if_neg hlen]

/-- What `put` puts. -/
def added (c : List UInt8) (len : Nat × Bool) (own : Bool) (client t : Nat) : List YbinPending :=
  if len.1 ≠ 0 then [⟨c, len.1, len.2, own, client, 0, t, t⟩] else []

theorem added_fresh (c : List UInt8) (len : Nat × Bool) (own : Bool) (client t : Nat) :
    ∀ q ∈ added c len own client t, Fresh q := by
  intro q hq
  unfold added at hq
  split_ifs at hq with hlen
  · rw [List.mem_singleton.1 hq]
    exact ⟨rfl, hlen⟩
  · exact absurd hq List.not_mem_nil

theorem put_eq (y : Ybin) (c : List UInt8) (len : Nat × Bool) (own : Bool) (client t : Nat) :
    ∃ hold, y.put c len own client t = { y with pend := y.pend ++ added c len own client t, hold := hold } := by
  unfold put added
  split_ifs
  · exact ⟨_, rfl⟩
  · refine ⟨(y.kept own client t).hold, ?_⟩
    rw [List.append_nil]
    rfl

theorem paced_eq (y : Ybin) (c : List UInt8) :
    y.paced c = { y with pacingMs := if cmdOp c = 0x0e ∧ hasPacing y.model then cmdU c else y.pacingMs } := by
  unfold paced
  split_ifs <;> rfl

/-- The command behind the others. -/
def behind (y : Ybin) (c : List UInt8) (own : Bool) (client t : Nat) (hold : Nat → Nat) : Ybin :=
  { y with
    pend := y.pend ++ added c (answerLen y.model c) own client t
    hold := hold
    pacingMs := if cmdOp c = 0x0e ∧ hasPacing y.model then cmdU c else y.pacingMs }

theorem taken_behind (hpend : y.pend = p :: ps) (hvfo : y.st.vfoAb.valid = true) (h : y.Stays c t p)
    (own : Bool) (client : Nat) :
    ∃ hold, y.taken c own client t = y.behind c own client t hold := by
  obtain ⟨hold, hput⟩ := put_eq (y.paced c) c (answerLen y.model c) own client t
  refine ⟨hold, ?_⟩
  rw [taken_stays hpend hvfo h, hput, paced_eq]
  rfl

/-- The fresh decoder takes the command as well while both wait for the answer. -/
theorem command_lagged (hpend : y.pend = p :: ps) (hvfo : y.st.vfoAb.valid = true) (h : y.Stays c t p)
    (h' : y.Stays c t q) (dir : CatDir) (client : Nat) (rx : Src → YbinRx) (hold : Nat → Nat) :
    ∃ hold', ({ y with rx := rx, hold := hold, ans := [], pend := q :: ps } : Ybin).command dir client c t =
      { y.command dir client c t with
        rx := rx
        hold := hold'
        ans := []
        pend := q :: ps ++ added c (answerLen y.model c) (dir == .own) client t } := by
  have hw : ({ y with rx := rx, hold := hold, ans := [], pend := q :: ps } : Ybin).Stays c t q := by
    obtain ⟨hlive, hgive, hroom⟩ := h'
    rw [hpend] at hroom
    exact ⟨hlive, hgive, hroom⟩
  obtain ⟨h1, heq⟩ := taken_behind hpend hvfo h (dir == .own) client
  obtain ⟨h2, heq'⟩ := taken_behind (y := { y with rx := rx, hold := hold, ans := [], pend := q :: ps }) rfl hvfo hw
    (dir == .own) client
  have happly := (blind_applyCommand (t := t) c).noted (noted_applyCommand c)
    (y := y.behind c (dir == .own) client t h1)
    (z := ({ y with rx := rx, hold := hold, ans := [], pend := q :: ps } : Ybin).behind c (dir == .own) client t h2) rfl rfl
  obtain ⟨st, hst, -⟩ := noted_applyCommand (t := t) c (y := y.behind c (dir == .own) client t h1)
  refine ⟨h2, ?_⟩
  rw [command_applied, command_applied, heq, heq', happly, hst]
  rfl

theorem Calm.vfo (h : Calm y y') (hv : y.st.vfoAb.valid = true) : y'.st.vfoAb.valid = true := by
  rw [h.2.2.2]
  exact hv

/-- No answer stays: what there is of one is a frame before the command. -/
theorem Orderly.taken_ends (h : Orderly y) (hnot : ∀ p ∈ y.pend.head?, p.got ≠ 0 → ¬y.Stays c t p) (own : Bool)
    (client : Nat) :
    Resting (y.taken c own client t) ∧ (y.taken c own client t).rx = y.rx ∧
      (y.taken c own client t).st.vfoAb.valid = true ∧
      if y.ans = [] then (y.taken c own client t).out = y.out
      else ∃ p ps d, y.pend = p :: ps ∧ p.got ≠ 0 ∧ RadioFrame y.ans p.tLast d ∧
        (y.taken c own client t).out = y.out ++ [d] := by
  by_cases h0 : ∀ p ∈ y.pend.head?, p.got = 0
  · have hidle := h.resting h0
    obtain ⟨z, hz, hcalm, hv⟩ : ∃ z, z = (if y.st.vfoAb.valid then y else y.selectVfo false t) ∧
        (Resting z ∧ z.out = y.out ∧ z.rx = y.rx) ∧ z.st.vfoAb.valid = true := by
      refine ⟨_, rfl, ?_⟩
      split_ifs with hv
      · exact ⟨⟨hidle, rfl, rfl⟩, hv⟩
      · exact ⟨⟨hidle, rfl, rfl⟩, rfl⟩
    obtain ⟨hi, hout, hrx⟩ := hcalm
    have hready : Calm z (y.ready c t) := by
      have h1 := hi.calm_expire t
      have h2 := h1.1.calm_giveupLoop t (z.pendExpire t).pend.length
      unfold ready
      rw [← hz]
      exact (h1.trans h2).trans (h2.1.calm_paced c)
    have hall := hready.trans (hready.1.calm_taken own client)
    rw [if_pos hidle.2]
    exact ⟨hall.1, hall.2.2.1.trans hrx, hall.vfo hv, hall.2.1.trans hout⟩
  · push Not at h0
    obtain ⟨p, hp, hgot⟩ := h0
    obtain ⟨ps, hpend⟩ := List.head?_eq_some_iff.1 hp
    have hvfo : y.st.vfoAb.valid = true := h.vfo (by rw [hpend]; exact List.cons_ne_nil p ps)
    obtain ⟨w, hidle, hrx, hst, hout, hall⟩ : ∃ w : Ybin, Resting w ∧ w.rx = y.rx ∧ w.st = y.st ∧
        (if y.ans = [] then w.out = y.out else ∃ d, RadioFrame y.ans p.tLast d ∧ w.out = y.out ++ [d]) ∧
        Calm w (y.taken c own client t) := by
      by_cases hlive : y.pendLive p t = true
      · have hfull : (answerLen y.model c).1 ≠ 0 ∧ y.pend.length = PEND_MAX := by
          by_contra hroom
          exact hnot p hp hgot ⟨hlive, fun h0 => absurd h0 hgot, hroom⟩
        have ho : Orderly (y.paced c) := by
          rw [paced_eq]
          exact ⟨h.head, h.rest, h.none, h.ans, h.vfo⟩
        have hpp : (y.paced c).pend = p :: ps := by
          rw [paced_eq]
          exact hpend
        have hend : (y.paced c).pendRoom t = (y.paced c).answerDone p false t := by
          unfold pendRoom
          rw [hpp]
          dsimp only
          rw [← hpend, if_pos hfull.2, pendEnd, if_pos hgot]
        obtain ⟨-, hidle, hrx, hst, hframe⟩ := ho.stopped hpp t
        have hsame : (y.paced c).rx = y.rx ∧ (y.paced c).st = y.st ∧ (y.paced c).ans = y.ans ∧
          (y.paced c).out = y.out := by
          rw [paced_eq]
          exact ⟨rfl, rfl, rfl, rfl⟩
        refine ⟨(y.paced c).answerDone p false t, hidle, hrx.trans hsame.1, hst.trans hsame.2.1, ?_, ?_⟩
        · rw [hsame.2.2.1, hsame.2.2.2] at hframe
          exact hframe
        · rw [taken_put, ready_live hpend hlive hvfo (fun h0 => absurd h0 hgot), if_pos hfull.1, hend]
          exact hidle.calm_put ..
      · obtain ⟨-, hidle, hrx, hst, hframe⟩ := h.stopped hpend t
        have hexp := h.pendExpire_stopped hpend ⟨hgot, Bool.eq_false_iff.2 hlive⟩
        refine ⟨y.answerDone p false t, hidle, hrx, hst, hframe, ?_⟩
        have hready : Calm (y.answerDone p false t) (y.ready c t) := by
          have h1 := hidle.calm_giveupLoop t (y.answerDone p false t).pend.length
          unfold ready
          rw [if_pos hvfo, hexp]
          exact h1.trans (h1.1.calm_paced c)
        exact hready.trans (hready.1.calm_taken own client)
    refine ⟨hall.1, hall.2.2.1.trans hrx, hall.vfo (by rw [hst]; exact hvfo), ?_⟩
    split_ifs at hout ⊢
    · exact hall.2.1.trans hout
    · obtain ⟨d, hd, hdout⟩ := hout
      exact ⟨p, ps, d, hpend, hgot, hd, hall.2.1.trans hdout⟩

theorem command_frame (y : Ybin) (dir : CatDir) (client : Nat) (c : List UInt8) (t : Nat) :
    ∃ e st, CommandFrame dir client c t e ∧ (y.command dir client c t) =
      { y.taken c (dir == .own) client t with st := st, out := (y.taken c (dir == .own) client t).out ++ [e] } ∧
      ((y.taken c (dir == .own) client t).st.vfoAb.valid = true → st.vfoAb.valid = true) := by
  obtain ⟨st, hst, hv⟩ := noted_applyCommand (y := y.taken c (dir == .own) client t) (t := t) c
  rw [command_applied, hst]
  exact ⟨_, st, ⟨rfl, rfl, rfl, rfl⟩, rfl, hv⟩

/-- `rxExpire` has no part in the commands and their answers. -/
theorem rxExpire_with (r : Ybin) (dir : CatDir) (client : Nat) (src : Src) (t : Nat) (l : List YbinPending)
    (a : List UInt8) :
    ({ r with pend := l, ans := a } : Ybin).rxExpire dir client src t =
      { r.rxExpire dir client src t with pend := l, ans := a } := by
  unfold rxExpire
  dsimp only
  split_ifs <;> rfl

theorem rxExpire_fields (r : Ybin) (dir : CatDir) (client : Nat) (src : Src) (t : Nat) :
    (r.rxExpire dir client src t).pend = r.pend ∧ (r.rxExpire dir client src t).ans = r.ans ∧
      (r.rxExpire dir client src t).st = r.st ∧ (r.rxExpire dir client src t).pacingMs = r.pacingMs := by
  unfold rxExpire
  dsimp only
  split_ifs
  · exact ⟨rfl, rfl, rfl, rfl⟩
  · exact ⟨rfl, rfl, rfl, rfl⟩

/-- A command that's fed to the fresh decoder, which may have a part of one to drop. -/
theorem refeed_host {e : Emit} (hsrc : Src.of dir client = some src) (hs : src ≠ .radio)
    (hcl : (if dir = .host then client else 0) = client) (hc : c.length = YBIN_CMD_LEN)
    (he : CommandFrame dir client c t e)
    (hr : r.rxExpire dir client src t = z) (hrx : (z.rx src).buf = []) :
    refeed r e = (z.setRx src ⟨[], t⟩).command dir client c t := by
  rw [refeed_command he, feed_host hsrc hs, hcl, hostBytes_command hc, hr]
  rw [hr]
  exact hrx

/-- Without bytes of an answer the fresh decoder only has commands that are gone. -/
theorem Lag.command (hL : Lag now y rx dead t') (hans : y.ans = []) (hle : now ≤ t) (hold : Nat → Nat)
    (dir : CatDir)
    (client : Nat) (c : List UInt8) :
    ∃ hold', (y.lagged rx hold dead t').command dir client c t = (y.command dir client c t).aside rx hold' := by
  have hpend : (y.lagged rx hold dead t').pend = dead ++ y.pend := congrArg (dead ++ ·) (seen_nil hans t')
  rw [command_gone hpend rfl ((hL.gone.mono hle).congr rfl), lagged_aside hans]
  exact command_aside

theorem framers_update (hrx : ∀ src, (rx src).buf = []) (src : Src) (t : Nat) :
    ∀ s, (Function.update rx src ⟨[], t⟩ s).buf = [] := by
  intro s
  by_cases h : s = src
  · rw [h, Function.update_self]
  · rw [Function.update_of_ne h]
    exact hrx s

/-- A command when no bytes of an answer are there. -/
theorem Follows.command {e : Emit} (hr : Follows now y (r.rxExpire dir client src t)) (hle : now ≤ t)
    (hsrc : Src.of dir client = some src) (hs : src ≠ .radio) (hcl : (if dir = .host then client else 0) = client)
    (hc : c.length = YBIN_CMD_LEN) (he : CommandFrame dir client c t e) (hans : y.ans = [])
    (hans' : (y.command dir client c t).ans = []) :
    Follows t (y.command dir client c t) (Replay.replay refeed r [e]) := by
  obtain ⟨rx, hold, dead, t', hL, hr⟩ := hr
  have hL' : Lag now y (Function.update rx src ⟨[], t⟩) dead t' :=
    ⟨framers_update hL.framers src t, hL.gone, hL.before, hL.last⟩
  obtain ⟨hold', hfeed⟩ := hL'.command hans hle hold dir client c
  rw [Replay.replay_cons, Replay.replay_nil, refeed_host hsrc hs hcl hc he hr (hL.framers src)]
  show Follows t _ ((y.lagged (Function.update rx src ⟨[], t⟩) hold dead t').command dir client c t)
  rw [hfeed]
  exact .of_aside hans' hL'.framers

/-- A command goes behind an answer that stays. -/
theorem Timed.command_behind (h : Timed now y) (hle : now ≤ t) (hok : y.CommandOk c t)
    (hsrc : Src.of dir client = some src) (hs : src ≠ .radio) (hcl : (if dir = .host then client else 0) = client)
    (hc : c.length = YBIN_CMD_LEN) (hpend : y.pend = p :: ps) (hgot : p.got ≠ 0) (hstay : y.Stays c t p) :
    Timed t (y.command dir client c t) ∧ ∃ ws, (y.command dir client c t).out = y.out ++ ws ∧
      ∀ r, Follows now y (r.rxExpire dir client src t) → Follows t (y.command dir client c t)
      (Replay.replay refeed r ws) := by
  have hdir : dir ≠ .radio := by
    rintro rfl
    exact hs (Option.some.inj hsrc).symm
  have hlate : y.NoneAfter t := h.late.mono hle
  obtain ⟨e, st, he, hcmd, hv⟩ := command_frame y dir client c t
  have hp : p ∈ y.pend.head? := by rw [hpend]; rfl
  have hne : y.pend ≠ [] := by rw [hpend]; exact List.cons_ne_nil p ps
  have hvfo := h.orderly.vfo hne
  obtain ⟨hold₀, htaken⟩ := taken_behind hpend hvfo hstay (dir == .own) client
  rw [htaken] at hcmd hv
  have hpend' : (y.command dir client c t).pend = p :: (ps ++
    added c (answerLen y.model c) (dir == .own) client t) := by
    rw [hcmd]
    show y.pend ++ _ = _
    rw [hpend]
    rfl
  have hans' : (y.command dir client c t).ans = y.ans := by rw [hcmd]; rfl
  have hout : (y.command dir client c t).out = y.out ++ [e] := by rw [hcmd]; rfl
  have hst : (y.command dir client c t).st.vfoAb.valid = true := by rw [hcmd]; exact hv hvfo
  refine ⟨⟨⟨fun q hq => ?_, fun q hq => ?_, fun hnil => ?_, ?_, fun _ => hst⟩, ?_, ?_, ?_, fun q hq hg => ?_⟩,
    [e], hout,
    fun r hr => ?_⟩
  · rw [hpend'] at hq
    rw [hans', ← Option.some.inj hq]
    exact h.orderly.head p hp
  · rw [hpend'] at hq
    rcases List.mem_append.1 hq with hq | hq
    · exact h.orderly.rest q (by rw [hpend]; exact hq)
    · exact added_fresh _ _ _ _ _ q hq
  · rw [hpend'] at hnil
    exact absurd hnil (List.cons_ne_nil _ _)
  · rw [hans']
    exact h.orderly.ans
  · rw [hcmd]
    exact h.framers
  · exact times_concat h.times (he.tMs ▸ hlate) hout
  · exact hlate.concat hout he.tMs
  · rw [hpend'] at hq
    rw [hans', recordedAt_other hout (he.dir ▸ hdir), ← Option.some.inj hq]
    exact ⟨Nat.le_trans (h.last p hp hgot).1 hle, (h.last p hp hgot).2⟩
  · by_cases hans : y.ans = []
    · exact hr.command hle hsrc hs hcl hc he hans (hans'.trans hans)
    · obtain ⟨rx, hold, dead, t', hL, hr⟩ := hr
      obtain ⟨hlive, -, hroom⟩ := id hstay
      have hnot : ¬(y.pendLive p t = false ∨ (answerLen y.model c).1 ≠ 0 ∧ y.pend.length = PEND_MAX) := by
        rintro (hf | hf)
        · rw [hlive] at hf
          exact Bool.noConfusion hf
        · exact hroom hf
      have hseen := hok p hp hans
      rw [if_neg hnot] at hseen
      obtain ⟨hlt, hleAns⟩ := h.orderly.head p hp
      have hstay' : y.Stays c t { p with got := p.got - y.ans.length, tLast := t' } := by
        refine ⟨?_, fun h0 => hseen.2 (by dsimp only at h0; omega), hroom⟩
        rw [← hseen.1]
        unfold pendLive
        by_cases h0 : p.got - y.ans.length = 0
        · rw [if_neg (not_not_intro h0), if_neg (not_not_intro h0)]
        · rw [if_pos h0, if_pos h0, hL.last p hp hans (by omega)]
      obtain ⟨hold', hfeed⟩ := command_lagged hpend hvfo hstay hstay' dir client (Function.update rx src ⟨[], t⟩) hold
      have hgone : Gone y t ({ p with got := p.got - y.ans.length, tLast := t' } :: ps) dead :=
        (hL.gone.mono hle).behind hne
      have hlist : ((y.lagged rx hold dead t').setRx src ⟨[], t⟩).pend =
          dead ++ { p with got := p.got - y.ans.length, tLast := t' } :: ps :=
          congrArg (dead ++ ·) (seen_cons hans hpend t')
      rw [Replay.replay_cons, Replay.replay_nil, refeed_host hsrc hs hcl hc he hr (hL.framers src),
        command_gone hlist rfl (hgone.congr rfl)]
      refine ⟨Function.update rx src ⟨[], t⟩, hold', [], t',
        ⟨framers_update hL.framers src t, trivial, fun _ _ _ => trivial,
        fun q hq _ hg => ?_⟩, hfeed.trans ?_⟩
      · rw [hpend'] at hq
        rw [recordedAt_other hout (he.dir ▸ hdir)]
        rw [hans', ← Option.some.inj hq] at hg
        exact hL.last p hp hans hg
      · unfold lagged
        rw [seen_cons (by rw [hans']; exact hans) hpend', hans']
        rfl

/-- A command ends what there is of an answer that does not stay. -/
theorem Timed.command_after (h : Timed now y) (hle : now ≤ t) (hok : y.CommandOk c t)
    (hsrc : Src.of dir client = some src) (hs : src ≠ .radio) (hcl : (if dir = .host then client else 0) = client)
    (hc : c.length = YBIN_CMD_LEN) (hends : ∀ p ∈ y.pend.head?, p.got ≠ 0 → ¬y.Stays c t p) :
    Timed t (y.command dir client c t) ∧ ∃ ws, (y.command dir client c t).out = y.out ++ ws ∧
      ∀ r, Follows now y (r.rxExpire dir client src t) → Follows t (y.command dir client c t)
      (Replay.replay refeed r ws) := by
  have hlate : y.NoneAfter t := h.late.mono hle
  obtain ⟨e, st, he, hcmd, hv⟩ := command_frame y dir client c t
  obtain ⟨hidle, hrx, hvfo, hframe⟩ := h.orderly.taken_ends hends (dir == .own) client
  have hidle' : Resting (y.command dir client c t) := by
    rw [hcmd]
    exact hidle
  have ho' : Orderly (y.command dir client c t) := .of_fresh hidle'.1 hidle'.2 fun _ =>
    by rw [hcmd]; exact hv hvfo
  have hfr : ∀ src, ((y.command dir client c t).rx src).buf.length < YBIN_CMD_LEN := by
    rw [hcmd]
    show ∀ src, ((y.taken c (dir == .own) client t).rx src).buf.length < YBIN_CMD_LEN
    rw [hrx]
    exact h.framers
  have hlast : ∀ q ∈ (y.command dir client c t).pend.head?, q.got ≠ 0 → q.tLast ≤ t ∧
      ((y.command dir client c t).ans = [] → q.tLast = (y.command dir client c t).recordedAt) :=
    fun q hq hg => absurd (hidle'.1 q (List.mem_of_mem_head? hq)).1 hg
  have hout : (y.command dir client c t).out = (y.taken c (dir == .own) client t).out ++ [e] := by rw [hcmd]
  by_cases hans : y.ans = []
  · rw [if_pos hans] at hframe
    rw [hframe] at hout
    exact ⟨⟨ho', hfr, times_concat h.times (he.tMs ▸ hlate) hout, hlate.concat hout he.tMs, hlast⟩, [e], hout,
      fun r hr => hr.command hle hsrc hs hcl hc he hans hidle'.2⟩
  · rw [if_neg hans] at hframe
    obtain ⟨p, ps, d, hpend, hgot, hd, hdout⟩ := hframe
    have hp : p ∈ y.pend.head? := by rw [hpend]; rfl
    have hend : y.pendLive p t = false ∨ (answerLen y.model c).1 ≠ 0 ∧ y.pend.length = PEND_MAX := by
      by_contra hnot
      push Not at hnot
      exact hends p hp hgot ⟨Bool.ne_false_iff.1 hnot.1, fun h0 => absurd h0 hgot, fun hf => hnot.2 hf.1 hf.2⟩
    have hstop := hok p hp hans
    rw [if_pos hend] at hstop
    obtain ⟨hnone, hseen⟩ := hstop
    have htimes := times_concat h.times (by rw [hd.tMs]; exact hnone) hdout
    have hlate' : (y.taken c (dir == .own) client t).NoneAfter t :=
      (hnone.concat hdout hd.tMs).mono (Nat.le_trans (h.last p hp hgot).1 hle)
    refine ⟨⟨ho', hfr, times_concat htimes (he.tMs ▸ hlate') hout, hlate'.concat hout he.tMs, hlast⟩, [d, e],
      ?_, ?_⟩
    · rw [hout, hdout, List.append_assoc]
      rfl
    · rintro r ⟨rx, hold, dead, t', hL, hr⟩
      obtain ⟨hpend', hans', hst', hpace'⟩ := rxExpire_fields r dir client src t
      rw [hr] at hpend' hans' hst' hpace'
      have hself : ({ y with pend := { p with tLast := p.tLast } :: ps } : Ybin) = y := by
        rw [show { p with tLast := p.tLast } = p from rfl, ← hpend]
      have hsync := hL.answer h.orderly hpend hans (hL.before p hp hgot) hseen hpend'.symm hans'.symm hst'.symm hpace'.symm
        d.frame.client
      have hdrop : (r.feed .radio d.frame.client y.ans p.tLast).rxExpire dir client src t = y.aside rx hold := by
        rw [hsync, rxExpire_with, hr, ← hself]
        rfl
      obtain ⟨hold', hfeed⟩ := command_aside (y := y)
        (c := c) (t := t)
      rw [Replay.replay_cons, Replay.replay_cons, Replay.replay_nil, refeed_radio hd,
        refeed_host hsrc hs hcl hc he hdrop (hL.framers src)]
      show Follows t _ ((y.aside (Function.update rx src ⟨[], t⟩) hold).command dir client c t)
      rw [hfeed]
      exact .of_aside hidle'.2 (framers_update hL.framers src t)

/-- A command, with the fresh decoder as it is when it has dropped what stopped short. -/
theorem Timed.command (h : Timed now y) (hle : now ≤ t) (hok : y.CommandOk c t)
    (hsrc : Src.of dir client = some src)
    (hs : src ≠ .radio) (hcl : (if dir = .host then client else 0) = client) (hc : c.length = YBIN_CMD_LEN) :
    Timed t (y.command dir client c t) ∧ ∃ ws, (y.command dir client c t).out = y.out ++ ws ∧
      ∀ r, Follows now y (r.rxExpire dir client src t) → Follows t (y.command dir client c t)
      (Replay.replay refeed r ws) := by
  by_cases hstay : ∃ p ps, y.pend = p :: ps ∧ p.got ≠ 0 ∧ y.Stays c t p
  · obtain ⟨p, ps, hpend, hgot, hstay⟩ := hstay
    exact h.command_behind hle hok hsrc hs hcl hc hpend hgot hstay
  · refine h.command_after hle hok hsrc hs hcl hc fun p hp hgot hs => ?_
    obtain ⟨ps, hpend⟩ := List.head?_eq_some_iff.1 hp
    exact hstay ⟨p, ps, hpend, hgot, hs⟩

/-! ### Calls and runs -/

theorem Follows.mono (h : Follows now y r) (hle : now ≤ t) : Follows t y r := by
  obtain ⟨rx, hold, dead, t', hL, rfl⟩ := h
  exact ⟨rx, hold, dead, t', ⟨hL.framers, hL.gone.mono hle, hL.before, hL.last⟩, rfl⟩

theorem Leads.nil (h : Timed now y) (hle : now ≤ t) : Leads now t y y :=
  .silent (h.mono hle) rfl fun _ hr => hr.mono hle

/-- The fresh decoder has no part of a command. -/
theorem Follows.rxExpire (h : Follows now y r) (dir : CatDir) (client : Nat) (src : Src) (t : Nat) :
    r.rxExpire dir client src t = r := by
  obtain ⟨rx, hold, dead, t', hL, rfl⟩ := h
  exact rxExpire_fresh (fun hst => hst.1 (hL.framers src)) dir client

/-- The decoder's framers are its own. -/
theorem Follows.setRx (h : Follows now y r) (src : Src) (x : YbinRx) : Follows now (y.setRx src x) r := by
  obtain ⟨rx, hold, dead, t', hL, rfl⟩ := h
  exact ⟨rx, hold, dead, t', ⟨hL.framers, hL.gone.congr rfl, fun p hp hg =>
    (hL.before p hp hg).congr rfl, hL.last⟩, rfl⟩

theorem Timed.setRx (h : Timed now y) (src : Src) {x : YbinRx} (hx : x.buf.length < YBIN_CMD_LEN) :
    Timed now (y.setRx src x) := by
  refine ⟨⟨h.orderly.head, h.orderly.rest, h.orderly.none, h.orderly.ans, h.orderly.vfo⟩, fun s => ?_, h.times,
    h.late, h.last⟩
  by_cases hs : s = src
  · rw [hs, setRx_rx]
    exact hx
  · unfold Ybin.setRx
    dsimp only
    rw [Function.update_of_ne hs]
    exact h.framers s

theorem command_rx (y : Ybin) (dir : CatDir) (client : Nat) (c : List UInt8) (t : Nat) :
    (y.command dir client c t).rx = y.rx := by
  obtain ⟨hold', h⟩ := command_aside (y := y) (c := c) (t := t)
  have hrx := congrArg (fun z : Ybin => z.rx) (show y.command dir client c t = _ from h)
  exact hrx

theorem src_of_client (hsrc : Src.of dir client = some src) (hs : src ≠ .radio) :
    Src.of dir (if dir = .host then client else 0) = some src := by
  cases dir with
  | radio => exact absurd (Option.some.inj hsrc).symm hs
  | _ => exact hsrc

theorem feed_singleton (hsrc : Src.of dir client = some src) (hs : src ≠ .radio) (y : Ybin) (b : UInt8) (t : Nat) :
    y.feed dir client [b] t = y.hostByte dir (if dir = .host then client else 0) src b t :=
    feed_host hsrc hs [b] y t

/-- A byte of a command that nothing stopped. -/
theorem Timed.hostByte (h : Timed now y) (hle : now ≤ t) (hsrc : Src.of dir client = some src) (hs : src ≠ .radio)
    (hfresh : ¬Stale (y.rx src) t) (hok : ByteOk dir client t y b) :
    Leads now t y (y.feed dir client [b] t) ∧ ¬Stale ((y.feed dir client [b] t).rx src) t := by
  have hnow : ∀ buf : List UInt8, ¬Stale ⟨buf, t⟩ t := fun buf hst =>
    absurd hst.2 (Nat.not_lt_of_le (Nat.le_add_right ..))
  have hok' := hok src hsrc
  have hcl : (if dir = .host then (if dir = .host then client else 0) else 0) = if dir =
    .host then client else 0 := by
    split_ifs <;> rfl
  rw [if_neg hs, rxExpire_fresh hfresh] at hok'
  rw [feed_singleton hsrc hs]
  by_cases hlast : (y.rx src).buf.length + 1 = YBIN_CMD_LEN
  · rw [hostByte_last (by rw [rxExpire_fresh hfresh]; exact hlast), rxExpire_fresh hfresh]
    have hc : ((y.rx src).buf ++ [b]).length = YBIN_CMD_LEN := by
      rw [List.length_append]
      exact hlast
    obtain ⟨ht, ws, hout, hr⟩ := ((h.setRx src (x := ⟨[], t⟩) (Nat.zero_lt_succ 4)).command hle (hok' hlast)
      (src_of_client hsrc hs) hs hcl hc)
    refine ⟨⟨ht, ws, hout, fun r hf => hr r ?_⟩, ?_⟩
    · rw [hf.rxExpire]
      exact hf.setRx src _
    · rw [command_rx, setRx_rx]
      exact hnow []
  · rw [hostByte_part (by rw [rxExpire_fresh hfresh]; exact hlast), rxExpire_fresh hfresh, setRx_rx]
    have hlt : ((y.rx src).buf ++ [b]).length < YBIN_CMD_LEN := by
      have := h.framers src
      rw [List.length_append, List.length_singleton]
      omega
    exact ⟨.silent ((h.mono hle).setRx src hlt) rfl fun r hf => (hf.mono hle).setRx src _, hnow _⟩

theorem Timed.hostBytes {buf : List UInt8} (h : Timed now y) (hle : now ≤ t)
    (hsrc : Src.of dir client = some src) (hs : src ≠ .radio)
    (hfresh : ¬Stale (y.rx src) t)
    (hok : Run.StepsOk (fun y b => y.feed dir client [b] t) (ByteOk dir client t) y buf) :
    Leads now t y (y.feed dir client buf t) := by
  induction buf generalizing y now with
  | nil =>
    rw [feed_nil]
    exact .nil h hle
  | cons b buf ih =>
    obtain ⟨hfirst, hfresh'⟩ := h.hostByte hle hsrc hs hfresh hok.1
    rw [feed_cons]
    exact hfirst.trans (ih hfirst.1 (Nat.le_refl t) hfresh' hok.2)

theorem Timed.radioBytes {buf : List UInt8} (h : Timed now y) (hle : now ≤ t)
    (hok : Run.StepsOk (fun y b => y.feed .radio client [b] t) (ByteOk .radio client t) y buf) :
    Leads now t y (y.feed .radio client buf t) := by
  induction buf generalizing y now with
  | nil =>
    rw [feed_nil]
    exact .nil h hle
  | cons b buf ih =>
    have hbyte := hok.1 .radio rfl
    rw [if_pos rfl] at hbyte
    have hfirst : Leads now t y (y.feed .radio client [b] t) := h.radioByte hle hbyte b
    rw [feed_cons]
    exact hfirst.trans (ih hfirst.1 (Nat.le_refl t) hok.2)

theorem feed_run (y : Ybin) (dir : CatDir) (client t : Nat) (buf : List UInt8) :
    Run.run (fun y b => y.feed dir client [b] t) y buf = y.feed dir client buf t := by
  induction buf generalizing y with
  | nil => exact (feed_nil y dir client t).symm
  | cons b buf ih =>
    rw [feed_cons, Run.run_cons]
    exact ih _

/-- The frame of a command that stopped short. -/
def short (y : Ybin) (dir : CatDir) (client : Nat) (src : Src) : Emit :=
  ⟨⟨.dropped, dir, (y.rx src).tMs, (y.rx src).buf, false, dir == .own, client⟩, 0⟩

/-- A command that stopped short, and the next one. -/
theorem Timed.hostStale (h : Timed now y) (hsrc : Src.of dir client = some src) (hs : src ≠ .radio)
    (hstale : Stale (y.rx src) t)
    (hle : now ≤ t) (hnone : y.NoneAfter (y.rx src).tMs) (hc : c.length = YBIN_CMD_LEN)
    (hok : Run.StepsOk (fun y b => y.feed dir client [b] t) (ByteOk dir client t) y c) :
    Leads now t y (y.feed dir client c t) ∧ ¬Stale ((y.feed dir client c t).rx src) t := by
  have hsrc' := src_of_client hsrc hs
  have hcl : (if dir = .host then (if dir = .host then client else 0) else 0) = if dir =
    .host then client else 0 := by
    split_ifs <;> rfl
  rw [feed_host hsrc hs]
  have hdir : dir ≠ .radio := by
    rintro rfl
    exact hs (Option.some.inj hsrc).symm
  obtain ⟨a, b, rfl, hlen⟩ := command_concat hc
  have hdrop : ∀ r : Ybin, r.rx src = y.rx src → r.rxExpire dir (if dir = .host then client else 0) src t =
      (r.emit .dropped dir (y.rx src).buf false (dir == .own) (if dir = .host then client else 0)
        (y.rx src).tMs).setRx src
        ⟨[], (y.rx src).tMs⟩ := by
    intro r hr
    unfold Ybin.rxExpire
    dsimp only
    rw [hr, if_neg fun hor => hor.elim hstale.1 (Nat.not_le_of_lt hstale.2)]
  have hcmd : Ybin.CommandOk (y.rxExpire dir (if dir = .host then client else 0) src t) (a ++ [b]) t := by
    have hpart : (((y.rxExpire dir (if dir = .host then client else 0) src t).rx src).buf).length + a.length < YBIN_CMD_LEN := by
      rw [hdrop y rfl, setRx_rx, hlen]
      exact Nat.lt_succ_self 4
    have hlast := hok.right.1 src hsrc
    rw [if_neg hs, feed_run, feed_host hsrc hs, hostBytes_part (List.ne_nil_of_length_eq_add_one hlen) hpart,
      rxExpire_now,
      setRx_rx, hdrop y rfl, setRx_rx, List.nil_append, ← hdrop y rfl] at hlast
    exact hlast (congrArg (· + 1) hlen)
  have hempty : ((y.rxExpire dir (if dir = .host then client else 0) src t).rx src).buf = [] := by
    rw [hdrop y rfl, setRx_rx]
  rw [hostBytes_command hc hempty]
  generalize hw : (if dir = .host then client else 0) = cl at *
  have hd : CommandFrame dir cl (y.rx src).buf (y.rx src).tMs (y.short dir cl src) := ⟨rfl, rfl, rfl, rfl⟩
  have hout : (y.rxExpire dir cl src t).out = y.out ++ [y.short dir cl src] := by
    rw [hdrop y rfl]
    rfl
  have htimed : Timed t (y.rxExpire dir cl src t) := by
    rw [hdrop y rfl]
    refine Timed.setRx ?_ src (Nat.zero_lt_succ 4)
    refine ⟨⟨h.orderly.head, h.orderly.rest, h.orderly.none, h.orderly.ans, h.orderly.vfo⟩, h.framers,
      times_concat h.times hnone rfl, (hnone.concat rfl rfl).mono (by have := hstale.2; omega), fun p hp hg => ?_⟩
    obtain ⟨hlate, hlast⟩ := h.last p hp hg
    refine ⟨Nat.le_trans hlate hle, fun hans => ?_⟩
    rw [hlast hans]
    exact (recordedAt_other rfl hdir).symm
  obtain ⟨ht, ws, hws, hr⟩ := (htimed.setRx src (x := ⟨[], t⟩)
    (Nat.zero_lt_succ 4)).command (Nat.le_refl t) hcmd hsrc' hs hcl hc
  refine ⟨⟨ht, y.short dir cl src :: ws, ?_, fun r hf => ?_⟩, ?_⟩
  · rw [hws]
    show (y.rxExpire dir cl src t).out ++ ws = _
    rw [hout, List.append_assoc]
    rfl
  · have hkeep : r.rxExpire dir cl src (y.rx src).tMs = r := hf.rxExpire dir cl src _
    obtain ⟨rx, hold, dead, t', hL, rfl⟩ := hf
    have hrx : ((y.lagged rx hold dead t').rx src).buf = [] := hL.framers src
    rw [Replay.replay_cons, refeed_command hd, feed_host hsrc' hs, hcl, hostBytes_part hstale.1
      (by rw [hkeep, hrx, List.length_nil, Nat.zero_add]; exact h.framers src), hkeep, hrx, List.nil_append]
    refine hr _ (Follows.setRx ?_ src _)
    rw [hdrop y rfl, hdrop _ (setRx_rx ..)]
    refine Follows.setRx (y := y.emit .dropped dir (y.rx src).buf false (dir == .own) cl (y.rx src).tMs) ?_ src _
    refine ⟨Function.update rx src ⟨[], (y.rx src).tMs⟩, hold, dead, t', ⟨framers_update hL.framers src _,
      (hL.gone.mono hle).congr rfl, fun p hp hg => (hL.before p hp hg).congr rfl, fun p hp hans hg => ?_⟩, ?_⟩
    · rw [hL.last p hp hans hg]
      exact (recordedAt_other rfl hdir).symm
    · unfold Ybin.setRx
      show ({ (y.lagged rx hold dead t').emit .dropped dir (y.rx src).buf false (dir == .own) cl (y.rx src).tMs with
        rx := Function.update (Function.update rx src (y.rx src)) src ⟨[], (y.rx src).tMs⟩ } : Ybin) = _
      rw [Function.update_idem]
      rfl
  · rw [command_rx, setRx_rx]
    exact fun hst => absurd hst.2 (Nat.not_lt_of_le (Nat.le_add_right ..))

/-- A call of `cat_ybin_feed`. -/
theorem Timed.feed (h : Timed now y) (f : Feed) (hle : now ≤ f.tMs) (hshort : y.ShortOk f)
    (hok : Run.StepsOk (fun y b => y.feed f.dir f.client [b] f.tMs) (ByteOk f.dir f.client f.tMs) y f.buf) :
    Leads now f.tMs y (y.feed f.dir f.client f.buf f.tMs) := by
  cases hsrc : Src.of f.dir f.client with
  | none =>
    have hsame : y.feed f.dir f.client f.buf f.tMs = y := by
      unfold Ybin.feed
      rw [hsrc]
    rw [hsame]
    exact .nil h hle
  | some src =>
    by_cases hs : src = .radio
    · have hdir : f.dir = .radio := by
        rw [hs] at hsrc
        unfold Src.of at hsrc
        split at hsrc
        · split_ifs at hsrc
          exact absurd (Option.some.inj hsrc) (fun h => Src.noConfusion h)
        · exact absurd (Option.some.inj hsrc) (fun h => Src.noConfusion h)
        · assumption
      rw [hdir] at hok ⊢
      exact h.radioBytes hle hok
    · by_cases hstale : f.buf ≠ [] ∧ Stale (y.rx src) f.tMs
      · obtain ⟨hlen, hnone⟩ := hshort src hsrc hs hstale.1 hstale.2
        rw [← List.take_append_drop YBIN_CMD_LEN f.buf] at hok ⊢
        obtain ⟨hfirst, hfresh⟩ := h.hostStale hsrc hs hstale.2 hle hnone (List.length_take_of_le hlen) hok.left
        have hrest := hok.right
        rw [feed_run] at hrest
        rw [← feed_run, Run.run_append, feed_run, feed_run]
        exact hfirst.trans (hfirst.1.hostBytes (Nat.le_refl _) hsrc hs hfresh hrest)
      · by_cases hnil : f.buf = []
        · rw [hnil, feed_nil]
          exact .nil h hle
        · exact h.hostBytes hle hsrc hs (fun hst => hstale ⟨hnil, hst⟩) hok

/-- A call of `cat_ybin_expire`. -/
theorem Timed.expire (h : Timed now y) (hle : now ≤ t) (hok : y.ExpireOk t) : Leads now t y (y.expire t) := by
  obtain ⟨hclients, hown, hcalm⟩ := hok
  have hfold : ∀ l : List Nat, (∀ c ∈ l, ¬Stale (y.rx (.client (c + 1))) t) →
      l.foldl (fun y c => y.rxExpire .host (c + 1) (.client (c + 1)) t) y = y := by
    intro l hl
    induction l with
    | nil => rfl
    | cons c l ih =>
      rw [List.foldl_cons, rxExpire_fresh (hl c List.mem_cons_self)]
      exact ih fun c hc => hl c (List.mem_cons_of_mem _ hc)
  unfold Ybin.expire
  dsimp only
  rw [hfold _ hclients, rxExpire_fresh hown]
  exact h.pendExpire hle hcalm

/-- What every call that is `CallOk` keeps. -/
structure Inv (model : YbinModel) (st : CatState) (s : Tape) : Prop where
  timed : Timed s.now s.y
  replayed : Replay.Replayed Ybin.out refeed (Follows s.now) (create model st) s.y

theorem Inv.start (model : YbinModel) (st : CatState) : Inv model st ⟨create model st, 0⟩ := by
  refine ⟨⟨.of_fresh (fun p hp => absurd hp List.not_mem_nil) rfl fun hne => absurd rfl hne, fun _ =>
    Nat.zero_lt_succ 4,
    .nil, fun e he => absurd he List.not_mem_nil, fun p hp => absurd hp (Option.not_mem_none p)⟩, .start ?_ rfl⟩
  exact .of_aside (y := create model st) rfl fun _ => rfl

theorem Inv.leads {model : YbinModel} {st : CatState} {s : Tape} (h : Inv model st s) (hl : Leads s.now t s.y y') :
    Inv model st ⟨y', t⟩ := by
  obtain ⟨ht, ws, hout, hr⟩ := hl
  refine ⟨ht, ?_⟩
  show Follows t y' (Replay.replay refeed (create model st) y'.out)
  rw [hout, Replay.replay_append]
  exact hr _ h.replayed

theorem Inv.call {model : YbinModel} {st : CatState} {s : Tape} (h : Inv model st s) (c : YbinCall)
    (hok : CallOk s c) :
    Inv model st (s.call c) := by
  cases c with
  | feed f => exact h.leads (h.timed.feed f hok.1 hok.2.1 hok.2.2)
  | expire t => exact h.leads (h.timed.expire hok.1 hok.2)

theorem Inv.faithful {model : YbinModel} {st : CatState} {s : Tape} (h : Inv model st s) :
    Faithful model st s.y := by
  obtain ⟨rx, hold, dead, t', -, hr⟩ := h.replayed
  refine ⟨h.timed.times, ?_, ?_⟩
  · rw [hr]
    rfl
  · rw [hr]
    rfl

/-- As long as nothing is noticed late the trace replays. -/
theorem ybin_trace_replays (model : YbinModel) (st : CatState) (cs : List YbinCall)
    (h : Run.StepsOk Tape.call CallOk ⟨create model st, 0⟩ cs) :
    Faithful model st (Run.run Tape.call ⟨create model st, 0⟩ cs).y :=
  (Run.run_inv_of_ok (I := Inv model st) (fun _ c hI hok => hI.call c hok) (.start model st) h).faithful

/-- A query answered in two parts, and a command that stopped short before the next one. -/
theorem ybin_trace_replays_short :
    Faithful .ft817 .init (Run.run Tape.call ⟨create .ft817 .init, 0⟩
      [.feed ⟨.host, 1, [0, 0, 0, 0, 0x03], 0⟩, .feed ⟨.radio, 0, [0x01, 0x40, 0x70], 20⟩, .expire 60,
        .feed ⟨.radio, 0, [0x00, 0x01], 90⟩, .feed ⟨.host, 2, [0, 0], 200⟩,
        .feed ⟨.host, 2, [0x14, 0x07, 0x40, 0x00, 0x01], 700⟩, .feed ⟨.radio, 0, [0], 710⟩]).y :=
  ybin_trace_replays _ _ _ (by decide)

/-- A command that stopped short is noticed after another client's command. -/
theorem ybin_trace_goes_back :
    ¬∀ (model : YbinModel) (st : CatState) (cs : List YbinCall), (cs.map YbinCall.tMs).Pairwise (· ≤ ·) →
      Faithful model st (Run.run Tape.call ⟨create model st, 0⟩ cs).y := by
  intro h
  have hf := h .ft817 .init [.feed ⟨.host, 1, [0, 0], 0⟩, .feed ⟨.host, 2, [0, 0, 0, 0, 0x03], 100⟩,
    .expire 500] (by decide)
  have htimes := hf.times
  revert htimes
  decide

end Ybin

end Mhuxd
