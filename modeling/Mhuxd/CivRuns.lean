import Mhuxd.CivFrames
import Mhuxd.Lib.Run
import Mhuxd.Lib.Expiry

/-!
# Runs of the CI-V decoder

The decoder is fed, asked to send lost commands again and told to discard a client's. In every run the
radio's state is safe (`civ_state_safe`): it changes with the frames that say so and no others. While the
time does not go back, answers go to recent commands only, unless an old command stands behind one that
was sent again or the address is learnt from an old command (`civ_answers_recent`).
-/

namespace Mhuxd

/-- Calls of the decoder; the bytes of `cat_civ_feed` come one at a time. -/
inductive CivEv
  | feed (t : Nat) (dir : CatDir) (client : Nat) (b : UInt8)
  | resend (t max : Nat)
  | discard (client : Nat)

/-- A frame that was seen, or a command sent again. -/
structure CivSent where
  buf : List UInt8
  own : Bool
  client : Nat
  tMs : Nat
deriving DecidableEq

/-- A decoder in a run: when the frame in `last` was seen, what was sent when, and the commands that the
radio's frames were attributed to, with the time of the frame. The decoder reads none of these. -/
structure CivRun where
  civ : Civ
  now : Nat
  lastT : Nat
  sent : List CivSent
  answers : List (CivPending × Nat)

namespace CivRun

/-- The frame that a byte completes. -/
def frame (r : CivRun) (dir : CatDir) (client : Nat) (b : UInt8) : Option (List UInt8) :=
  (Src.of dir client).bind fun src => Civ.completes (r.civ.rx src) b

def clientOf (dir : CatDir) (client : Nat) : Nat := if dir = .host then client else 0

/-- A frame is complete. -/
def note (r : CivRun) (dir : CatDir) (client : Nat) (f : List UInt8) (t : Nat) : CivRun :=
  { r with
    lastT := t
    sent := r.sent ++ [⟨f, dir == .own, clientOf dir client, t⟩]
    answers := r.answers ++
      if dir = .radio then (((r.civ.judged dir f t).answered f).map fun p => (p, t)).toList else [] }

def feed (r : CivRun) (t : Nat) (dir : CatDir) (client : Nat) (b : UInt8) : CivRun :=
  let noted := (r.frame dir client b).elim r fun f => r.note dir client f t
  { noted with civ := r.civ.feed dir client [b] t, now := t }

def resend (r : CivRun) (t max : Nat) : CivRun :=
  let (civ, p) := r.civ.resend max t
  { r with civ := civ, now := t, sent := r.sent ++ p.toList.map fun p => ⟨p.buf, p.own, p.client, t⟩ }

def step (r : CivRun) : CivEv → CivRun
  | .feed t dir client b => r.feed t dir client b
  | .resend t max => r.resend t max
  | .discard client => { r with civ := r.civ.clientDiscard client }

/-- A run from `cat_civ_create`. -/
abbrev runs (radioAddr : UInt8) (freqLen : Nat) (st : CatState) (evs : List CivEv) : CivRun :=
  Run.run step ⟨.create radioAddr freqLen st, 0, 0, [], []⟩ evs

/-- The bytes of one call of `cat_civ_feed`. -/
theorem feed_chunk (r : CivRun) (t : Nat) (dir : CatDir) (client : Nat) (bs : List UInt8) :
    (Run.run step r (bs.map (.feed t dir client))).civ = r.civ.feed dir client bs t := by
  induction bs generalizing r with
  | nil =>
    unfold Civ.feed
    rcases Src.of dir client with _ | src <;> rfl
  | cons b bs ih =>
    refine (ih (r.step (.feed t dir client b))).trans ?_
    show (r.civ.feed dir client [b] t).feed dir client bs t = r.civ.feed dir client (b :: bs) t
    unfold Civ.feed
    rcases Src.of dir client with _ | src <;> rfl

/-! ### The radio's state -/

/-- The state is as it was and the frames say so, or the byte completed a frame of the radio that has a
cause to change it. -/
def Safe (r : CivRun) (e : CivEv) : Prop :=
  ((r.step e).civ.st = r.civ.st ∧ ∃ es, (r.step e).civ.out = r.civ.out ++ es ∧ ∀ x ∈ es, x.frame.applied = false) ∨
    ∃ t client b f x, e = .feed t .radio client b ∧ r.frame .radio client b = some f ∧ Civ.WellFormed f ∧
      (r.civ.judged .radio f t).radioAddr ≠ 0 ∧ Civ.fFrom f = (r.civ.judged .radio f t).radioAddr ∧
      (r.step e).civ.out = r.civ.out ++ [x] ∧ x.frame.buf = f ∧ x.frame.applied = true ∧
      (r.civ.judged .radio f t).Cause f x.frame.kind

end CivRun

namespace Civ

variable {civ a : Civ} {dir : CatDir} {client t : Nat} {f : List UInt8} {src : Src} {rx : CivRx} {kind : FrameKind}

theorem judged_setRx : (civ.setRx src rx).judged dir f t = (civ.judged dir f t).setRx src rx := by
  unfold judged learnAddr
  dsimp only
  simp only [apply_ite (fun c : Civ => c.setRx src rx)]
  rfl

theorem Cause.of_setRx (h : (civ.setRx src rx).Cause f kind) : civ.Cause f kind := by
  cases h with
  | broadcast h => exact .broadcast h
  | reply hp hctrl hcmd hsub => exact .reply hp hctrl hcmd hsub
  | ack hp hctrl hset hok => exact .ack hp hctrl hset hok

/-- A frame by its decoder, the framer aside. -/
theorem Settled.of_setRx (h : Settled dir client f t (civ.setRx src rx) a) : Settled dir client f t civ a := by
  obtain ⟨e, hout, hbuf, hdir, hst, hown⟩ := h.frame
  refine ⟨h.radioAddr, h.pend, h.unknown, h.taken, e, hout, hbuf, hdir, ?_, hown⟩
  rcases hst with hst | ⟨hd, hra, hfrom, ha, hc⟩
  · exact .inl hst
  · exact .inr ⟨hd, hra, hfrom, ha, hc.of_setRx⟩

/-- A byte that completes a frame. -/
theorem rxDone_settled (civ : Civ) (rx : CivRx) :
    Settled dir client f t (civ.judged dir f t) ((civ.setRx src rx).rxDone dir client src f t) := by
  have h : Settled dir client f t ((civ.setRx src rx).judged dir f t)
      (((civ.setRx src rx).judged dir f t).settle dir client f t) := settle_settled _
  rw [judged_setRx] at h
  have h' := h.of_setRx
  rw [← judged_setRx] at h'
  exact ⟨h'.radioAddr, h'.pend, h'.unknown, h'.taken, h'.frame⟩

theorem rxByte_settled {b : UInt8} (h : completes (civ.rx src) b = some f) :
    Settled dir client f t (civ.judged dir f t) (civ.rxByte dir client src b t) ∧
      (civ.rxByte dir client src b t).last = f ∧ (civ.rxByte dir client src b t).lastDir = dir ∧
      (civ.rxByte dir client src b t).lastClient = client := by
  rcases civ.rxByte_cases dir client src b t with ⟨f', hf', heq⟩ | ⟨hnone, -, -⟩
  · obtain rfl : f' = f := Option.some.inj (hf'.symm.trans h)
    rw [heq]
    exact ⟨rxDone_settled civ _, rfl, rfl, rfl⟩
  · exact absurd (hnone.symm.trans h) (by simp)

end Civ

namespace CivRun

variable {r : CivRun} {dir : CatDir} {client t now : Nat} {b : UInt8} {f : List UInt8}

theorem feed_inert (t : Nat) (h : r.frame dir client b = none) :
    Civ.Inert r.civ (r.civ.feed dir client [b] t) := by
  unfold frame at h
  unfold Civ.feed
  rcases hsrc : Src.of dir client with _ | src
  · exact .refl
  · rw [hsrc] at h
    rcases r.civ.rxByte_cases dir (clientOf dir client) src b t with ⟨f, hf, -⟩ | ⟨-, hin, -⟩
    · exact absurd (h.symm.trans hf) (by simp)
    · exact hin

theorem feed_frame (t : Nat) (h : r.frame dir client b = some f) :
    Civ.Settled dir (clientOf dir client) f t (r.civ.judged dir f t) (r.civ.feed dir client [b] t) ∧
      (r.civ.feed dir client [b] t).last = f ∧ (r.civ.feed dir client [b] t).lastDir = dir ∧
      (r.civ.feed dir client [b] t).lastClient = clientOf dir client := by
  unfold frame at h
  unfold Civ.feed
  rcases hsrc : Src.of dir client with _ | src
  · rw [hsrc] at h
    exact absurd h (by simp)
  · rw [hsrc] at h
    exact Civ.rxByte_settled h

/-- Every framer's buffer is as it should be. -/
def FramersOk (r : CivRun) : Prop := ∀ src, Civ.RxOk (r.civ.rx src)

theorem FramersOk.feed (h : FramersOk r) (t : Nat) (dir : CatDir) (client : Nat) (b : UInt8) :
    FramersOk (r.feed t dir client b) := by
  intro src
  show Civ.RxOk ((r.civ.feed dir client [b] t).rx src)
  unfold Civ.feed
  rcases Src.of dir client with _ | src'
  · exact h src
  · show Civ.RxOk ((r.civ.rxByte dir _ src' b t).rx src)
    rw [Civ.rxByte_rx]
    rcases eq_or_ne src src' with rfl | hne
    · rw [Function.update_self]
      exact (h src).next
    · rw [Function.update_of_ne hne]
      exact h src

theorem FramersOk.step (h : FramersOk r) (e : CivEv) : FramersOk (r.step e) := by
  cases e with
  | feed t dir client b => exact h.feed t dir client b
  | resend t max => exact h
  | discard client =>
    intro src
    show Civ.RxOk ((r.civ.clientDiscard client).rx src)
    unfold Civ.clientDiscard
    split_ifs
    · show Civ.RxOk (Function.update r.civ.rx _ _ src)
      rcases eq_or_ne src (.client client) with rfl | hne
      · rw [Function.update_self]
        exact fun hs => nomatch hs
      · rw [Function.update_of_ne hne]
        exact h src
    · exact h src

theorem judged_st (dir : CatDir) (f : List UInt8) (t : Nat) (civ : Civ) :
    (civ.judged dir f t).st = civ.st ∧ (civ.judged dir f t).out = civ.out := by
  unfold Civ.judged Civ.learnAddr
  dsimp only
  split_ifs <;> exact ⟨rfl, rfl⟩

theorem FramersOk.safe (h : FramersOk r) (e : CivEv) : Safe r e := by
  cases e with
  | feed t dir client b =>
    rcases hframe : r.frame dir client b with _ | f
    · have hin := feed_inert t hframe
      obtain ⟨es, hes, hno⟩ := hin.out
      exact .inl ⟨hin.st, es, hes, fun x hx => (hno x hx).1⟩
    · have hset := (feed_frame t hframe).1
      obtain ⟨x, hout, hbuf, -, hst, -⟩ := hset.frame
      have hsame := judged_st dir f t r.civ
      rw [hsame.2] at hout
      rcases hst with ⟨hst, happ⟩ | ⟨rfl, hra, hfrom, happ, hc⟩
      · refine .inl ⟨hst.trans hsame.1, [x], hout, fun y hy => ?_⟩
        rw [List.mem_singleton.1 hy]
        exact happ
      · obtain ⟨src, -, hsrc⟩ := Option.bind_eq_some_iff.1 hframe
        exact .inr ⟨t, client, b, f, x, rfl, hframe, (h src).completes hsrc, hra, hfrom, hout, hbuf, happ, hc⟩
  | resend t max => exact .inl ⟨rfl, [], (List.append_nil _).symm, fun _ hx => absurd hx List.not_mem_nil⟩
  | discard client =>
    refine .inl ?_
    show (r.civ.clientDiscard client).st = r.civ.st ∧ ∃ es, (r.civ.clientDiscard client).out = _ ∧ _
    unfold Civ.clientDiscard
    split_ifs <;> exact ⟨rfl, [], (List.append_nil _).symm, fun _ hx => absurd hx List.not_mem_nil⟩

/-- Whatever is fed and sent again when: the state changes only with a well-formed frame from the radio's
address that is a broadcast, the reply to a pending command or the acknowledgement of a pending set; every
other frame leaves it as it was. -/
theorem civ_state_safe (radioAddr : UInt8) (freqLen : Nat) (st : CatState) (evs : List CivEv) (e : CivEv) :
    Safe (runs radioAddr freqLen st evs) e := by
  have h : FramersOk (runs radioAddr freqLen st evs) :=
    Run.run_inv (fun _ e h => h.step e) (fun _ hs => nomatch hs) evs
  exact h.safe e

/-! ### Recent commands -/

/-- The time does not go back. -/
def Timely (r : CivRun) : CivEv → Prop
  | .feed t .. | .resend t _ => r.now ≤ t
  | .discard _ => True

/-- The address is learnt from the last frame, a command, and this one. -/
def Learns (r : CivRun) (f : List UInt8) : Prop :=
  r.civ.radioAddr = 0 ∧ Civ.fTo f ≠ CIV_BCAST ∧ ¬(Civ.fCmd f = CIV_OK ∨ Civ.fCmd f = CIV_NG) ∧
    r.civ.last ≠ [] ∧ Civ.fTo r.civ.last = Civ.fFrom f ∧ Civ.fFrom r.civ.last = Civ.fTo f ∧
    Civ.fCmd r.civ.last = Civ.fCmd f

instance (r : CivRun) (f : List UInt8) : Decidable (Learns r f) := by
  unfold Learns
  infer_instance

/-- The frame answers the query. -/
def answersQuery (q r : List UInt8) : Bool :=
  Civ.fFrom q == Civ.fTo r && Civ.fCmd q == Civ.fCmd r &&
    !(Civ.hasSub (Civ.fCmd r) && (decide ((Civ.fData q).length < 1) || decide ((Civ.fData r).length < 1) ||
      (Civ.fData q).getD 0 0 != (Civ.fData r).getD 0 0)) &&
    Civ.isQuery q != some false

/-- No command that is too old stands behind one that was sent again and isn't. An address is learnt from
a recent command and its answer. -/
def FrameOk (r : CivRun) (f : List UInt8) (t : Nat) : Prop :=
  (r.civ.pend.Pairwise fun p q => 0 < p.resends → Civ.pendLive p t = true → Civ.pendLive q t = true) ∧
    (Learns r f → t ≤ r.lastT + PEND_TIMEOUT_MS ∧ Civ.fFrom f ≠ 0 ∧ Civ.fTo f ≠ Civ.fFrom f ∧
      answersQuery r.civ.last f = true)

def StepOk (r : CivRun) : CivEv → Prop
  | .feed t .radio client b => ∀ f ∈ r.frame .radio client b, FrameOk r f t
  | _ => True

/-- The frame went to a command that was sent, for the first time or again, not too long before. -/
def Recent (sent : List CivSent) (a : CivPending × Nat) : Prop :=
  a.2 ≤ a.1.tMs + PEND_TIMEOUT_MS ∧
    ∃ s ∈ sent, s.buf = a.1.buf ∧ s.own = a.1.own ∧ s.client = a.1.client ∧ a.2 ≤ s.tMs + PEND_TIMEOUT_MS

def sentOf (p : CivPending) : CivSent := ⟨p.buf, p.own, p.client, p.tMs⟩

/-- The pending commands were sent when they say, the oldest first but for those that were sent again. -/
structure PendOk (sent : List CivSent) (now : Nat) (l : List CivPending) : Prop where
  ascending : Expiry.Ascending (·.tMs) (0 < ·.resends) l
  past : ∀ p ∈ l, p.tMs ≤ now
  known : ∀ p ∈ l, sentOf p ∈ sent

namespace PendOk

variable {sent sent' : List CivSent} {l l' : List CivPending} {p : CivPending} {t' : Nat}

theorem mono (h : PendOk sent t l) (hsent : ∀ s ∈ sent, s ∈ sent') (hle : t ≤ t') : PendOk sent' t' l :=
  ⟨h.ascending, fun p hp => Nat.le_trans (h.past p hp) hle, fun p hp => hsent _ (h.known p hp)⟩

theorem sublist (h : PendOk sent t l) (hs : l'.Sublist l) : PendOk sent t l' :=
  ⟨h.ascending.sublist hs, fun p hp => h.past p (hs.subset hp), fun p hp => h.known p (hs.subset hp)⟩

theorem unmark_iff : PendOk sent t (l.map Civ.unmarked) ↔ PendOk sent t l := by
  constructor
  · rintro ⟨ha, hp, hk⟩
    exact ⟨List.pairwise_map.1 ha, fun p hp' => hp (Civ.unmarked p) (List.mem_map_of_mem hp'),
      fun p hp' => hk (Civ.unmarked p) (List.mem_map_of_mem hp')⟩
  · rintro ⟨ha, hp, hk⟩
    refine ⟨List.pairwise_map.2 ha, fun p hp' => ?_, fun p hp' => ?_⟩
    · obtain ⟨q, hq, rfl⟩ := List.mem_map.1 hp'
      exact hp q hq
    · obtain ⟨q, hq, rfl⟩ := List.mem_map.1 hp'
      exact hk q hq

theorem kept (h : PendOk sent t l) (hk : Civ.Kept l l') : PendOk sent t l' :=
  unmark_iff.1 ((unmark_iff.2 h).sublist hk)

theorem added (h : PendOk sent t l) (ha : Civ.Added l l' p) (hp : p.tMs = t) (hs : sentOf p ∈ sent) :
    PendOk sent t l' := by
  obtain ⟨l₀, hl₀, rfl⟩ := ha
  have h₀ := h.sublist hl₀
  refine ⟨h₀.ascending.push fun q hq => hp ▸ h₀.past q hq, fun q hq => ?_, fun q hq => ?_⟩
  all_goals rcases List.mem_append.1 hq with hq | hq
  · exact h₀.past q hq
  · exact Nat.le_of_eq (by rw [List.mem_singleton.1 hq, hp])
  · exact h₀.known q hq
  · rwa [List.mem_singleton.1 hq]

theorem renew {as bs : List CivPending} {q : CivPending} (h : PendOk sent t (as ++ p :: bs)) (hq : q.tMs = t)
    (hr : 0 < q.resends) (hs : sentOf q ∈ sent) : PendOk sent t (as ++ q :: bs) := by
  have hmem : ∀ x ∈ as ++ q :: bs, x = q ∨ x ∈ as ++ p :: bs := by
    intro x hx
    rcases List.mem_append.1 hx with hx | hx
    · exact .inr (List.mem_append_left _ hx)
    · rcases List.mem_cons.1 hx with rfl | hx
      · exact .inl rfl
      · exact .inr (List.mem_append_right _ (List.mem_cons_of_mem _ hx))
  refine ⟨h.ascending.renew (fun a ha => ?_) hr, fun x hx => ?_, fun x hx => ?_⟩
  · rw [hq]
    exact h.past a (List.mem_append_left _ ha)
  · rcases hmem x hx with rfl | hx
    · exact Nat.le_of_eq hq
    · exact h.past x hx
  · rcases hmem x hx with rfl | hx
    · exact hs
    · exact h.known x hx

end PendOk

/-- Every answer so far went to a recent command, and what is pending now was sent when it says. -/
structure AnswersOk (r : CivRun) : Prop where
  pend : PendOk r.sent r.now r.civ.pend
  quiet : r.civ.radioAddr = 0 → r.civ.pend = []
  last : r.civ.last ≠ [] → ⟨r.civ.last, r.civ.lastDir == .own, clientOf r.civ.lastDir r.civ.lastClient,
    r.lastT⟩ ∈ r.sent
  recent : ∀ a ∈ r.answers, Recent r.sent a

theorem Recent.mono {sent sent' : List CivSent} {a : CivPending × Nat} (h : Recent sent a)
    (hs : ∀ s ∈ sent, s ∈ sent') :
    Recent sent' a := by
  obtain ⟨hle, s, hmem, hs'⟩ := h
  exact ⟨hle, s, hs s hmem, hs'⟩

theorem kept_nil {l : List CivPending} (h : Civ.Kept [] l) : l = [] := by
  have : (l.map Civ.unmarked).Sublist [] := h
  exact List.map_eq_nil_iff.1 (List.sublist_nil.1 this)

/-- A byte that completes no frame. -/
theorem AnswersOk.feed_none (h : AnswersOk r) (ht : r.now ≤ t) (hf : r.frame dir client b = none) :
    AnswersOk (r.feed t dir client b) := by
  have hin := feed_inert t hf
  have hfeed : r.feed t dir client b = { r with civ := r.civ.feed dir client [b] t, now := t } := by
    rw [feed, hf]
    rfl
  rw [hfeed]
  obtain ⟨hlast, hdir, hclient⟩ : (r.civ.feed dir client [b] t).last = r.civ.last ∧
      (r.civ.feed dir client [b] t).lastDir = r.civ.lastDir ∧
      (r.civ.feed dir client [b] t).lastClient = r.civ.lastClient := by
    simpa using hin.last
  refine ⟨(h.pend.kept hin.pend).mono (fun _ hs => hs) ht, fun hra => ?_, fun hne => ?_, h.recent⟩
  · have hpend := hin.pend
    rw [h.quiet (hin.radioAddr.symm.trans hra)] at hpend
    exact kept_nil hpend
  · have hl := h.last (by rwa [← hlast])
    show (⟨(r.civ.feed dir client [b] t).last, (r.civ.feed dir client [b] t).lastDir == .own, _, _⟩ : CivSent) ∈ r.sent
    rw [hlast, hdir, hclient]
    exact hl

theorem judged_unlearnt (h : ¬(dir = .radio ∧ Learns r f)) (t : Nat) :
    (r.civ.judged dir f t).pend = Expiry.expire (·.tMs) PEND_TIMEOUT_MS t r.civ.pend ∧
      ((r.civ.judged dir f t).radioAddr = 0 → r.civ.radioAddr = 0) := by
  unfold Civ.judged Civ.learnAddr
  dsimp only
  split_ifs with hra hdir hb hl
  · exact ⟨rfl, fun _ => hra⟩
  · exact ⟨rfl, fun _ => hra⟩
  · exact absurd ⟨not_not.1 hdir, hra, fun hb' => hb (.inl hb'), fun hc => hb (.inr hc), hl⟩ h
  · exact ⟨rfl, fun _ => hra⟩
  · exact ⟨rfl, fun h => h⟩

/-- The command that is learnt from. -/
def learnt (r : CivRun) (t : Nat) : CivPending :=
  ⟨r.civ.last, t, r.civ.lastDir != .radio, r.civ.lastDir == .radio, r.civ.lastDir == .own,
    if r.civ.lastDir = .host then r.civ.lastClient else 0, false, 0⟩

theorem judged_learnt (h : Learns r f) (hq : r.civ.pend = []) (t : Nat) :
    (r.civ.judged .radio f t).pend = [learnt r t] ∧ (r.civ.judged .radio f t).radioAddr = Civ.fFrom f := by
  obtain ⟨hra, hb, hcmd, hl⟩ := h
  have hno : ¬(Civ.fTo f = CIV_BCAST ∨ Civ.fCmd f = CIV_OK ∨ Civ.fCmd f = CIV_NG) := fun ho => ho.elim hb hcmd
  unfold Civ.judged
  dsimp only
  rw [if_pos (show (r.civ.pendExpire t).radioAddr = 0 from hra)]
  have hl' : (r.civ.pendExpire t).last ≠ [] ∧ Civ.fTo (r.civ.pendExpire t).last = Civ.fFrom f ∧
      Civ.fFrom (r.civ.pendExpire t).last = Civ.fTo f ∧ Civ.fCmd (r.civ.pendExpire t).last = Civ.fCmd f := hl
  unfold Civ.learnAddr
  rw [if_neg (by simp), if_neg hno, if_pos hl']
  refine ⟨?_, rfl⟩
  unfold Civ.pendAdd Civ.pendExpire
  dsimp only
  rw [hq]
  rfl

/-- The frame answers the command that is learnt from. -/
theorem answered_learnt (h : Learns r f) (hq : r.civ.pend = []) (h0 : Civ.fFrom f ≠ 0)
    (hto : Civ.fTo f ≠ Civ.fFrom f)
    (ha : answersQuery r.civ.last f = true) : (r.civ.judged .radio f t).answered f = some (learnt r t) := by
  obtain ⟨hpend, hra⟩ := judged_learnt h hq t
  have hans : (r.civ.judged .radio f t).isAnswer f = true :=
    Civ.isAnswer_of (by rwa [hra]) hra.symm (by rwa [hra]) h.2.1
  have hfind : (r.civ.judged .radio f t).pendFindQuery f = some 0 := by
    unfold Civ.pendFindQuery
    rw [hpend]
    exact List.findIdx?_cons.trans (if_pos ha)
  rw [Civ.answered, if_pos hans, if_neg h.2.2.1, hfind, Option.bind_some, hpend]
  rfl

/-- What is attributed when no address is learnt. -/
theorem AnswersOk.answered (h : AnswersOk r) (hl : ¬Learns r f) (hok : FrameOk r f t) {p : CivPending}
    (hp : (r.civ.judged .radio f t).answered f = some p) : Recent r.sent (p, t) := by
  have hmem : p ∈ Expiry.expire (·.tMs) PEND_TIMEOUT_MS t r.civ.pend := by
    rw [← (judged_unlearnt (fun h => hl h.2) t).1]
    unfold Civ.answered at hp
    split_ifs at hp
    all_goals
      obtain ⟨i, -, hi⟩ := Option.bind_eq_some_iff.1 hp
      exact List.mem_of_getElem? hi
  have hfresh : t ≤ p.tMs + PEND_TIMEOUT_MS := by
    rcases h.pend.ascending.fresh_or hmem with hf | ⟨q, hsub, hr, hf⟩
    · exact hf
    · have hlive := List.pairwise_iff_forall_sublist.1 hok.1 hsub hr
      simpa [Civ.pendLive] using hlive (by simpa [Civ.pendLive] using hf)
  have hknown := h.pend.known p ((Expiry.expire_sublist _).subset hmem)
  exact ⟨hfresh, sentOf p, hknown, rfl, rfl, rfl, hfresh⟩

/-- The radio's frame goes to a recent command or to none. -/
theorem AnswersOk.attributed (h : AnswersOk r) (hok : FrameOk r f t) {p : CivPending}
    (hp : (r.civ.judged .radio f t).answered f = some p) : Recent r.sent (p, t) := by
  by_cases hl : Learns r f
  · obtain ⟨hle, h0, hto, ha⟩ := hok.2 hl
    rw [answered_learnt hl (h.quiet hl.1) h0 hto ha] at hp
    obtain rfl := Option.some.inj hp
    exact ⟨Nat.le_add_right _ _, _, h.last hl.2.2.2.1, rfl, rfl, rfl, hle⟩
  · exact h.answered hl hok hp

/-- The pending commands after a frame. -/
theorem AnswersOk.frame_pend (h : AnswersOk r) (ht : r.now ≤ t) (hf : r.frame dir client b = some f)
    (hok : dir = .radio → FrameOk r f t) :
    PendOk (r.sent ++ [⟨f, dir == .own, clientOf dir client, t⟩]) t (r.civ.feed dir client [b] t).pend := by
  have hset := (feed_frame t hf).1
  by_cases hl : dir = .radio ∧ Learns r f
  · obtain ⟨rfl, hl⟩ := hl
    obtain ⟨-, h0, hto, ha⟩ := (hok rfl).2 hl
    have hlt := hset.taken rfl (by rw [answered_learnt hl (h.quiet hl.1) h0 hto ha]; rfl)
    rw [(judged_learnt hl (h.quiet hl.1) t).1] at hlt
    rw [List.length_eq_zero_iff.1 (Nat.lt_one_iff.1 hlt)]
    exact ⟨List.Pairwise.nil, fun _ hp => absurd hp List.not_mem_nil, fun _ hp => absurd hp List.not_mem_nil⟩
  · have hpend := (judged_unlearnt hl t).1
    have hj : PendOk (r.sent ++ [⟨f, dir == .own, clientOf dir client, t⟩]) t (r.civ.judged dir f t).pend := by
      rw [hpend]
      exact (h.pend.sublist (Expiry.expire_sublist _)).mono (fun s hs => List.mem_append_left _ hs) ht
    rcases hset.pend with hk | ⟨p, hadd, hbuf, htp, hown, hclient⟩
    · exact hj.kept hk
    · refine hj.added hadd htp (List.mem_append_right _ (List.mem_singleton.2 ?_))
      rw [sentOf, hbuf, hown, hclient, htp]
      unfold clientOf
      split_ifs <;> rfl

/-- A byte that completes a frame. -/
theorem AnswersOk.feed_some (h : AnswersOk r) (ht : r.now ≤ t) (hf : r.frame dir client b = some f)
    (hok : dir = .radio → FrameOk r f t) : AnswersOk (r.feed t dir client b) := by
  obtain ⟨hset, hlast, hdir, hclient⟩ := feed_frame t hf
  have hfeed : r.feed t dir client b = { r.note dir client f t with civ := r.civ.feed dir client [b] t, now := t } := by
    rw [feed, hf]
    rfl
  rw [hfeed]
  refine ⟨h.frame_pend ht hf hok, fun hra => ?_, fun _ => ?_, fun a ha => ?_⟩
  · have hra' : (r.civ.judged dir f t).radioAddr = 0 := hset.radioAddr.symm.trans hra
    have hl : ¬(dir = .radio ∧ Learns r f) := by
      rintro ⟨rfl, hl⟩
      rw [(judged_learnt hl (h.quiet hl.1) t).2] at hra'
      exact ((hok rfl).2 hl).2.1 hra'
    obtain ⟨hpend, hra₀⟩ := judged_unlearnt hl t
    refine (hset.unknown hra').trans ?_
    rw [hpend, h.quiet (hra₀ hra')]
    rfl
  · show (⟨(r.civ.feed dir client [b] t).last, (r.civ.feed dir client [b] t).lastDir == .own, _, _⟩ : CivSent) ∈ _
    rw [hlast, hdir, hclient]
    refine List.mem_append_right _ (List.mem_singleton.2 ?_)
    unfold clientOf
    dsimp only
    split_ifs <;> rfl
  · rcases List.mem_append.1 ha with ha | ha
    · exact (h.recent a ha).mono fun s hs => List.mem_append_left _ hs
    · split_ifs at ha with hd
      · subst hd
        obtain ⟨p, hp, rfl⟩ := Option.map_eq_some_iff.1 (Option.mem_toList.1 ha)
        exact (h.attributed (hok rfl) hp).mono fun s hs => List.mem_append_left _ hs
      · exact absurd ha List.not_mem_nil

/-- What `resendLoop` does: marks go, and one command may be renewed. -/
theorem resendLoop_cases (max t : Nat) (l : List CivPending) :
    (Civ.Kept l (Civ.resendLoop max t l).1 ∧ (Civ.resendLoop max t l).2 = none) ∨
      ∃ as p bs as' q, l = as ++ p :: bs ∧ (Civ.resendLoop max t l).1 = as' ++ q :: bs ∧
        as'.map Civ.unmarked = as.map Civ.unmarked ∧ q = { p with lost := false, resends := p.resends + 1, tMs := t } ∧
        (Civ.resendLoop max t l).2 = some q := by
  induction l with
  | nil => exact .inl ⟨.refl, rfl⟩
  | cons p l ih =>
    have hskip : ∀ p', Civ.unmarked p' = Civ.unmarked p →
        (Civ.Kept (p :: l) (p' :: (Civ.resendLoop max t l).1) ∧ (Civ.resendLoop max t l).2 = none) ∨
          ∃ as x bs as' q, p :: l = as ++ x :: bs ∧ p' :: (Civ.resendLoop max t l).1 = as' ++ q :: bs ∧
            as'.map Civ.unmarked = as.map Civ.unmarked ∧
            q = { x with lost := false, resends := x.resends + 1, tMs := t } ∧
            (Civ.resendLoop max t l).2 = some q := by
      intro p' hp'
      rcases ih with ⟨hk, hno⟩ | ⟨as, x, bs, as', q, hl, hl', has, hq, hsome⟩
      · refine .inl ⟨?_, hno⟩
        show (Civ.unmarked p' :: _).Sublist (Civ.unmarked p :: _)
        rw [hp']
        exact hk.cons_cons _
      · refine .inr ⟨p :: as, x, bs, p' :: as', q, by rw [hl]; rfl, by rw [hl']; rfl, ?_, hq, hsome⟩
        rw [List.map_cons, List.map_cons, has, hp']
    unfold Civ.resendLoop
    split_ifs with hlost hmax
    · exact hskip p rfl
    · exact hskip _ rfl
    · exact .inr ⟨[], p, l, [], _, rfl, rfl, rfl, rfl, rfl⟩

theorem AnswersOk.resend (h : AnswersOk r) (ht : r.now ≤ t) (max : Nat) : AnswersOk (r.resend t max) := by
  have hquiet : r.civ.radioAddr = 0 → (r.resend t max).civ.pend = [] := by
    intro hra
    show (Civ.resendLoop max t r.civ.pend).1 = []
    rw [h.quiet hra]
    rfl
  refine ⟨?_, hquiet, fun hne => List.mem_append_left _ (h.last hne), fun a ha => ?_⟩
  · show PendOk (r.sent ++ (Civ.resendLoop max t r.civ.pend).2.toList.map _) t (Civ.resendLoop max t r.civ.pend).1
    rcases resendLoop_cases max t r.civ.pend with ⟨hk, hno⟩ | ⟨as, p, bs, as', q, hl, hl', has, hq, hsome⟩
    · rw [hno]
      exact (h.pend.kept hk).mono (fun s hs => List.mem_append_left _ hs) ht
    · rw [hl', hsome]
      have hold : PendOk (r.sent ++ [sentOf q]) t (as ++ p :: bs) :=
        hl ▸ h.pend.mono (fun s hs => List.mem_append_left _ hs) ht
      have htime : q.tMs = t := by rw [hq]
      have hsent : [q].map (fun p => (⟨p.buf, p.own, p.client, t⟩ : CivSent)) = [sentOf q] := by
        rw [sentOf, htime]
        rfl
      show PendOk (r.sent ++ [q].map _) t _
      rw [hsent]
      exact (hold.renew htime (by rw [hq]; exact Nat.succ_pos _)
        (List.mem_append_right _ (List.mem_singleton_self _))).kept
        (.of_eq (by rw [List.map_append, List.map_append, has]))
  · exact (h.recent a ha).mono fun s hs => List.mem_append_left _ hs

theorem AnswersOk.discard (h : AnswersOk r) (client : Nat) :
    AnswersOk { r with civ := r.civ.clientDiscard client } := by
  unfold Civ.clientDiscard
  split_ifs
  · refine ⟨h.pend.sublist List.filter_sublist, fun hra => ?_, h.last, h.recent⟩
    show List.filter _ r.civ.pend = []
    rw [h.quiet hra]
    rfl
  · exact h

theorem AnswersOk.step (h : AnswersOk r) {e : CivEv} (ht : Timely r e) (hok : StepOk r e) :
    AnswersOk (r.step e) := by
  cases e with
  | feed t dir client b =>
    rcases hf : r.frame dir client b with _ | f
    · exact h.feed_none ht hf
    · refine h.feed_some ht hf fun hd => ?_
      subst hd
      exact hok f hf
  | resend t max => exact h.resend ht max
  | discard client => exact h.discard client

/-- The frames of a step that answer a command have the sender of the command that is noted with their time. The
others name none, and no command is noted. -/
def Attributes (r : CivRun) (e : CivEv) : Prop :=
  ∃ es, (r.step e).civ.out = r.civ.out ++ es ∧ ∀ x ∈ es, Civ.answerKind x.frame.kind = true →
    (∃ p, (r.step e).answers = r.answers ++ [(p, x.frame.tMs)] ∧ x.frame.own = p.own ∧ x.frame.client = p.client) ∨
      (r.step e).answers = r.answers ∧ x.frame.own = false ∧ x.frame.client = 0 ∧ x.frame.kind ≠ .reply

theorem attributes (r : CivRun) (e : CivEv) : Attributes r e := by
  cases e with
  | feed t dir client b =>
    rcases hframe : r.frame dir client b with _ | f
    · obtain ⟨es, hes, hno⟩ := (feed_inert t hframe).out
      exact ⟨es, hes, fun x hx ha => absurd (ha.symm.trans (hno x hx).2) (by decide)⟩
    · obtain ⟨x, hout, -, -, -, hans⟩ := (feed_frame t hframe).1.frame
      rw [(judged_st dir f t r.civ).2] at hout
      refine ⟨[x], hout, fun y hy ha => ?_⟩
      obtain rfl := List.mem_singleton.1 hy
      obtain ⟨rfl, htime, hown, hclient, hreply⟩ := hans ha
      have hnoted : (r.step (.feed t .radio client b)).answers =
          r.answers ++ (((r.civ.judged .radio f t).answered f).map fun p => (p, t)).toList := by
        show ((r.frame .radio client b).elim r fun f => r.note .radio client f t).answers = _
        rw [hframe]
        rfl
      rw [hnoted]
      rcases hp : (r.civ.judged .radio f t).answered f with _ | p
      · rw [hp] at hown hclient hreply
        exact .inr ⟨List.append_nil _, hown, hclient, fun hkind => absurd (hreply hkind) (by decide)⟩
      · rw [hp] at hown hclient
        exact .inl ⟨p, by rw [htime]; rfl, hown, hclient⟩
  | resend t max => exact ⟨[], (List.append_nil _).symm, fun x hx => absurd hx List.not_mem_nil⟩
  | discard client =>
    refine ⟨[], ?_, fun x hx => absurd hx List.not_mem_nil⟩
    show (r.civ.clientDiscard client).out = _
    unfold Civ.clientDiscard
    split_ifs <;> exact (List.append_nil _).symm

/-- While the time does not go back, no old command stands behind one that was sent again, and addresses
are learnt from recent commands, the radio's answers go to recent commands only. -/
theorem civ_answers_recent (radioAddr : UInt8) (freqLen : Nat) (st : CatState) (evs : List CivEv)
    (ht : Run.StepsOk step Timely ⟨.create radioAddr freqLen st, 0, 0, [], []⟩ evs)
    (hok : Run.StepsOk step StepOk ⟨.create radioAddr freqLen st, 0, 0, [], []⟩ evs) :
    (∀ a ∈ (runs radioAddr freqLen st evs).answers, Recent (runs radioAddr freqLen st evs).sent a) ∧
      Run.StepsOk step Attributes ⟨.create radioAddr freqLen st, 0, 0, [], []⟩ evs := by
  have h : AnswersOk (runs radioAddr freqLen st evs) := by
    refine Run.run_inv_of_ok (fun _ e h hok => h.step hok.1 hok.2) ?_ (ht.and hok)
    refine ⟨⟨List.Pairwise.nil, ?_, ?_⟩, fun _ => rfl, fun hne => absurd rfl hne, ?_⟩
    all_goals exact fun _ hp => absurd hp List.not_mem_nil
  exact ⟨h.recent, .of_forall attributes _ _⟩

instance (r : CivRun) (e : CivEv) : Decidable (Timely r e) := by
  cases e <;> unfold Timely <;> infer_instance

instance (r : CivRun) (e : CivEv) : Decidable (StepOk r e) := by
  unfold StepOk FrameOk
  split <;> infer_instance

/-- Two clients ask an IC-7300. The first command is lost in a collision and sent again at `again`; the
radio answers the second one at `t`. -/
def collided (again t : Nat) : List CivEv :=
  [0xfe, 0xfe, 0x94, 0xe0, 0x03, 0xfd].map (.feed 0 .host 1) ++ [.feed 5 .radio 0 CIV_COL] ++
    [0xfe, 0xfe, 0x94, 0xe1, 0x04, 0xfd].map (.feed 10 .host 2) ++ [.resend again 3] ++
    [0xfe, 0xfe, 0xe1, 0x94, 0x04, 0x01, 0xfd].map (.feed t .radio 0)

theorem civ_answers_recent_collided :
    Recent (runs 0x94 5 .init (collided 100 400)).sent
      (⟨[0xfe, 0xfe, 0x94, 0xe1, 0x04, 0xfd], 10, true, false, false, 2, false, 0⟩, 400) :=
  (civ_answers_recent 0x94 5 .init (collided 100 400) (by decide +kernel) (by decide +kernel)).1 _ (by decide +kernel)

/-- The answer comes when the second command is too old, but stands behind the first one. -/
theorem civ_answers_recent_behind :
    ¬ ∀ (radioAddr : UInt8) (freqLen : Nat) (st : CatState) (evs : List CivEv),
      Run.StepsOk step Timely ⟨.create radioAddr freqLen st, 0, 0, [], []⟩ evs →
      ∀ a ∈ (runs radioAddr freqLen st evs).answers, Recent (runs radioAddr freqLen st evs).sent a := by
  intro h
  have hmem : (⟨[0xfe, 0xfe, 0x94, 0xe1, 0x04, 0xfd], 10, true, false, false, 2, false, 0⟩, 2500) ∈
      (runs 0x94 5 .init (collided 1900 2500)).answers := by
    decide +kernel
  exact absurd (h 0x94 5 .init (collided 1900 2500) (by decide +kernel) _ hmem).1 (by decide)

end CivRun

end Mhuxd
