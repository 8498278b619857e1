import Mhuxd.CatCiv

/-!
# The CI-V framers

A framer is an automaton of its own (`rxNext`): the decoder's other state has no part in where frames
begin and end. What it completes is a well-formed frame (`WellFormed`), and a byte that completes none
leaves everything but the framers and the lost marks alone (`Inert`).
-/

namespace Mhuxd

namespace Civ

variable {civ civ' : Civ} {dir : CatDir} {client t : Nat} {src : Src} {b : UInt8} {f : List UInt8}

/-! ### Frames -/

/-- `FE FE ... FD` with nothing of the framing inside, not too short and not too long. -/
structure WellFormed (f : List UInt8) : Prop where
  shape : ∃ body, f = [CIV_PRE, CIV_PRE] ++ body ++ [CIV_EOM] ∧ ∀ x ∈ body, x ≠ CIV_PRE ∧ x ≠ CIV_EOM ∧ x ≠ CIV_COL
  long : CIV_MIN_LEN ≤ f.length
  short : f.length ≤ CIV_MAX_FRAME

/-- The framer inside a frame after a byte. -/
def rxInside (buf : List UInt8) (b : UInt8) (t : Nat) : CivRx :=
  if b = CIV_PRE then (if 2 < buf.length then ⟨[], .pre, t⟩ else ⟨buf, .frame, t⟩)
  else if b = CIV_EOM then ⟨[], .idle, t⟩
  else if buf.length + 1 < CIV_MAX_FRAME then ⟨buf ++ [b], .frame, t⟩
  else ⟨[], .skip, t⟩

/-- The framer after a byte. -/
def rxNext (rx : CivRx) (b : UInt8) (t : Nat) : CivRx :=
  if b = CIV_COL then ⟨[], .idle, t⟩
  else
    match rx.state with
    | .idle => ⟨rx.buf, if b = CIV_PRE then .pre else .idle, t⟩
    | .pre => if b = CIV_PRE then ⟨[CIV_PRE, CIV_PRE], .frame, t⟩ else ⟨rx.buf, .idle, t⟩
    | .frame => rxInside rx.buf b t
    | .skip => ⟨rx.buf, if b = CIV_EOM then .idle else if b = CIV_PRE then .pre else .skip, t⟩

/-- The frame that a byte completes. -/
def completes (rx : CivRx) (b : UInt8) : Option (List UInt8) :=
  if rx.state = .frame ∧ b = CIV_EOM ∧ CIV_MIN_LEN ≤ rx.buf.length + 1 then some (rx.buf ++ [b]) else none

/-- What is in the buffer inside a frame. -/
def RxOk (rx : CivRx) : Prop :=
  rx.state = .frame → (∃ body, rx.buf = [CIV_PRE, CIV_PRE] ++ body ∧
    ∀ x ∈ body, x ≠ CIV_PRE ∧ x ≠ CIV_EOM ∧ x ≠ CIV_COL) ∧ rx.buf.length < CIV_MAX_FRAME

theorem RxOk.inside {rx : CivRx} (h : RxOk rx) (hs : rx.state = .frame) (hcol : b ≠ CIV_COL) :
    RxOk (rxInside rx.buf b t) := by
  unfold rxInside
  split_ifs with hpre hlen heom hmax
  · exact fun hs => nomatch hs
  · exact fun _ => h hs
  · exact fun hs => nomatch hs
  · obtain ⟨⟨body, hbuf, hbody⟩, -⟩ := h hs
    refine fun _ => ⟨⟨body ++ [b], by rw [hbuf, List.append_assoc], fun x hx => ?_⟩, by simpa using hmax⟩
    rcases List.mem_append.1 hx with hx | hx
    · exact hbody x hx
    · rw [List.mem_singleton.1 hx]
      exact ⟨hpre, heom, hcol⟩
  · exact fun hs => nomatch hs

theorem RxOk.next {rx : CivRx} (h : RxOk rx) : RxOk (rxNext rx b t) := by
  by_cases hcol : b = CIV_COL
  · rw [rxNext, if_pos hcol]
    exact fun hs => nomatch hs
  · rw [rxNext, if_neg hcol]
    rcases hs : rx.state with _ | _ | _ | _
    · simp [RxOk]
      split_ifs <;> simp
    · dsimp only
      split_ifs
      · exact fun _ => ⟨⟨[], rfl, fun _ hx => absurd hx List.not_mem_nil⟩, by simp [CIV_MAX_FRAME]⟩
      · exact fun hs => nomatch hs
    · exact h.inside hs hcol
    · simp [RxOk]
      split_ifs <;> simp

theorem RxOk.completes {rx : CivRx} (h : RxOk rx) (hf : completes rx b = some f) : WellFormed f := by
  unfold Civ.completes at hf
  split_ifs at hf with hc
  obtain rfl := Option.some.inj hf
  obtain ⟨hs, rfl, hlen⟩ := hc
  obtain ⟨⟨body, hbuf, hbody⟩, hmax⟩ := h hs
  exact ⟨⟨body, by rw [hbuf], hbody⟩, by simpa using hlen, by rw [List.length_append]; exact hmax⟩

/-! ### Bytes -/

/-- The command without the marks of the echo and of a collision. -/
def unmarked (p : CivPending) : CivPending := { p with echoed := false, lost := false }

/-- Of the pending commands some are gone, and others marked. -/
def Kept (l l' : List CivPending) : Prop := (l'.map unmarked).Sublist (l.map unmarked)

theorem Kept.refl {l : List CivPending} : Kept l l := List.Sublist.refl _

theorem Kept.trans {l l' l'' : List CivPending} (h : Kept l l') (h' : Kept l' l'') : Kept l l'' :=
  List.Sublist.trans h' h

theorem Kept.of_sublist {l l' : List CivPending} (h : l'.Sublist l) : Kept l l' := h.map _

theorem Kept.of_eq {l l' : List CivPending} (h : l'.map unmarked = l.map unmarked) : Kept l l' := by
  have hself := List.Sublist.refl (l'.map unmarked)
  rw [h] at hself
  exact (congrArg (fun m => m.Sublist (l.map unmarked)) h).mpr hself

theorem Kept.of_map {l : List CivPending} {g : CivPending → CivPending} (hg : ∀ p, unmarked (g p) = unmarked p) :
    Kept l (l.map g) := .of_eq (by rw [List.map_map, show unmarked ∘ g = unmarked from funext hg])

theorem Kept.of_modify {l : List CivPending} {i : Nat} {g : CivPending → CivPending}
    (hg : ∀ p, unmarked (g p) = unmarked p) : Kept l (l.modify i g) := by
  induction l generalizing i with
  | nil => exact .of_eq (by simp)
  | cons p l ih =>
    cases i with
    | zero => exact .of_eq (by simp [hg])
    | succ i => exact List.Sublist.cons_cons _ ih

/-- The radio answers a command with a frame of this kind, or with one that is given up for its values. -/
def answerKind (kind : FrameKind) : Bool := kind == .reply || kind == .ack || kind == .nak || kind == .bad

/-- Nothing happens but frames that carry no state and answer nothing, and marks. -/
structure Inert (civ civ' : Civ) : Prop where
  st : civ'.st = civ.st
  radioAddr : civ'.radioAddr = civ.radioAddr
  last : (civ'.last, civ'.lastDir, civ'.lastClient) = (civ.last, civ.lastDir, civ.lastClient)
  pend : Kept civ.pend civ'.pend
  out : ∃ es, civ'.out = civ.out ++ es ∧ ∀ e ∈ es, e.frame.applied = false ∧ answerKind e.frame.kind = false

namespace Inert

theorem refl : Inert civ civ := ⟨rfl, rfl, rfl, .refl, [], (List.append_nil _).symm, fun _ he =>
    absurd he List.not_mem_nil⟩

theorem trans {a b c : Civ} (h : Inert a b) (h' : Inert b c) : Inert a c := by
  obtain ⟨es, hes, hno⟩ := h.out
  obtain ⟨es', hes', hno'⟩ := h'.out
  refine ⟨h'.st.trans h.st, h'.radioAddr.trans h.radioAddr, h'.last.trans h.last, h.pend.trans h'.pend, es ++
    es', ?_, ?_⟩
  · rw [hes', hes, List.append_assoc]
  · intro e he
    rcases List.mem_append.1 he with he | he
    · exact hno e he
    · exact hno' e he

theorem setRx (src : Src) (rx : CivRx) : Inert civ (civ.setRx src rx) :=
  ⟨rfl, rfl, rfl, .refl, [], (List.append_nil _).symm, fun _ he => absurd he List.not_mem_nil⟩

theorem emit {kind : FrameKind} {buf : List UInt8} {own : Bool} (hkind : answerKind kind = false) :
    Inert civ (civ.emit kind dir buf false own client t) :=
  ⟨rfl, rfl, rfl, .refl, [_], rfl, fun e he => by rw [List.mem_singleton.1 he]; exact ⟨rfl, hkind⟩⟩

end Inert

theorem inert_rxDrop : Inert civ (civ.rxDrop dir client src t) := by
  unfold rxDrop
  dsimp only
  split_ifs
  · exact (Inert.emit rfl).trans (.setRx _ _)
  · exact .setRx _ _

theorem inert_markLost : Inert civ (civ.markLost t) := by
  refine ⟨rfl, rfl, rfl, .of_map fun p => ?_, [], (List.append_nil _).symm, fun _ he => absurd he List.not_mem_nil⟩
  split_ifs <;> rfl

theorem inert_rxJam : Inert civ (civ.rxJam dir client src t) := by
  have hlost : Inert civ (if dir = .radio then civ.markLost t else civ) := by
    split_ifs
    · exact inert_markLost
    · exact .refl
  exact ((hlost.trans inert_rxDrop).trans (.emit rfl)).trans (.setRx _ _)

@[simp] theorem setRx_rx (civ : Civ) (src : Src) (rx : CivRx) :
    (civ.setRx src rx).rx = Function.update civ.rx src rx := rfl

@[simp] theorem emit_rx (civ : Civ) (kind : FrameKind) (buf : List UInt8) (applied own : Bool) :
    (civ.emit kind dir buf applied own client t).rx = civ.rx := rfl

theorem rxDrop_rx (civ : Civ) : (civ.rxDrop dir client src t).rx =
    Function.update civ.rx src { civ.rx src with buf := [] } := by
  unfold rxDrop
  dsimp only
  split_ifs <;> rfl

theorem rxJam_rx (civ : Civ) : (civ.rxJam dir client src t).rx =
    Function.update civ.rx src ⟨[], .idle, (civ.rx src).tMs⟩ := by
  have hlost : (if dir = .radio then civ.markLost t else civ).rx = civ.rx := by
    split_ifs <;> rfl
  unfold rxJam rxState
  dsimp only
  rw [setRx_rx, emit_rx, rxDrop_rx, hlost]
  simp

/-- The frame is processed: the framer is idle again. -/
def rxDone (civ : Civ) (dir : CatDir) (client : Nat) (src : Src) (f : List UInt8) (t : Nat) : Civ :=
  (civ.processFrame dir client f t).setRx src ⟨[], .idle, t⟩

@[simp] theorem pendAdd_rx (civ : Civ) : (civ.pendAdd f dir client t).rx = civ.rx := rfl

@[simp] theorem pendExpire_rx (civ : Civ) : (civ.pendExpire t).rx = civ.rx := rfl

@[simp] theorem pendConsume_rx (civ : Civ) (i : Nat) (p : CivPending) : (civ.pendConsume i p).rx = civ.rx := rfl

theorem learnAddr_rx (civ : Civ) : (civ.learnAddr dir f t).rx = civ.rx := by
  unfold learnAddr
  split_ifs <;> rfl

theorem processRadioFrame_rx (civ : Civ) : (civ.processRadioFrame f t).rx = civ.rx := by
  unfold processRadioFrame processBroadcast processAck processReply processEcho
  dsimp only
  split_ifs
  all_goals
    repeat' split
    all_goals rfl

theorem processFrame_rx (civ : Civ) : (civ.processFrame dir client f t).rx = civ.rx := by
  have hlearn : (if (civ.pendExpire t).radioAddr = 0 then (civ.pendExpire t).learnAddr dir f t else civ.pendExpire t).rx =
      civ.rx := by
    split_ifs
    · exact learnAddr_rx _
    · rfl
  unfold processFrame
  dsimp only
  split_ifs <;> simp_all [processRadioFrame_rx]

/-- What a byte does inside a frame, the time noted. -/
theorem rxFrame_cases (hs : (civ.rx src).state = .frame) (ht : (civ.rx src).tMs = t) :
    (∃ f, completes (civ.rx src) b = some f ∧ civ.rxFrame dir client src b t = civ.rxDone dir client src f t) ∨
      (completes (civ.rx src) b = none ∧ Inert civ (civ.rxFrame dir client src b t) ∧
        (civ.rxFrame dir client src b t).rx = Function.update civ.rx src (rxInside (civ.rx src).buf b t)) := by
  have hdrop : ∀ state, Inert civ ((civ.rxDrop dir client src t).rxState src state) ∧
      ((civ.rxDrop dir client src t).rxState src state).rx = Function.update civ.rx src ⟨[], state, t⟩ := by
    intro state
    refine ⟨inert_rxDrop.trans (.setRx _ _), ?_⟩
    unfold rxState
    rw [setRx_rx, rxDrop_rx]
    simp [ht]
  have hpreEom : CIV_PRE ≠ CIV_EOM := by decide
  by_cases hpre : b = CIV_PRE
  · have hnone : completes (civ.rx src) b = none := if_neg fun h => hpreEom (hpre.symm.trans h.2.1)
    right
    unfold rxFrame rxInside
    rw [if_pos hpre, if_pos hpre]
    split_ifs with hlen
    · exact ⟨hnone, hdrop .pre⟩
    · exact ⟨hnone, .refl, by rw [← ht, ← hs, Function.update_eq_self]⟩
  · by_cases heom : b = CIV_EOM
    · unfold rxFrame rxInside
      rw [if_neg hpre, if_neg hpre, if_pos heom, if_pos heom]
      by_cases hmin : CIV_MIN_LEN ≤ (civ.rx src).buf.length + 1
      · refine .inl ⟨_, if_pos ⟨hs, heom, hmin⟩, ?_⟩
        rw [if_pos hmin]
        unfold rxDone rxState setRx
        simp [processFrame_rx, ht]
      · right
        rw [if_neg hmin]
        exact ⟨if_neg fun h => hmin h.2.2, hdrop .idle⟩
    · have hnone : completes (civ.rx src) b = none := if_neg fun h => heom h.2.1
      right
      unfold rxFrame rxInside
      rw [if_neg hpre, if_neg hpre, if_neg heom, if_neg heom]
      split_ifs with hmax
      · exact ⟨hnone, .setRx _ _, by rw [setRx_rx, ← ht, ← hs]⟩
      · exact ⟨hnone, hdrop .skip⟩

/-- What a byte does. -/
theorem rxByte_cases (civ : Civ) (dir : CatDir) (client : Nat) (src : Src) (b : UInt8) (t : Nat) :
    (∃ f, completes (civ.rx src) b = some f ∧ civ.rxByte dir client src b t =
        (civ.setRx src { civ.rx src with tMs := t }).rxDone dir client src f t) ∨
      (completes (civ.rx src) b = none ∧ Inert civ (civ.rxByte dir client src b t) ∧
        (civ.rxByte dir client src b t).rx = Function.update civ.rx src (rxNext (civ.rx src) b t)) := by
  unfold rxByte
  dsimp only
  obtain ⟨noted, hnoted⟩ : ∃ c, c = civ.setRx src { civ.rx src with tMs := t } := ⟨_, rfl⟩
  have hrx : noted.rx src = { civ.rx src with tMs := t } := by
    rw [hnoted]
    exact Function.update_self ..
  have hupd : ∀ rx, Function.update noted.rx src rx = Function.update civ.rx src rx := by
    intro rx
    rw [hnoted]
    exact Function.update_idem ..
  have hinert : Inert civ noted := by
    rw [hnoted]
    exact .setRx _ _
  have hset : ∀ rx, Inert civ (noted.setRx src rx) ∧ (noted.setRx src rx).rx = Function.update civ.rx src rx :=
    fun rx => ⟨hinert.trans (.setRx _ _), hupd rx⟩
  have hself : ∀ state, Inert civ (noted.rxState src state) ∧
      (noted.rxState src state).rx = Function.update civ.rx src ⟨(civ.rx src).buf, state, t⟩ := by
    intro state
    unfold rxState
    rw [hrx]
    exact hset _
  have hstay : Inert civ noted ∧ noted.rx = Function.update civ.rx src ⟨(civ.rx src).buf, (civ.rx src).state,
    t⟩ := by
    refine ⟨hinert, ?_⟩
    rw [hnoted]
    rfl
  have hnone : (civ.rx src).state ≠ .frame → completes (civ.rx src) b = none := fun hs => if_neg fun h => hs h.1
  rw [← hnoted]
  unfold rxNext
  by_cases hcol : b = CIV_COL
  · refine .inr ⟨if_neg fun h => absurd (hcol.symm.trans h.2.1) (by decide), ?_⟩
    rw [if_pos hcol, if_pos hcol]
    refine ⟨hinert.trans inert_rxJam, ?_⟩
    rw [rxJam_rx, hrx, hupd]
  · rw [if_neg hcol, if_neg hcol]
    rcases hs : (civ.rx src).state with _ | _ | _ | _
    · refine .inr ⟨hnone (by simp [hs]), ?_⟩
      simp only [hrx, hs]
      split_ifs
      · exact hself .pre
      · exact hs ▸ hstay
    · refine .inr ⟨hnone (by simp [hs]), ?_⟩
      simp only [hrx, hs]
      split_ifs
      · exact hset _
      · exact hself .idle
    · have hstate : (noted.rx src).state = .frame := by rw [hrx, hs]
      have htime : (noted.rx src).tMs = t := by rw [hrx]
      have hcomp : completes (noted.rx src) b = completes (civ.rx src) b := by
        rw [hrx]
        rfl
      simp only [hrx, hs]
      rcases rxFrame_cases hstate htime with ⟨f, hf, heq⟩ | ⟨hf, hin, hrx'⟩
      · exact .inl ⟨f, hcomp ▸ hf, heq⟩
      · refine .inr ⟨hcomp ▸ hf, hinert.trans hin, ?_⟩
        rw [hrx', hrx, hupd]
    · refine .inr ⟨hnone (by simp [hs]), ?_⟩
      simp only [hrx, hs]
      split_ifs
      · exact hself .idle
      · exact hself .pre
      · exact hs ▸ hstay

theorem rxByte_rx (civ : Civ) : (civ.rxByte dir client src b t).rx =
    Function.update civ.rx src (rxNext (civ.rx src) b t) := by
  rcases civ.rxByte_cases dir client src b t with ⟨f, hf, heq⟩ | ⟨-, -, hrx⟩
  · unfold completes at hf
    split_ifs at hf with hc
    have hcol : b ≠ CIV_COL := by
      rw [hc.2.1]
      decide
    have hpre : b ≠ CIV_PRE := by
      rw [hc.2.1]
      decide
    rw [heq, rxDone, setRx_rx, processFrame_rx, setRx_rx, Function.update_idem, rxNext, if_neg hcol, hc.1]
    dsimp only
    rw [rxInside, if_neg hpre, if_pos hc.2.1]
  · exact hrx

end Civ

end Mhuxd
