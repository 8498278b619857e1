import Mhuxd.YbinFrames
import Mhuxd.CatStored

/-!
# Bad answers of the older Yaesu radios

An answer with several records stores each before it reads the next one. So an answer that isn't applied
leaves the radio's state alone unless something before the record that doesn't fit was stored (`cutShort`).
-/

namespace Mhuxd

namespace Ybin

variable {y : Ybin} {t : Nat} {a : List UInt8}

/-! ### The pieces of an answer -/

/-- What an answer stores in one go: the VFO selection, or a record. -/
inductive Piece
  | vfo (ab : Bool)
  | record (ab : Option Bool) (hz : Nat) (mode : CatMode)
deriving DecidableEq

def Piece.store (y : Ybin) (t : Nat) : Piece → Ybin
  | .vfo ab => y.selectVfo ab t
  | .record ab hz mode => (y.setFreq ab hz t).setMode ab mode t

/-- A record, if it fits. -/
def readRec (fam : Family) (a : List UInt8) (r : Rec) (ab : Option Bool) : Option Piece :=
  match recHz fam a r with
  | none => none
  | some hz =>
    let mode := recMode fam (a.getD r.mo 0) (a.getD (r.mo + r.fl) 0)
    if hz = 0 ∨ mode = .none then none else some (.record ab hz mode)

/-- Pieces are stored up to the first one that doesn't fit. -/
def storeAll (t : Nat) : List (Option Piece) → Ybin → Ybin × Applied
  | [], y => (y, .done)
  | none :: _, y => (y, .bad)
  | some x :: xs, y => storeAll t xs (x.store y t)

/-- The pieces before the first one that doesn't fit. -/
def ahead : List (Option Piece) → List Piece
  | [] => []
  | none :: _ => []
  | some x :: xs => x :: ahead xs

/-- The pieces of an answer with several records, in the order they are read; none of the answers that are
stored as a whole. -/
def pieces (m : YbinModel) (c a : List UInt8) : List (Option Piece) :=
  match m.fam with
  | .f817 | .f847 => []
  | .f757 =>
    if (cmdOp c ≠ 0x10 ∧ cmdOp c ≠ 0x0e) ∨ a.length ≠ 75 then []
    else
      (if bit (a.getD 0 0) 0x10 then [] else [some (.vfo (bit (a.getD 0 0) 0x08))]) ++
        [readRec .f757 a ⟨5, 9, 0⟩ none, readRec .f757 a ⟨10, 14, 0⟩ (some false),
          readRec .f757 a ⟨15, 19, 0⟩ (some true)]
  | fam =>
    if cmdOp c ≠ 0x10 ∨ (cmdU c ≠ 2 ∧ cmdU c ≠ 3) then []
    else
      match fam with
      | .f900 => if cmdU c = 2 then [] else [readRec fam a ⟨1, 6, 2⟩ (some false),
        readRec fam a ⟨10, 15, 2⟩ (some true)]
      | .f920 => [readRec fam a ⟨1, 7, 1⟩ (some false), readRec fam a ⟨15, 21, 1⟩ (some true)]
      | _ =>
        if cmdU c = 2 then []
        else [readRec fam a ⟨1, 7, 1⟩ (some false), readRec fam (a.drop 16) ⟨1, 7, 1⟩ (some true)]

/-- What an answer with a piece that doesn't fit has stored before. -/
def cutShort (m : YbinModel) (c a : List UInt8) : List Piece :=
  if none ∈ pieces m c a then ahead (pieces m c a) else []

theorem storeAll_eq (xs : List (Option Piece)) (y : Ybin) :
    storeAll t xs y = ((ahead xs).foldl (fun y x => x.store y t) y, if none ∈ xs then .bad else .done) := by
  induction xs generalizing y with
  | nil => rfl
  | cons x xs ih =>
    cases x with
    | none => simp [storeAll, ahead]
    | some x => simp [storeAll, ahead, ih]

/-! ### Answers are stored piece by piece -/

theorem recApply_eq (ab : Option Bool) (a : List UInt8) (r : Rec) :
    y.recApply ab a r t = storeAll t [readRec y.model.fam a r ab] y := by
  unfold recApply readRec
  cases recHz y.model.fam a r with
  | none => rfl
  | some hz =>
    dsimp only
    split_ifs <;> rfl

@[simp] theorem store_model (x : Piece) : (x.store y t).model = y.model := by cases x <;> rfl

theorem recApply2_eq (ab ab' : Option Bool) (a a' : List UInt8) (r r' : Rec) : y.recApply2 ab a r ab' a' r' t =
    storeAll t [readRec y.model.fam a r ab, readRec y.model.fam a' r' ab'] y := by
  unfold recApply2
  rw [recApply_eq]
  cases readRec y.model.fam a r ab with
  | none => rfl
  | some x =>
    simp only [storeAll, recApply_eq, store_model]
    rfl

/-- An answer is applied as a whole or leaves all as it was. -/
def AllOrNone (y : Ybin) (x : Ybin × Applied) : Prop := x.2 = .done ∨ x.1 = y

theorem allOrNone_same {r : Applied} : AllOrNone y (y, r) := .inr rfl

theorem allOrNone_done {z : Ybin} : AllOrNone y (z, .done) := .inl rfl

theorem allOrNone_ite {x z : Ybin × Applied} {p : Prop} [Decidable p] (hx : AllOrNone y x) (hz : AllOrNone y z) :
    AllOrNone y (if p then x else z) := by
  split_ifs
  · exact hx
  · exact hz

theorem allOrNone_recApply (ab : Option Bool) (a : List UInt8) (r : Rec) : AllOrNone y (y.recApply ab a r t) := by
  rw [recApply_eq]
  cases readRec y.model.fam a r ab with
  | none => exact allOrNone_same
  | some x => exact allOrNone_done

theorem allOrNone_applyAnswer817 (c a : List UInt8) : AllOrNone y (y.applyAnswer817 c a t) := by
  unfold applyAnswer817 applyEeprom
  refine allOrNone_ite ?_ (allOrNone_ite allOrNone_same ?_)
  · exact allOrNone_ite allOrNone_same (allOrNone_ite allOrNone_done (allOrNone_ite allOrNone_done allOrNone_same))
  · cases decBcd (a.take 4) true with
    | none => exact allOrNone_same
    | some hz => exact allOrNone_ite allOrNone_same allOrNone_done

theorem allOrNone_applyFlags (flags : UInt8) : AllOrNone y (y.applyFlags flags t) := by
  unfold applyFlags
  split
  · exact allOrNone_done
  · exact allOrNone_done
  · exact allOrNone_done
  · exact allOrNone_done
  · exact allOrNone_done
  · exact allOrNone_same

/-- An answer that is stored piece by piece, or as a whole if it has no pieces. -/
def InPieces (y : Ybin) (xs : List (Option Piece)) (x : Ybin × Applied) (t : Nat) : Prop :=
  if xs = [] then AllOrNone y x else x = storeAll t xs y

theorem inPieces_nil {x : Ybin × Applied} (h : AllOrNone y x) : InPieces y [] x t := h

theorem inPieces_storeAll {xs : List (Option Piece)} (h : xs ≠ []) : InPieces y xs (storeAll t xs y) t := by
  rw [InPieces, if_neg h]

theorem inPieces_applyAnswer757 (c a : List UInt8) (hfam : y.model.fam = .f757) :
    InPieces y (pieces y.model c a) (y.applyAnswer757 c a t) t := by
  unfold pieces applyAnswer757
  rw [hfam]
  dsimp only
  by_cases hc : (cmdOp c ≠ 0x10 ∧ cmdOp c ≠ 0x0e) ∨ a.length ≠ 75
  · rw [if_pos hc, if_pos hc]
    exact inPieces_nil allOrNone_same
  · rw [if_neg hc, if_neg hc]
    -- the records after the selection
    have hrecs : ∀ z : Ybin, z.model.fam = .f757 →
        (if (z.recApply none a ⟨5, 9, 0⟩ t).2 = .bad then ((z.recApply none a ⟨5, 9, 0⟩ t).1, Applied.bad)
          else (z.recApply none a ⟨5, 9, 0⟩ t).1.recApply2 (some false) a ⟨10, 14, 0⟩
            (some true) a ⟨15, 19, 0⟩ t) =
        storeAll t [readRec .f757 a ⟨5, 9, 0⟩ none, readRec .f757 a ⟨10, 14, 0⟩ (some false),
          readRec .f757 a ⟨15, 19, 0⟩ (some true)] z := by
      intro z hz
      rw [recApply_eq, hz]
      cases readRec .f757 a ⟨5, 9, 0⟩ none with
      | none => rfl
      | some x =>
        simp only [storeAll, recApply2_eq, store_model, hz]
        rfl
    rw [hrecs]
    · cases bit (a.getD 0 0) 0x10 with
      | true => exact inPieces_storeAll (by simp)
      | false => exact inPieces_storeAll (by simp)
    · split_ifs
      · exact hfam
      · exact hfam

theorem inPieces_applyRecords (c a : List UInt8) (h8 : y.model.fam ≠ .f817) (h84 : y.model.fam ≠ .f847)
    (h7 : y.model.fam ≠ .f757) (hc : ¬(cmdOp c ≠ 0x10 ∨ (cmdU c ≠ 2 ∧ cmdU c ≠ 3))) :
    InPieces y (pieces y.model c a) (y.applyRecords (cmdU c) a t) t := by
  unfold pieces applyRecords
  simp only [recApply2_eq]
  cases hfam : y.model.fam with
  | f757 => exact absurd hfam h7
  | f817 => exact absurd hfam h8
  | f847 => exact absurd hfam h84
  | f920 =>
    dsimp only
    rw [if_neg hc]
    exact inPieces_storeAll (by simp)
  | _ =>
    dsimp only
    rw [if_neg hc]
    split_ifs
    · exact inPieces_nil (allOrNone_recApply _ _ _)
    · exact inPieces_storeAll (by simp)

theorem inPieces_applyAnswer (y : Ybin) (c a : List UInt8) (t : Nat) :
    InPieces y (pieces y.model c a) (y.applyAnswer c a t) t := by
  unfold applyAnswer
  cases hfam : y.model.fam with
  | f817 =>
    unfold pieces
    rw [hfam]
    exact inPieces_nil (allOrNone_applyAnswer817 c a)
  | f847 =>
    unfold pieces
    rw [hfam]
    exact inPieces_nil (allOrNone_applyAnswer817 c a)
  | f757 => exact inPieces_applyAnswer757 c a hfam
  | _ =>
    dsimp only
    by_cases hc : cmdOp c ≠ 0x10 ∨ (cmdU c ≠ 2 ∧ cmdU c ≠ 3)
    · have hnone : pieces y.model c a = [] := by
        unfold pieces
        rw [hfam]
        exact if_pos hc
      rw [hnone, if_pos hc]
      exact inPieces_nil (allOrNone_ite (allOrNone_applyFlags _) allOrNone_same)
    · have hfa : cmdOp c ≠ 0xfa := by
        intro hfa
        rw [hfa] at hc
        exact hc (.inl (by decide))
      rw [if_neg hfa, if_neg hc]
      exact inPieces_applyRecords c a (by simp [hfam]) (by simp [hfam]) (by simp [hfam]) hc

/-! ### Storing what is there -/

/-- The data flag a mode says. -/
def saysData (mode : CatMode) : Option Bool :=
  if mode.withoutData.2 then some true else if mode.withData true ≠ mode then some false else none

/-- Where a VFO is. -/
def vfoSlot (st : CatState) (ab : Option Bool) : Vfo := ab.elim .sel fun ab => if ab =
    st.vfoAb.val then .sel else .unsel

theorem slotOf_eq (ab : Option Bool) : y.slotOf ab = vfoSlot y.st ab := by cases ab <;> rfl

/-- The radio's state has the piece already, from the same time. -/
def Piece.Held (st : CatState) (t : Nat) : Piece → Prop
  | .vfo ab => st.vfoAb = ⟨ab, t, true⟩
  | .record ab hz mode =>
    let v := st.vfo (vfoSlot st ab)
    v.freq = ⟨hz, t, true⟩ ∧ v.mode = ⟨mode.withoutData.1, t, true⟩ ∧ ∀ d ∈ saysData mode, v.data = ⟨d, t, true⟩

instance (st : CatState) (t : Nat) (x : Piece) : Decidable (x.Held st t) := by
  cases x <;> (unfold Piece.Held; infer_instance)

/-- A mode with what it says of data. -/
def modeStored (st : CatState) (slot : Vfo) (mode : CatMode) (t : Nat) : CatState :=
  (saysData mode).elim (st.setBase slot mode.withoutData.1 t) fun d =>
  (st.setBase slot mode.withoutData.1 t).setData slot d t

theorem setMode_st (ab : Option Bool) {mode : CatMode} (h : mode ≠ .none) :
    (y.setMode ab mode t).st = modeStored y.st (y.slotOf ab) mode t := by
  unfold Ybin.setMode modeStored saysData
  dsimp only
  rw [setMode_eq h]
  cases mode <;> rfl

theorem stored_modeStored {st : CatState} (slot : Vfo) (mode : CatMode) :
    Stored t st (modeStored st slot mode t) := by
  unfold modeStored
  cases saysData mode with
  | none => exact stored_setBase _
  | some d => exact (stored_setBase _).trans (stored_setData _)

theorem modeStored_eq_iff {st : CatState} {slot : Vfo} {mode : CatMode} : modeStored st slot mode t = st ↔
    (st.vfo slot).mode = ⟨mode.withoutData.1, t, true⟩ ∧ ∀ d ∈ saysData mode, (st.vfo slot).data =
    ⟨d, t, true⟩ := by
  unfold modeStored
  cases saysData mode with
  | none => exact setBase_eq_iff.trans ⟨fun h => ⟨h, nofun⟩, And.left⟩
  | some d =>
    refine ((stored_setBase _).eq_iff (stored_setData _)).trans ⟨fun h => ?_, fun h => ?_⟩
    · have hdata := setData_eq_iff.1 h.2
      rw [h.1] at hdata
      exact ⟨setBase_eq_iff.1 h.1, fun d' hd => (Option.some.inj hd) ▸ hdata⟩
    · have hbase := setBase_eq_iff.2 h.1
      exact ⟨hbase, setData_eq_iff.2 (by rw [hbase]; exact h.2 d rfl)⟩

theorem slotOf_setFreq (ab : Option Bool) (hz : Nat) : (y.setFreq ab hz t).slotOf ab = y.slotOf ab := by
  cases ab with
  | none => rfl
  | some ab => simp [slotOf, Ybin.setFreq, setFreq_vfoAb]

/-- A piece that fits has a mode. -/
def Piece.Fits : Piece → Prop
  | .vfo _ => True
  | .record _ _ mode => mode ≠ .none

theorem stored_store {x : Piece} (h : x.Fits) : Stored t y.st (x.store y t).st := by
  cases x with
  | vfo ab => exact stored_selectVfo ab
  | record ab hz mode =>
    show Stored t y.st ((y.setFreq ab hz t).setMode ab mode t).st
    rw [setMode_st ab h]
    exact (stored_setFreq hz).trans (stored_modeStored _ mode)

theorem store_eq_iff {x : Piece} (h : x.Fits) : (x.store y t).st = y.st ↔ x.Held y.st t := by
  cases x with
  | vfo ab => exact selectVfo_eq_iff
  | record ab hz mode =>
    show ((y.setFreq ab hz t).setMode ab mode t).st = y.st ↔ _
    rw [setMode_st ab h, slotOf_setFreq]
    refine ((stored_setFreq hz).eq_iff (stored_modeStored (y.slotOf ab) mode)).trans ?_
    unfold Piece.Held
    dsimp only
    rw [← slotOf_eq]
    constructor
    · rintro ⟨hfreq, hmode⟩
      have hmode := modeStored_eq_iff.1 hmode
      rw [hfreq] at hmode
      exact ⟨setFreq_eq_iff.1 hfreq, hmode⟩
    · rintro ⟨hfreq, hmode⟩
      have hfreq := setFreq_eq_iff.2 hfreq
      refine ⟨hfreq, modeStored_eq_iff.2 ?_⟩
      rw [hfreq]
      exact hmode

theorem store_self {x : Piece} (h : (x.store y t).st = y.st) : x.store y t = y := by
  cases x with
  | vfo ab => exact congrArg (fun st => { y with st := st }) h
  | record ab hz mode => exact congrArg (fun st => { y with st := st }) h

theorem fits_of_readRec {fam : Family} {r : Rec} {ab : Option Bool} {x : Piece} (h : readRec fam a r ab = some x) :
    x.Fits := by
  unfold readRec at h
  split at h
  · exact nomatch h
  · dsimp only at h
    split_ifs at h with hno
    obtain rfl := Option.some.inj h
    exact (not_or.1 hno).2

theorem pieces_fit {m : YbinModel} {c : List UInt8} {x : Piece} (h : some x ∈ pieces m c a) : x.Fits := by
  have hpair : ∀ {fam a a' r r' ab ab'}, some x ∈ [readRec fam a r ab, readRec fam a' r' ab'] → x.Fits := by
    intro fam a a' r r' ab ab' hx
    rcases List.mem_cons.1 hx with hx | hx
    · exact fits_of_readRec hx.symm
    · exact fits_of_readRec (List.mem_singleton.1 hx).symm
  unfold pieces at h
  cases hfam : m.fam with
  | f817 => simp [hfam] at h
  | f847 => simp [hfam] at h
  | f757 =>
    rw [hfam] at h
    dsimp only at h
    split_ifs at h
    · exact nomatch h
    · rcases List.mem_cons.1 h with h | h
      · exact fits_of_readRec h.symm
      · exact hpair h
    · rcases List.mem_cons.1 h with h | h
      · rw [Option.some.inj h]
        trivial
      · rcases List.mem_cons.1 h with h | h
        · exact fits_of_readRec h.symm
        · exact hpair h
  | _ =>
    rw [hfam] at h
    dsimp only at h
    split_ifs at h
    all_goals first
      | exact absurd h List.not_mem_nil
      | exact hpair h

theorem mem_of_mem_ahead {xs : List (Option Piece)} {x : Piece} (h : x ∈ ahead xs) : some x ∈ xs := by
  induction xs with
  | nil => exact nomatch h
  | cons z xs ih =>
    cases z with
    | none => exact nomatch h
    | some z =>
      rcases List.mem_cons.1 h with rfl | h
      · exact List.mem_cons_self
      · exact List.mem_cons_of_mem _ (ih h)

theorem stored_foldl {xs : List Piece} (h : ∀ x ∈ xs, x.Fits) (y : Ybin) :
    Stored t y.st (xs.foldl (fun y x => x.store y t) y).st := by
  induction xs generalizing y with
  | nil => exact .refl
  | cons x xs ih =>
    exact (stored_store (h x List.mem_cons_self)).trans (ih (fun z hz => h z (List.mem_cons_of_mem _ hz)) _)

/-- Pieces leave the state as it was if and only if it had each of them. -/
theorem foldl_store_eq_iff {xs : List Piece} (h : ∀ x ∈ xs, x.Fits) (y : Ybin) :
    (xs.foldl (fun y x => x.store y t) y).st = y.st ↔ ∀ x ∈ xs, x.Held y.st t := by
  induction xs with
  | nil => exact ⟨fun _ => nofun, fun _ => rfl⟩
  | cons x xs ih =>
    have hx := h x List.mem_cons_self
    have hxs : ∀ z ∈ xs, z.Fits := fun z hz => h z (List.mem_cons_of_mem _ hz)
    have ih := ih hxs
    rw [List.forall_mem_cons, ← store_eq_iff hx]
    refine ((stored_store hx).eq_iff (stored_foldl hxs (x.store y t))).trans ?_
    constructor
    · rintro ⟨hst, hrest⟩
      rw [store_self hst] at hrest
      exact ⟨hst, ih.1 hrest⟩
    · rintro ⟨hst, hrest⟩
      rw [store_self hst]
      exact ⟨rfl, ih.2 hrest⟩

/-! ### Answers of the radio -/

/-- What is stored of the answer to a command that has a piece that doesn't fit. -/
def lostPieces (y : Ybin) (p : YbinPending) (complete : Bool) : List Piece :=
  if complete = true ∧ p.len ≤ YBIN_MAX_FRAME then cutShort y.model p.cmd y.ans else []

/-- What an answer stores that isn't applied. -/
theorem applyAnswer_unapplied {c : List UInt8} (h : (y.applyAnswer c a t).2 ≠ .done) :
    (y.applyAnswer c a t).1 = (cutShort y.model c a).foldl (fun y x => x.store y t) y := by
  have hp := inPieces_applyAnswer y c a t
  unfold InPieces at hp
  unfold cutShort
  split_ifs at hp with hnil
  · rw [hnil, if_neg List.not_mem_nil]
    exact hp.resolve_left h
  · rw [storeAll_eq] at hp
    rw [hp] at h ⊢
    split_ifs with hnone
    · rfl
    · exact absurd (if_neg hnone) h

theorem applyAnswer_cut {c : List UInt8} (h : cutShort y.model c a ≠ []) : (y.applyAnswer c a t).2 = .bad := by
  have hp := inPieces_applyAnswer y c a t
  unfold InPieces at hp
  have hnone : none ∈ pieces y.model c a := by
    by_contra hno
    exact h (if_neg hno)
  have hnil : pieces y.model c a ≠ [] := List.ne_nil_of_mem hnone
  rw [if_neg hnil, storeAll_eq] at hp
  rw [hp]
  exact if_pos hnone

theorem cutShort_fit {m : YbinModel} {c : List UInt8} : ∀ x ∈ cutShort m c a, x.Fits := by
  intro x hx
  unfold cutShort at hx
  split_ifs at hx
  · exact pieces_fit (mem_of_mem_ahead hx)
  · exact nomatch hx

/-- An answer of no byte has no pieces. -/
theorem cutShort_nil (m : YbinModel) (c : List UInt8) : cutShort m c [] = [] := by
  have hrec : ∀ fam r ab, fam ≠ Family.f757 → readRec fam [] r ab = none := by
    intro fam r ab hfam
    unfold readRec recHz
    cases fam with
    | f757 => exact absurd rfl hfam
    | _ => simp [decBe]
  have hahead : ahead (pieces m c []) = [] := by
    unfold pieces
    cases m.fam with
    | f757 => exact congrArg ahead (if_pos (.inr (by simp)))
    | f817 => rfl
    | f847 => rfl
    | _ =>
      dsimp only
      rw [hrec _ _ _ (fun h => Family.noConfusion h)]
      split_ifs <;> rfl
  rw [cutShort, hahead, ite_self]

/-- The decoder when an answer is read: its command is gone. -/
def reading (y : Ybin) (t : Nat) : Ybin := { y.pendRemove 0 with pend := dueFrom t (y.pendRemove 0).pend }

theorem answerDone_read {p : YbinPending} (hlen : p.len ≤ YBIN_MAX_FRAME) :
    y.answerDone p true t =
      let w := (y.reading t).applyAnswer p.cmd y.ans t
      if y.ans = [] then w.1
      else w.1.emit (if w.2 = .bad then .bad else if w.1.isAck p.cmd then .ack else .reply) .radio y.ans
        (w.2 == Applied.done) p.own p.client t := by
  unfold answerDone reading
  dsimp only
  rw [if_neg Bool.false_ne_true.symm, if_neg (Nat.not_lt.2 hlen)]

/-- An answer that isn't read leaves the state alone. -/
theorem answerDone_unread {p : YbinPending} {complete : Bool} (h : ¬(complete = true ∧ p.len ≤ YBIN_MAX_FRAME)) :
    (y.answerDone p complete t).st = y.st := by
  unfold answerDone
  dsimp only
  cases complete with
  | false =>
    rw [if_pos rfl]
    split_ifs <;> rfl
  | true =>
    have hlen : YBIN_MAX_FRAME < p.len := Nat.lt_of_not_le fun hle => h ⟨rfl, hle⟩
    rw [if_neg Bool.false_ne_true.symm, if_pos hlen]
    split_ifs <;> rfl

/-- The pieces that are lost are those of an answer that leaves the state changed without being applied. -/
theorem held_cutShort_iff (c : List UInt8) : (∀ x ∈ cutShort y.model c a, x.Held y.st t) ↔
    ((y.applyAnswer c a t).2 ≠ .done → (y.applyAnswer c a t).1.st = y.st) := by
  rw [← foldl_store_eq_iff cutShort_fit y]
  constructor
  · intro h hne
    rw [applyAnswer_unapplied hne]
    exact h
  · intro h
    by_cases hcut : cutShort y.model c a = []
    · rw [hcut]
      rfl
    · have hne : (y.applyAnswer c a t).2 ≠ .done := by simp [applyAnswer_cut hcut]
      rw [← h hne, applyAnswer_unapplied hne]

/-- An answer that isn't applied leaves the radio's state as it was if and only if no piece of it was stored
before the one that doesn't fit, or all of them were there already. -/
theorem ybin_bad_atomic (y : Ybin) (p : YbinPending) (complete : Bool) (t : Nat) :
    (∃ es, (y.answerDone p complete t).out = y.out ++ es ∧
      ∀ e ∈ es, e.frame.kind = .bad ∨ e.frame.applied = false → (y.answerDone p complete t).st = y.st) ↔
    ∀ x ∈ y.lostPieces p complete, x.Held y.st t := by
  by_cases hdec : complete = true ∧ p.len ≤ YBIN_MAX_FRAME
  · obtain ⟨rfl, hlen⟩ := hdec
    have hlost : y.lostPieces p true = cutShort y.model p.cmd y.ans := if_pos ⟨rfl, hlen⟩
    have hiff := held_cutShort_iff (y := y.reading t) (a := y.ans) (t := t) p.cmd
    have hout : ((y.reading t).applyAnswer p.cmd y.ans t).1.out = y.out := by
      obtain ⟨st, hst, -⟩ := noted_applyAnswer (y := y.reading t) (t := t) p.cmd y.ans
      rw [hst]
      rfl
    rw [hlost, answerDone_read hlen]
    generalize (y.reading t).applyAnswer p.cmd y.ans t = w at hiff hout
    dsimp only
    by_cases hans : y.ans = []
    · rw [if_pos hans, hans, cutShort_nil]
      exact ⟨fun _ => nofun, fun _ => ⟨[], by rw [hout, List.append_nil], nofun⟩⟩
    · rw [if_neg hans]
      refine Iff.trans ⟨?_, fun h => ?_⟩ hiff.symm
      · rintro ⟨es, hes, himp⟩ hne
        have heq := (congrArg (· ++ _) hout).symm.trans hes
        obtain rfl := List.append_cancel_left heq
        exact himp _ (List.mem_singleton_self _) (.inr (by simpa using hne))
      · refine ⟨_, congrArg (· ++ _) hout, fun e he hbad => h fun hd => ?_⟩
        obtain rfl := List.mem_singleton.1 he
        rw [hd] at hbad
        rcases hbad with hbad | hbad
        · dsimp only at hbad
          rw [if_neg (by decide)] at hbad
          split_ifs at hbad
        · have hne : true = false := hbad
          exact nomatch hne
  · have hlost : y.lostPieces p complete = [] := if_neg hdec
    obtain ⟨st, kind, applied, -, heq⟩ := answerDone_eq y p complete t
    rw [hlost, answerDone_unread hdec, heq]
    refine ⟨fun _ => nofun, fun _ => ?_⟩
    by_cases hans : y.ans = []
    · rw [if_pos hans]
      exact ⟨[], by simp [answered], nofun⟩
    · rw [if_neg hans]
      exact ⟨_, rfl, fun _ _ _ => rfl⟩

/-- The VFO data of an FT-920: 14.074 MHz and USB on VFO A, nothing on VFO B. -/
def ft920Dump : List UInt8 := [0x00, 0x00, 0xd6, 0xc0, 0x90, 0x00, 0x00, 0x40] ++ List.replicate 20 0

/-- The command for it. -/
def ft920Read : YbinPending := ⟨[0x00, 0x00, 0x00, 0x03, 0x10], 28, false, false, 1, 28, 0, 5⟩

/-- A decoder that knows the VFO and has the answer to its first command. -/
def ft920Answered : Ybin :=
  { create .ft920 (CatState.init.selectVfo false 0) with
    pend := [ft920Read]
    ans := ft920Dump }

/-- VFO B doesn't fit: the frequency of VFO A stays. -/
theorem ybin_bad_stored :
    ¬ ∀ (y : Ybin) (p : YbinPending) (complete : Bool) (t : Nat), y.st.vfoAb.valid = true →
      ∃ es, (y.answerDone p complete t).out = y.out ++ es ∧
        ∀ e ∈ es, e.frame.kind = .bad ∨ e.frame.applied = false → (y.answerDone p complete t).st = y.st := by
  intro h
  obtain ⟨es, hes, himp⟩ := h ft920Answered ft920Read true 5 rfl
  have hbad : (ft920Answered.answerDone ft920Read true 5).out =
      [⟨⟨.bad, .radio, 5, ft920Dump, false, false, 1⟩, 0⟩] := by decide
  rw [hbad] at hes
  have hst := congrArg CatState.changes (himp _ (hes ▸ List.mem_singleton_self _) (.inl rfl))
  exact absurd hst (by decide)

end Ybin

end Mhuxd
