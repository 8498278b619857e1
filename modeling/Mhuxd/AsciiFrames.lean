import Mhuxd.CatAscii

/-!
# What a frame says to the decoder of the ASCII protocols

The functions that read a frame neither look at the framers, the pending commands and the callback nor
change them (`Blind`): what a frame does to the radio's state depends on the radio's state alone.
-/

namespace Mhuxd

namespace Ascii

variable {a a' b z : Ascii} {t : Nat}

/-- `a` with the framers, the pending commands and the frames of `z`. -/
def onto (a z : Ascii) : Ascii := { a with rx := z.rx, pend := z.pend, out := z.out }

/-- The framers, the pending commands and the callback have no part in what `f` does. -/
def Blind (f : Ascii → Ascii × Applied) : Prop := ∀ a z, f (a.onto z) = ((f a).1.onto z, (f a).2)

theorem ite_onto {x y x' y' : Ascii × Applied} {p : Prop} [Decidable p] (hx : x = (x'.1.onto z, x'.2))
    (hy : y = (y'.1.onto z, y'.2)) :
    (if p then x else y) = ((if p then x' else y').1.onto z, (if p then x' else y').2) := by
  split_ifs
  · exact hx
  · exact hy

theorem updateSplit_onto : (a.onto z).updateSplit t = (a.updateSplit t).onto z := by
  have h : (a.onto z).txAb = a.txAb := rfl
  unfold updateSplit
  rw [h]
  cases a.txAb with
  | none => rfl
  | some tx => rfl

theorem selectRx_onto (ab : Bool) : (a.onto z).selectRx ab t = (a.selectRx ab t).onto z :=
  updateSplit_onto (a := a.selectVfo ab t)

theorem k3Apply_onto (ab : Bool) : (a.onto z).k3Apply ab t = (a.k3Apply ab t).onto z := by
  have hmd : (a.onto z).k3Md = a.k3Md := rfl
  have hdt : (a.onto z).k3Dt = a.k3Dt := rfl
  have hn : (a.onto z).noData = a.noData := rfl
  unfold k3Apply
  dsimp only
  rw [hmd, hdt, hn]
  split_ifs
  · rfl
  · rfl
  · cases decModeKenwood a.noData false (chr (a.k3Md ab)) with
    | none => rfl
    | some m => rfl

theorem blind_setModeIf (ab : Bool) (m : Option ModeData) : Blind fun a => a.setModeIf ab m t := by
  intro a z
  cases m with
  | none => rfl
  | some m => rfl

theorem blind_applyModeCode (ab : Bool) (c : UInt8) (dataCodes : Bool) :
    Blind fun a => a.applyModeCode ab c dataCodes t := by
  intro a z
  have hd : (a.onto z).dialect = a.dialect := rfl
  have hn : (a.onto z).noData = a.noData := rfl
  dsimp only
  unfold applyModeCode
  rw [hd, hn]
  cases a.dialect with
  | kenwood => exact blind_setModeIf ab _ a z
  | yaesu => exact blind_setModeIf ab _ a z
  | flex => exact blind_setModeIf ab _ a z
  | elecraft =>
    dsimp only
    split_ifs
    · rfl
    · exact congrArg (·, Applied.done) 
        (k3Apply_onto (a := { a with dialect := .elecraft, k3Md := Function.update a.k3Md ab c }) ab)

theorem blind_cmdFreq (ab : Bool) (p : List UInt8) : Blind fun a => a.cmdFreq ab p t := by
  intro a z
  dsimp only
  unfold cmdFreq
  split_ifs
  · rfl
  · cases decFreq p with
    | none => rfl
    | some hz => rfl

theorem blind_ifVfo (s : List UInt8) (hz : Nat) (tx split : Bool) : Blind fun a => a.ifVfo s hz tx split t := by
  intro a z
  have hmode : ∀ (b : Ascii) (ab : Bool), (b.onto z).applyModeCode ab (s.getD 29 0) false t = _ :=
    fun b ab => blind_applyModeCode ab (s.getD 29 0) false b z
  dsimp only
  unfold ifVfo
  dsimp only
  split_ifs
  · rfl
  · exact hmode (a.setFreq a.st.vfoAb.val hz t) _
  · exact hmode ((a.selectVfo (charAt s 30 == '1') t).setFreq (a.selectVfo (charAt s 30 == '1') t).st.vfoAb.val hz t) _

theorem blind_cmdIfKenwood (s : List UInt8) : Blind fun a => a.cmdIfKenwood s t := by
  intro a z
  dsimp only
  unfold cmdIfKenwood
  by_cases h2 : s.length = 2
  · simp only [if_pos h2]
  · by_cases hlen : s.length ≠ IF_LEN_KENWOOD
    · simp only [if_neg h2, if_pos hlen]
    · simp only [if_neg h2, if_neg hlen]
      split
      · next hz tx sp _ _ _ =>
        by_cases hc : charAt s 30 < '0' ∨ '2' < charAt s 30
        · simp only [if_pos hc]
        · have h := blind_ifVfo (t := t) s hz tx sp a z
          dsimp only at h
          simp only [if_neg hc, h]
          split_ifs
          · rfl
          · rfl
      · rfl

theorem blind_cmdIfYaesu (ab : Bool) (s : List UInt8) : Blind fun a => a.cmdIfYaesu ab s t := by
  intro a z
  dsimp only
  unfold cmdIfYaesu
  dsimp only
  generalize (if s.length = 26 ∨ s.length = 29 then 8 else 9) = w
  by_cases h2 : s.length = 2
  · simp only [if_pos h2]
  · by_cases hn : s.length ≠ 26 ∧ s.length ≠ 29 ∧ s.length ≠ 27 ∧ s.length ≠ 40
    · simp only [if_neg h2, if_pos hn]
    · simp only [if_neg h2, if_neg hn]
      cases decFreq ((s.drop 5).take w) with
      | none => rfl
      | some hz => exact blind_applyModeCode ab _ false (a.setFreq ab hz t) z

theorem blind_cmdMain (s : List UInt8) (dataCodes : Bool) : Blind fun a => a.cmdMain s dataCodes t := by
  intro a z
  dsimp only
  unfold cmdMain
  split_ifs
  · rfl
  · rfl
  · cases decBool (charAt s 2) with
    | none => rfl
    | some ab => exact blind_applyModeCode ab _ dataCodes a z

theorem blind_cmdMd (s : List UInt8) : Blind fun a => a.cmdMd s t := by
  intro a z
  have hd : (a.onto z).dialect = a.dialect := rfl
  dsimp only
  unfold cmdMd
  dsimp only
  rw [hd]
  split_ifs
  · exact blind_cmdMain s false a z
  · rfl
  · exact blind_applyModeCode true _ false a z
  · rfl
  · rfl
  · exact blind_applyModeCode _ _ false a z
  · rfl

theorem blind_k3Data (s : List UInt8) : Blind fun a => a.k3Data s t := by
  intro a z
  have hk : ∀ ab c, (({ a with k3Dt := Function.update a.k3Dt ab c } : Ascii).onto z).k3Apply ab t =
      (({ a with k3Dt := Function.update a.k3Dt ab c } : Ascii).k3Apply ab t).onto z := fun ab c => k3Apply_onto ab
  have hab : (a.onto z).st = a.st := rfl
  dsimp only
  unfold k3Data
  dsimp only
  rw [hab]
  split_ifs
  all_goals first | rfl | exact congrArg (·, Applied.done) (hk _ _)

theorem blind_cmdData (s : List UInt8) : Blind fun a => a.cmdData s t := by
  intro a z
  have hd : (a.onto z).dialect = a.dialect := rfl
  dsimp only
  unfold cmdData
  rw [hd]
  split_ifs
  · exact blind_k3Data s a z
  · rfl
  · rfl
  · rfl
  · cases decBool (charAt s 2) with
    | none => rfl
    | some v => rfl

theorem blind_cmdVfo (s : List UInt8) : Blind fun a => a.cmdVfo s t := by
  intro a z
  dsimp only
  unfold cmdVfo
  dsimp only
  split_ifs
  · rfl
  · rfl
  · rfl
  · exact congrArg (·, Applied.done) (updateSplit_onto (a := { a with txAb := some (charAt s 2 == '1') }))
  · exact congrArg (·, Applied.done) (selectRx_onto _)

theorem blind_cmdSplit (c : Char) : Blind fun a => a.cmdSplit c t := by
  intro a z
  dsimp only
  unfold cmdSplit
  split_ifs
  · rfl
  · rfl

theorem blind_cmdSf (s : List UInt8) : Blind fun a => a.cmdSf s t := by
  intro a z
  dsimp only
  unfold cmdSf
  split_ifs
  · rfl
  · rfl
  · cases decBool (charAt s 2) with
    | none => rfl
    | some ab =>
      cases decFreq ((s.drop 3).take 11) with
      | none => rfl
      | some hz => exact blind_applyModeCode ab _ true (a.setFreq ab hz t) z

theorem blind_cmdZz (s : List UInt8) : Blind fun a => a.cmdZz s t := by
  intro a z
  dsimp only
  unfold cmdZz
  split_ifs
  · rfl
  · exact blind_cmdFreq _ _ a z
  · exact blind_setModeIf _ _ a z
  · exact blind_cmdSplit _ a z
  · rfl
  · rfl

theorem blind_applyFrame (s : List UInt8) (isSet : Bool) : Blind fun a => a.applyFrame s isSet t := by
  intro a z
  have hd : (a.onto z).dialect = a.dialect := rfl
  dsimp only
  unfold applyFrame
  dsimp only
  rw [hd]
  refine ite_onto rfl (ite_onto (blind_cmdFreq _ _ a z) (ite_onto (blind_cmdMd s a z) (ite_onto (blind_cmdData s a z)
    (ite_onto (ite_onto rfl (blind_cmdZz s a z)) (ite_onto rfl ?_)))))
  refine ite_onto (ite_onto (blind_cmdIfYaesu _ s a z) (blind_cmdIfKenwood s a z))
    (ite_onto (blind_cmdIfYaesu _ s a z) (ite_onto (blind_cmdVfo s a z) ?_))
  refine ite_onto (ite_onto rfl (ite_onto (blind_cmdSplit _ a z) rfl)) ?_
  exact ite_onto (blind_cmdMain s _ a z) (ite_onto (blind_cmdSf s a z) rfl)

/-- What a frame says is noted: the commands and the callback have no part in it. -/
structure Noted (a a' : Ascii) : Prop where
  pend : a'.pend = a.pend
  rx : a'.rx = a.rx
  out : a'.out = a.out

theorem noted_applyFrame (s : List UInt8) (isSet : Bool) : Noted a (a.applyFrame s isSet t).1 := by
  have h : (a.applyFrame s isSet t).1 = (a.applyFrame s isSet t).1.onto a :=
    congrArg Prod.fst (blind_applyFrame (t := t) s isSet a a)
  constructor
  · rw [h]
    rfl
  · rw [h]
    rfl
  · rw [h]
    rfl

/-! ### The pending commands -/

variable {dir : CatDir} {client : Nat} {f : List UInt8}

/-- An error report. -/
def isError (s : List UInt8) : Prop := s.length = 1 ∧ (charAt s 0 = '?' ∨ charAt s 0 = 'E' ∨ charAt s 0 = 'O')

instance (s : List UInt8) : Decidable (isError s) := inferInstanceAs (Decidable (_ ∧ _))

/-- The radio's state is prepared for a frame. -/
def begun (a : Ascii) (t : Nat) : Ascii := if a.st.vfoAb.valid then a else a.selectVfo false t

theorem begun_pend : (a.begun t).pend = a.pend := by
  unfold begun
  split_ifs <;> rfl

theorem begun_out : (a.begun t).out = a.out := by
  unfold begun
  split_ifs <;> rfl

/-- A command joins the list. -/
def entered (a : Ascii) (dir : CatDir) (client : Nat) (f : List UInt8) (t : Nat) : Ascii :=
  if f.dropLast = [] then a else a.pendAdd f (prefixOf f.dropLast) (dir == .own) client t

/-- What a frame of the radio takes off the list. -/
def taken (a : Ascii) (f : List UInt8) (t : Nat) : Ascii × Option (Bool × Nat) :=
  if f.dropLast = [] then (a, none) else a.pendTake (some (prefixOf f.dropLast, f)) t

theorem entered_out : (a.entered dir client f t).out = a.out := by
  unfold entered
  split_ifs <;> rfl

theorem processCommand_eq (a : Ascii) : a.processCommand dir client f t =
    ((a.entered dir client f t).applyFrame f.dropLast true t).1.emit .cmd dir f
      (((a.entered dir client f t).applyFrame f.dropLast true t).2 == .done) (dir == .own) client t := rfl

/-- The kind of a frame of the radio. -/
def answerKind (r : Applied) (owner : Option (Bool × Nat)) : FrameKind :=
  if r = .bad then .bad else if owner.isSome then .reply else .unsolicited

theorem processAnswer_eq (a : Ascii) (he : ¬isError f.dropLast) : a.processAnswer f t =
    ((a.taken f t).1.applyFrame f.dropLast false t).1.emit
      (answerKind ((a.taken f t).1.applyFrame f.dropLast false t).2 (a.taken f t).2) .radio f
      (((a.taken f t).1.applyFrame f.dropLast false t).2 == .done)
      ((a.taken f t).2.getD (false, 0)).1 ((a.taken f t).2.getD (false, 0)).2 t := if_neg he

theorem processError_eq (a : Ascii) (he : isError f.dropLast) : a.processAnswer f t =
    (a.pendTake none t).1.emit .error .radio f false ((a.pendTake none t).2.getD (false, 0)).1
      ((a.pendTake none t).2.getD (false, 0)).2 t := if_pos he

theorem processFrame_eq (a : Ascii) : a.processFrame dir client f t =
    if dir = .radio then (a.begun t).processAnswer f t else (a.begun t).processCommand dir client f t := rfl

end Ascii

end Mhuxd
