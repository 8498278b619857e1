import Mhuxd.AsciiFrames
import Mhuxd.CatStored

/-!
# Bad frames of the ASCII protocols

A frame that isn't applied leaves the radio's state alone, with one exception: IF, OI and SF have stored the
frequency, and IF the VFO, when the mode turns out to be none (`early`).
-/

namespace Mhuxd

namespace Ascii

variable {a : Ascii} {t : Nat} {s : List UInt8}

/-! ### Frames that are applied as a whole -/

/-- A frame is applied, or nothing is changed. -/
def Whole (a : Ascii) (x : Ascii × Applied) : Prop := x.2 = .done ∨ x.1 = a

theorem whole_ite {x y : Ascii × Applied} {p : Prop} [Decidable p] (hx : Whole a x) (hy : Whole a y) :
    Whole a (if p then x else y) := by
  split_ifs
  · exact hx
  · exact hy

theorem whole_bad {r : Applied} : Whole a (a, r) := .inr rfl

theorem whole_done {b : Ascii} : Whole a (b, .done) := .inl rfl

theorem whole_setModeIf (ab : Bool) (m : Option ModeData) : Whole a (a.setModeIf ab m t) := by
  cases m with
  | none => exact whole_bad
  | some m => exact whole_done

theorem whole_applyModeCode (ab : Bool) (c : UInt8) (dataCodes : Bool) :
    Whole a (a.applyModeCode ab c dataCodes t) := by
  unfold applyModeCode
  cases a.dialect with
  | elecraft => exact whole_ite whole_bad whole_done
  | flex => exact whole_setModeIf ab _
  | yaesu => exact whole_setModeIf ab _
  | kenwood => exact whole_setModeIf ab _

theorem whole_cmdFreq (ab : Bool) (p : List UInt8) : Whole a (a.cmdFreq ab p t) := by
  unfold cmdFreq
  refine whole_ite whole_bad ?_
  cases decFreq p with
  | none => exact whole_bad
  | some hz => exact whole_done

theorem whole_cmdMain (dataCodes : Bool) : Whole a (a.cmdMain s dataCodes t) := by
  unfold cmdMain
  refine whole_ite whole_bad (whole_ite whole_bad ?_)
  cases decBool (charAt s 2) with
  | none => exact whole_bad
  | some ab => exact whole_applyModeCode ab _ dataCodes

theorem whole_cmdMd : Whole a (a.cmdMd s t) := by
  unfold cmdMd
  refine whole_ite (whole_cmdMain false) (whole_ite ?_ ?_)
  · exact whole_ite whole_bad (whole_ite (whole_applyModeCode true _ false) whole_bad)
  · exact whole_ite whole_bad (whole_ite (whole_applyModeCode _ _ false) whole_bad)

theorem whole_cmdData : Whole a (a.cmdData s t) := by
  unfold cmdData
  refine whole_ite ?_ (whole_ite whole_bad (whole_ite whole_bad (whole_ite whole_bad ?_)))
  · exact whole_ite whole_bad (whole_ite whole_bad whole_done)
  · cases decBool (charAt s 2) with
    | none => exact whole_bad
    | some v => exact whole_done

theorem whole_cmdVfo : Whole a (a.cmdVfo s t) :=
  whole_ite whole_bad (whole_ite whole_bad (whole_ite whole_bad whole_done))

theorem whole_cmdSplit (c : Char) : Whole a (a.cmdSplit c t) := whole_ite whole_bad whole_done

theorem whole_cmdZz : Whole a (a.cmdZz s t) := by
  unfold cmdZz
  refine whole_ite whole_bad (whole_ite (whole_cmdFreq _ _) (whole_ite (whole_setModeIf _ _)
    (whole_ite ?_ whole_bad)))
  exact whole_ite (whole_cmdSplit _) whole_bad

/-! ### Frames that are cut short -/

/-- A mode has the code. -/
def hasMode (a : Ascii) (c : UInt8) (dataCodes : Bool) : Bool :=
  match a.dialect with
  | .elecraft => decide (0x31 ≤ c.toNat ∧ c.toNat ≤ 0x39 ∧ chr c ≠ '8')
  | .flex => (decModeFlex (chr c)).isSome
  | .yaesu => (decModeYaesu (chr c)).isSome
  | .kenwood => (decModeKenwood a.noData dataCodes (chr c)).isSome

theorem setModeIf_snd (ab : Bool) (m : Option ModeData) : (a.setModeIf ab m t).2 =
    if m.isSome then .done else .bad := by
  cases m with
  | none => rfl
  | some m => rfl

theorem applyModeCode_snd (ab : Bool) (c : UInt8) (dataCodes : Bool) :
    (a.applyModeCode ab c dataCodes t).2 = if a.hasMode c dataCodes then .done else .bad := by
  unfold applyModeCode hasMode
  cases a.dialect with
  | elecraft =>
    by_cases hc : c.toNat < 0x31 ∨ 0x39 < c.toNat ∨ chr c = '8'
    · have hno : ¬(0x31 ≤ c.toNat ∧ c.toNat ≤ 0x39 ∧ chr c ≠ '8') := by
        rintro ⟨h1, h2, h3⟩
        rcases hc with hc | hc | hc
        · omega
        · omega
        · exact h3 hc
      simp [hc, hno]
    · obtain ⟨h1, h2, h3⟩ := not_or.1 hc |>.imp_right not_or.1
      have hyes : 0x31 ≤ c.toNat ∧ c.toNat ≤ 0x39 ∧ chr c ≠ '8' := ⟨Nat.not_lt.1 h1, Nat.not_lt.1 h2, h3⟩
      dsimp only
      rw [if_neg hc, decide_eq_true hyes]
      rfl
  | flex => exact setModeIf_snd ab _
  | yaesu => exact setModeIf_snd ab _
  | kenwood => exact setModeIf_snd ab _

theorem applyModeCode_bad (ab : Bool) {c : UInt8} {dataCodes : Bool} (h : a.hasMode c dataCodes = false) :
    a.applyModeCode ab c dataCodes t = (a, .bad) := by
  have hr : (a.applyModeCode ab c dataCodes t).2 = .bad := by rw [applyModeCode_snd, h]; rfl
  rcases whole_applyModeCode (a := a) (t := t) ab c dataCodes with hd | ha
  · rw [hr] at hd
    exact nomatch hd
  · exact Prod.ext ha hr

/-- What a frame has stored before its mode: a selection, and the frequency of a VFO, if none of the selected
one. -/
structure Early where
  sel : Option Bool
  ab : Option Bool
  hz : Nat
deriving DecidableEq

def Early.store (x : Early) (a : Ascii) (t : Nat) : Ascii :=
  let a := x.sel.elim a fun ab => a.selectVfo ab t
  a.setFreq (x.ab.getD a.st.vfoAb.val) x.hz t

/-- An IF of Kenwood with fields that fit, but for the mode; not when transmitting in split. -/
def earlyIfKenwood (a : Ascii) (s : List UInt8) : Option Early :=
  match decFreq ((s.drop 2).take 11), decBool (charAt s 28), decBool (charAt s 32) with
  | some hz, some tx, some split =>
    if s.length = IF_LEN_KENWOOD ∧ '0' ≤ charAt s 30 ∧ charAt s 30 ≤ '2' ∧ (tx && split) = false ∧
        a.hasMode (s.getD 29 0) false = false then
      some ⟨if charAt s 30 = '2' then none else some (charAt s 30 == '1'), none, hz⟩
    else none
  | _, _, _ => none

/-- An IF or OI of Yaesu. -/
def earlyIfYaesu (a : Ascii) (ab : Bool) (s : List UInt8) : Option Early :=
  let n := s.length
  let w := if n = 26 ∨ n = 29 then 8 else 9
  match decFreq ((s.drop 5).take w) with
  | some hz =>
    if (n = 26 ∨ n = 29 ∨ n = 27 ∨ n = 40) ∧ a.hasMode (s.getD (5 + w + 7) 0) false =
      false then some ⟨none, some ab, hz⟩
    else none
  | none => none

def earlySf (a : Ascii) (s : List UInt8) : Option Early :=
  match decBool (charAt s 2), decFreq ((s.drop 3).take 11) with
  | some ab, some hz => if s.length = 15 ∧ a.hasMode (s.getD 14 0) true =
  false then some ⟨none, some ab, hz⟩ else none
  | _, _ => none

/-- What is stored of a frame that has no mode. -/
def early (a : Ascii) (s : List UInt8) : Option Early :=
  if a.dialect = .yaesu then
    if starts s ['I', 'F'] then a.earlyIfYaesu false s
    else if starts s ['O', 'I'] then a.earlyIfYaesu true s
    else none
  else if starts s ['I', 'F'] then a.earlyIfKenwood s
  else if a.dialect = .kenwood ∧ starts s ['S', 'F'] then a.earlySf s
  else none

/-- A command that is applied as a whole, or stores what it says before the mode. -/
def Cut (a : Ascii) (x : Option Early) (y : Ascii × Applied) (t : Nat) : Prop :=
  match x with
  | none => Whole a y
  | some x => y = (x.store a t, .bad)

theorem cut_cmdIfYaesu (ab : Bool) : Cut a (a.earlyIfYaesu ab s) (a.cmdIfYaesu ab s t) t := by
  unfold cmdIfYaesu earlyIfYaesu
  dsimp only
  generalize (if s.length = 26 ∨ s.length = 29 then 8 else 9) = w
  cases decFreq ((s.drop 5).take w) with
  | none => exact whole_ite whole_bad (whole_ite whole_bad whole_bad)
  | some hz =>
    dsimp only
    have hmode : (a.setFreq ab hz t).hasMode (s.getD (5 + w + 7) 0) false =
      a.hasMode (s.getD (5 + w + 7) 0) false := rfl
    by_cases hn : s.length = 26 ∨ s.length = 29 ∨ s.length = 27 ∨ s.length = 40
    · have h2 : s.length ≠ 2 := by omega
      have hlen : ¬(s.length ≠ 26 ∧ s.length ≠ 29 ∧ s.length ≠ 27 ∧ s.length ≠ 40) := by omega
      rw [if_neg h2, if_neg hlen]
      cases hm : a.hasMode (s.getD (5 + w + 7) 0) false with
      | false =>
        rw [if_pos ⟨hn, rfl⟩]
        exact applyModeCode_bad ab (hmode.trans hm)
      | true =>
        rw [if_neg (fun h => nomatch h.2)]
        refine .inl ?_
        rw [applyModeCode_snd, hmode, hm]
        rfl
    · have hlen : s.length ≠ 26 ∧ s.length ≠ 29 ∧ s.length ≠ 27 ∧ s.length ≠ 40 := by omega
      rw [if_neg (fun h => hn h.1), if_pos hlen]
      exact whole_ite whole_bad whole_bad

theorem cut_cmdSf : Cut a (a.earlySf s) (a.cmdSf s t) t := by
  unfold cmdSf earlySf
  cases decBool (charAt s 2) with
  | none => exact whole_ite whole_bad (whole_ite whole_bad whole_bad)
  | some ab =>
    cases decFreq ((s.drop 3).take 11) with
    | none => exact whole_ite whole_bad (whole_ite whole_bad whole_bad)
    | some hz =>
      dsimp only
      have hmode : (a.setFreq ab hz t).hasMode (s.getD 14 0) true = a.hasMode (s.getD 14 0) true := rfl
      by_cases hn : s.length = 15
      · have h3 : ¬(s.length = 3 ∨ s.length = 2) := by omega
        rw [if_neg h3, if_neg (not_not_intro hn)]
        cases hm : a.hasMode (s.getD 14 0) true with
        | false =>
          rw [if_pos ⟨hn, rfl⟩]
          exact applyModeCode_bad ab (hmode.trans hm)
        | true =>
          rw [if_neg (fun h => nomatch h.2)]
          refine .inl ?_
          rw [applyModeCode_snd, hmode, hm]
          rfl
      · rw [if_neg (fun h => hn h.1), if_pos hn]
        exact whole_ite whole_bad whole_bad

/-- The fields of an IF that fit. -/
theorem cut_ifVfo (hz : Nat) (tx split : Bool) (hlen : s.length = IF_LEN_KENWOOD) :
    Cut a (if s.length = IF_LEN_KENWOOD ∧ '0' ≤ charAt s 30 ∧ charAt s 30 ≤ '2' ∧ (tx && split) = false ∧
        a.hasMode (s.getD 29 0) false = false then some ⟨if charAt s 30 = '2' then none else some (charAt s 30 == '1'), none, hz⟩
      else none)
      (if charAt s 30 < '0' ∨ '2' < charAt s 30 then (a, .bad)
      else if (a.ifVfo s hz tx split t).2 = .bad then ((a.ifVfo s hz tx split t).1, .bad)
      else ((a.ifVfo s hz tx split t).1.setSplit split t, .done)) t := by
  by_cases hsel : charAt s 30 < '0' ∨ '2' < charAt s 30
  · have hno : ¬(s.length = IF_LEN_KENWOOD ∧ '0' ≤ charAt s 30 ∧ charAt s 30 ≤ '2' ∧ (tx && split) = false ∧
        a.hasMode (s.getD 29 0) false = false) := by
      rintro ⟨-, h1, h2, -⟩
      rcases hsel with h | h
      · exact absurd h1 (not_le.2 h)
      · exact absurd h2 (not_le.2 h)
    rw [if_pos hsel, if_neg hno]
    exact whole_bad
  · obtain ⟨hlo, hhi⟩ := not_or.1 hsel
    rw [if_neg hsel]
    cases hts : tx && split with
    | true =>
      have hdone : a.ifVfo s hz tx split t = (a, .done) := if_pos hts
      rw [if_neg (fun h => nomatch h.2.2.2.1), hdone]
      exact whole_done
    | false =>
      -- the receive VFO: selected, its frequency, its mode
      obtain ⟨b, hb⟩ : ∃ b, b = if charAt s 30 = '2' then a else a.selectVfo (charAt s 30 == '1') t := ⟨_, rfl⟩
      have hvfo : a.ifVfo s hz tx split t = (b.setFreq b.st.vfoAb.val hz t).applyModeCode
          (b.setFreq b.st.vfoAb.val hz t).st.vfoAb.val (s.getD 29 0) false t := by
        rw [hb, ifVfo, hts, if_neg Bool.false_ne_true]
      have hmode : (b.setFreq b.st.vfoAb.val hz t).hasMode (s.getD 29 0) false =
        a.hasMode (s.getD 29 0) false := by
        rw [hb]
        split_ifs <;> rfl
      rw [hvfo]
      cases hm : a.hasMode (s.getD 29 0) false with
      | false =>
        rw [if_pos ⟨hlen, not_lt.1 hlo, not_lt.1 hhi, rfl, rfl⟩, applyModeCode_bad _ (hmode.trans hm),
          if_pos rfl, hb]
        unfold Cut Early.store
        split_ifs <;> rfl
      | true =>
        have hdone : ((b.setFreq b.st.vfoAb.val hz t).applyModeCode (b.setFreq b.st.vfoAb.val hz t).st.vfoAb.val
            (s.getD 29 0) false t).2 = .done := by
          rw [applyModeCode_snd, hmode, hm]
          rfl
        rw [if_neg (fun h => nomatch h.2.2.2.2), hdone, if_neg (by decide)]
        exact whole_done

theorem cut_cmdIfKenwood : Cut a (a.earlyIfKenwood s) (a.cmdIfKenwood s t) t := by
  unfold cmdIfKenwood earlyIfKenwood
  by_cases h2 : s.length = 2
  · have hlen : s.length ≠ IF_LEN_KENWOOD := by
      rw [h2]
      decide
    have hnone : ∀ P : Prop, ¬(s.length = IF_LEN_KENWOOD ∧ P) := fun P h => hlen h.1
    simp only [if_pos h2, if_neg (hnone _)]
    split <;> exact whole_bad
  · by_cases hlen : s.length ≠ IF_LEN_KENWOOD
    · have hnone : ∀ P : Prop, ¬(s.length = IF_LEN_KENWOOD ∧ P) := fun P h => hlen h.1
      simp only [if_neg h2, if_pos hlen, if_neg (hnone _)]
      split <;> exact whole_bad
    · rw [if_neg h2, if_neg hlen]
      cases decFreq ((s.drop 2).take 11) with
      | none => exact whole_bad
      | some hz =>
        cases decBool (charAt s 28) with
        | none => exact whole_bad
        | some tx =>
          cases decBool (charAt s 32) with
          | none => exact whole_bad
          | some split => exact cut_ifVfo hz tx split (not_not.1 hlen)

/-- A frame is applied as a whole, or it's one that is cut short. -/
theorem cut_applyFrame (a : Ascii) (s : List UInt8) (t : Nat) : Cut a (a.early s) (a.applyFrame s false t) t := by
  obtain ⟨k, hk⟩ : ∃ k, k = (s.take 2).map chr := ⟨_, rfl⟩
  have hstarts : ∀ x y, starts s [x, y] = (k == [x, y]) := fun x y => by rw [hk]; rfl
  have hlen : ∀ x y, k = [x, y] → ¬s.length < 2 := by
    intro x y hxy
    have h := congrArg List.length (hk.symm.trans hxy)
    rw [List.length_map, List.length_take] at h
    simp only [List.length_cons, List.length_nil] at h
    omega
  by_cases hif : k = ['I', 'F']
  · have hn := hlen _ _ hif
    unfold applyFrame early
    simp only [hstarts, hif]
    by_cases hy : a.dialect = .yaesu
    · simpa [hn, hy] using cut_cmdIfYaesu false
    · simpa [hn, hy] using cut_cmdIfKenwood
  · by_cases hoi : a.dialect = .yaesu ∧ k = ['O', 'I']
    · have hn := hlen _ _ hoi.2
      unfold applyFrame early
      simp only [hstarts, hoi.2]
      simpa [hn, hoi.1] using cut_cmdIfYaesu true
    · by_cases hsf : a.dialect = .kenwood ∧ k = ['S', 'F']
      · have hn := hlen _ _ hsf.2
        unfold applyFrame early
        simp only [hstarts, hsf.2]
        simpa [hn, hsf.1] using cut_cmdSf
      · have hif' : ¬starts s ['I', 'F'] = true := by simpa [hstarts] using hif
        have hoi' : ¬(a.dialect = .yaesu ∧ starts s ['O', 'I'] = true) := by simpa [hstarts] using hoi
        have hsf' : ¬(a.dialect = .kenwood ∧ starts s ['S', 'F'] = true) := by simpa [hstarts] using hsf
        have hnone : a.early s = none := by
          unfold early
          split_ifs with hy ho
          · exact absurd ⟨hy, ho⟩ hoi'
          · rfl
          · rfl
        rw [hnone]
        show Whole a _
        unfold applyFrame
        dsimp only
        rw [if_neg hif']
        refine whole_ite whole_bad (whole_ite (whole_cmdFreq _ _)
          (whole_ite whole_cmdMd (whole_ite whole_cmdData ?_)))
        refine whole_ite (whole_ite whole_bad whole_cmdZz) (whole_ite whole_bad ?_)
        rw [if_neg (by simpa using hoi'), if_neg hsf']
        refine whole_ite whole_cmdVfo (whole_ite ?_ (whole_ite (whole_cmdMain true) whole_bad))
        exact whole_ite whole_bad (whole_ite (whole_cmdSplit _) whole_bad)

/-! ### Frames of the radio -/

/-- The radio's state has what a frame said before its mode already, from the same time. -/
def Early.Held (x : Early) (st : CatState) (t : Nat) : Prop :=
  (∀ ab ∈ x.sel, st.vfoAb = ⟨ab, t, true⟩) ∧
    (st.vfo (if x.ab.getD st.vfoAb.val = st.vfoAb.val then .sel else .unsel)).freq = ⟨x.hz, t, true⟩

theorem Early.store_eq_iff (x : Early) : (x.store a t).st = a.st ↔ x.Held a.st t := by
  obtain ⟨sel, ab, hz⟩ := x
  cases sel with
  | none =>
    refine setFreq_eq_iff.trans ⟨fun h => ⟨nofun, h⟩, And.right⟩
  | some v =>
    have hselect : Stored t a.st (a.st.selectVfo v t) := stored_selectVfo v
    have hset : Stored t (a.st.selectVfo v t)
        ((a.st.selectVfo v t).setFreq ((a.selectVfo v t).slotOf (ab.getD (a.selectVfo v t).st.vfoAb.val)) hz t) :=
      stored_setFreq hz
    have hchain := hselect.eq_iff hset
    refine hchain.trans ⟨fun h => ?_, fun h => ?_⟩
    · have hsel : a.selectVfo v t = a := congrArg (fun st => { a with st := st }) h.1
      have hfreq := setFreq_eq_iff.1 h.2
      rw [hsel] at hfreq
      rw [h.1] at hfreq
      refine ⟨fun w hw => ?_, hfreq⟩
      rw [← Option.some.inj hw]
      exact selectVfo_eq_iff.1 h.1
    · have hst : a.st.selectVfo v t = a.st := selectVfo_eq_iff.2 (h.1 v rfl)
      have hsel : a.selectVfo v t = a := congrArg (fun st => { a with st := st }) hst
      refine ⟨hst, setFreq_eq_iff.2 ?_⟩
      rw [hsel, hst]
      exact h.2

instance (x : Early) (st : CatState) (t : Nat) : Decidable (x.Held st t) := by
  unfold Early.Held
  infer_instance

theorem early_short (h : s.length < 2) : a.early s = none := by
  have hno : ∀ x y, starts s [x, y] = false := by
    intro x y
    rw [starts, beq_eq_false_iff_ne]
    intro heq
    have hlen := congrArg List.length heq
    simp only [List.length_map, List.length_take, List.length_cons, List.length_nil] at hlen
    omega
  simp [early, hno]

/-- A frame of the radio changes the list of commands before it is read. -/
theorem taken_pend (f : List UInt8) : ∃ pend, (a.taken f t).1 = { a with pend := pend } := by
  unfold taken pendTake
  split_ifs
  · exact ⟨a.pend, rfl⟩
  · split
    · exact ⟨a.pend, rfl⟩
    · split
      · exact ⟨a.pend, rfl⟩
      · exact ⟨_, rfl⟩

theorem pendTake_st (answer : Option (List UInt8 × List UInt8)) :
    (a.pendTake answer t).1.st = a.st ∧ (a.pendTake answer t).1.out = a.out := by
  unfold pendTake
  split
  · exact ⟨rfl, rfl⟩
  · split <;> exact ⟨rfl, rfl⟩

/-- A frame that isn't applied leaves the radio's state as it was if and only if it's not cut short, or what
it says is there already. -/
theorem ascii_bad_atomic (a : Ascii) (client : Nat) (buf : List UInt8) (t : Nat) (hv : a.st.vfoAb.valid = true) :
    (∃ e, (a.processFrame .radio client buf t).out = a.out ++ [e] ∧
      (e.frame.kind = .bad ∨ e.frame.applied = false → (a.processFrame .radio client buf t).st = a.st)) ↔
    ∀ x ∈ a.early buf.dropLast, x.Held a.st t := by
  have hbegun : a.begun t = a := if_pos hv
  have hframe : a.processFrame .radio client buf t = a.processAnswer buf t := by
    rw [processFrame_eq, if_pos rfl, hbegun]
  rw [hframe]
  by_cases herr : isError buf.dropLast
  · obtain ⟨hst, hout⟩ := pendTake_st (a := a) (t := t) none
    have hshort : a.early buf.dropLast = none := early_short (by rw [herr.1]; omega)
    rw [processError_eq a herr, hshort]
    refine ⟨fun _ => nofun, fun _ => ⟨_, congrArg (· ++ _) hout, fun _ => hst⟩⟩
  · rw [processAnswer_eq a herr]
    obtain ⟨pend, hb⟩ := taken_pend (a := a) (t := t) buf
    generalize (a.taken buf t).2 = owner
    rw [hb]
    have hout := (noted_applyFrame (a := { a with pend := pend }) (t := t) buf.dropLast false).out
    have hcut := cut_applyFrame { a with pend := pend } buf.dropLast t
    have hearly : ({ a with pend := pend } : Ascii).early buf.dropLast = a.early buf.dropLast := rfl
    rw [hearly] at hcut
    generalize ({ a with pend := pend } : Ascii).applyFrame buf.dropLast false t = y at hcut hout
    cases hx : a.early buf.dropLast with
    | none =>
      rw [hx] at hcut
      refine ⟨fun _ => nofun, fun _ => ⟨_, congrArg (· ++ _) hout, fun he => ?_⟩⟩
      rcases hcut with hdone | hsame
      · simp [answerKind, hdone] at he
        split_ifs at he
      · show y.1.st = a.st
        rw [hsame]
    | some x =>
      rw [hx] at hcut
      have hst : y.1.st = (x.store a t).st := by
        rw [hcut]
        obtain ⟨sel, ab, hz⟩ := x
        cases sel <;> rfl
      have hiff : y.1.st = a.st ↔ x.Held a.st t := by rw [hst, Early.store_eq_iff]
      constructor
      · rintro ⟨e, he, himp⟩ x' hx'
        obtain rfl := Option.some.inj hx'
        obtain rfl := List.singleton_inj.1 (List.append_cancel_left (((congrArg (· ++ _) hout).symm.trans he)))
        refine hiff.1 (himp (.inl ?_))
        rw [hcut]
        rfl
      · intro hheld
        exact ⟨_, congrArg (· ++ _) hout, fun _ => hiff.2 (hheld x rfl)⟩

/-- An IF of Kenwood with a frequency on VFO A and a mode. -/
def ifFrame (mode : UInt8) : List UInt8 :=
  [0x49, 0x46, 0x30, 0x30, 0x30, 0x31, 0x34, 0x30, 0x37, 0x34, 0x30, 0x30, 0x30] ++ List.replicate 15 0x30 ++
    [0x30, mode, 0x30] ++ List.replicate 6 0x30 ++ [0x3b]

/-- A decoder that knows the VFO. -/
def known (dialect : Dialect) : Ascii := create dialect false (CatState.init.selectVfo false 0)

theorem ascii_bad_atomic_short :
    ∃ e, ((known .kenwood).processFrame .radio 0 [0x46, 0x41, 0x31, 0x3b] 5).out = [e] ∧
      (e.frame.kind = .bad ∨ e.frame.applied = false →
        ((known .kenwood).processFrame .radio 0 [0x46, 0x41, 0x31, 0x3b] 5).st = (known .kenwood).st) :=
  (ascii_bad_atomic (known .kenwood) 0 [0x46, 0x41, 0x31, 0x3b] 5 rfl).2 (by decide)

/-- An IF with the mode 8: the frequency stays. -/
theorem ascii_bad_stored :
    ¬ ∀ (a : Ascii) (client : Nat) (buf : List UInt8) (t : Nat), a.st.vfoAb.valid = true →
      ∃ e, (a.processFrame .radio client buf t).out = a.out ++ [e] ∧
        (e.frame.kind = .bad ∨ e.frame.applied = false → (a.processFrame .radio client buf t).st = a.st) := by
  intro h
  obtain ⟨e, he, himp⟩ := h (known .kenwood) 0 (ifFrame 0x38) 5 rfl
  have hbad : ((known .kenwood).processFrame .radio 0 (ifFrame 0x38) 5).out =
      [⟨⟨.bad, .radio, 5, ifFrame 0x38, false, false, 0⟩, 0⟩] := by decide +kernel
  rw [hbad] at he
  obtain rfl := List.singleton_inj.1 he
  have hst := congrArg CatState.changes (himp (.inl rfl))
  exact absurd hst (by decide +kernel)

end Ascii

end Mhuxd
