import Mhuxd.KcfgTables
import Mhuxd.Lib.Run

/-!
# Setting and reading keyer options

An option that is set changes no other one unless its value is negative, and the CW switching options are protected
by the spelling of their keys, which are found in any letter case.
-/

namespace Mhuxd

namespace Kcfg

variable {is : List Citem} {i j e : Citem} {s : List UInt8} {key : String} {val : Int} {size : Nat}

/-! ### Setting an option -/

/-- What `kcfg_set_val` does with the item it finds. -/
inductive SetCase (i : Citem) (s : List UInt8) (key : String) (val : Int) : List UInt8 × Int → Prop
  | kept (h : (i.dflt : Int) ≠ val) (hkey : key ∈ enforcedKeys) : SetCase i s key val (s, -2)
  | large (h : (i.field.mask : Int) < val) (hkey : ¬ ((i.dflt : Int) ≠ val ∧ key ∈ enforcedKeys)) :
  SetCase i s key val (s, -1)
  | put (h : val ≤ i.field.mask) (hkey : ¬ ((i.dflt : Int) ≠ val ∧ key ∈ enforcedKeys)) :
  SetCase i s key val (i.field.put val s, 0)

theorem kcfgSetVal_none (h : findCitem is key = none) : kcfgSetVal is s key val = (s, -1) := by
  unfold kcfgSetVal
  rw [h]

theorem kcfgSetVal_some (val : Int) (ht : Table is size) (hs : s.length = size) (h : findCitem is key = some i) :
    SetCase i s key val (kcfgSetVal is s key val) := by
  have hin : ¬ s.length ≤ i.field.byte := by
    rw [hs, not_le]
    exact ht.inside i (find_mem h)
  unfold kcfgSetVal
  rw [h]
  dsimp only
  split_ifs with hkept hlarge
  · exact .kept hkept.1 hkept.2
  · exact .large hlarge hkept
  · exact .put (not_lt.1 hlarge) hkept

theorem length_kcfgSetVal (is : List Citem) (s : List UInt8) (key : String) (val : Int) :
    (kcfgSetVal is s key val).1.length = s.length := by
  unfold kcfgSetVal
  split
  · rfl
  · split_ifs <;> first | rfl | exact BitField.length_put

/-- A value is accepted where there is an item for the key and the value is one of its values: of a protected item
the default. -/
def Accepts (is : List Citem) (key : String) (val : Int) : Prop :=
  match findCitem is key with
  | none => False
  | some i => 0 ≤ val ∧ val ≤ i.field.mask ∧ (i.Protected → val = i.dflt)

instance : Decidable (Accepts is key val) := by
  unfold Accepts
  split <;> infer_instance

theorem accepts_iff (h : findCitem is key = some i) :
    Accepts is key val ↔ 0 ≤ val ∧ val ≤ i.field.mask ∧ (i.Protected → val = i.dflt) := by
  unfold Accepts
  rw [h]

/-- What a call of `kcfg_set_val` is for: an accepted value is read back and nothing else changes, another one
changes nothing. -/
def SetGet (is : List Citem) (s : List UInt8) (key : String) (val : Int) : Prop :=
  if Accepts is key val then
    (kcfgSetVal is s key val).2 = 0 ∧ (∀ d, kcfgGetVal is (kcfgSetVal is s key val).1 key d = val) ∧
      ∀ i ∈ findCitem is key, i.field.SameBut s (kcfgSetVal is s key val).1 ∧
        ∀ j ∈ is, j ≠ i → j.field.get (kcfgSetVal is s key val).1 = j.field.get s
  else (kcfgSetVal is s key val).2 < 0 ∧ (kcfgSetVal is s key val).1 = s

/-- The key is one of those that are protected, or the value is not negative and, for the item of a protected key in
other letters, the default or too large. -/
def Regular (is : List Citem) (key : String) (val : Int) : Prop :=
  ∀ i ∈ findCitem is key, key ∈ enforcedKeys ∨ 0 ≤ val ∧ (i.Protected → val = i.dflt ∨ (i.field.mask : Int) < val)

instance : Decidable (Regular is key val) := inferInstanceAs (Decidable (∀ i ∈ findCitem is key, _))

/-- Of a value that is accepted. -/
theorem setGet_put (ht : Table is size) (hs : s.length = size) (h : findCitem is key = some i) {v : Nat}
    (hv : v ≤ i.field.mask) (hset : kcfgSetVal is s key (v : Int) = (i.field.put (v : Int) s, 0)) :
    (kcfgSetVal is s key (v : Int)).2 = 0 ∧ (∀ d, kcfgGetVal is (kcfgSetVal is s key (v : Int)).1 key d = v) ∧
      ∀ i ∈ findCitem is key, i.field.SameBut s (kcfgSetVal is s key (v : Int)).1 ∧
        ∀ j ∈ is, j ≠ i → j.field.get (kcfgSetVal is s key (v : Int)).1 = j.field.get s := by
  have hi := find_mem h
  have hin : i.field.byte < s.length := hs ▸ ht.inside i hi
  have hsame := BitField.sameBut_put (ht.fits i hi) hin hv
  rw [hset]
  refine ⟨rfl, fun d => ?_, fun i' hi' => ?_⟩
  · unfold kcfgGetVal
    rw [h]
    dsimp only
    rw [BitField.length_put, if_neg (not_le.2 hin), BitField.get_put_self (ht.fits i hi) hin hv]
  · obtain rfl := Option.some.inj (h.symm.trans hi')
    exact ⟨hsame, fun j hj hne => hsame.get_eq (ht.fits j hj) (ht.disjoint hi hj hne.symm)⟩

theorem setGet_iff (ht : Table is size) (hs : s.length = size) : SetGet is s key val ↔ Regular is key val := by
  cases hfind : findCitem is key with
  | none =>
    have haccepts : ¬ Accepts is key val := by
      unfold Accepts
      rw [hfind]
      exact id
    unfold SetGet Regular
    rw [if_neg haccepts, kcfgSetVal_none hfind, hfind]
    simp
  | some i =>
    have hregular : Regular is key val ↔
        key ∈ enforcedKeys ∨ 0 ≤ val ∧ (i.Protected → val = i.dflt ∨ (i.field.mask : Int) < val) := by
      unfold Regular
      rw [hfind]
      simp
    have hrefused {r : Int} (hr : r < 0) (hset : kcfgSetVal is s key val = (s, r)) (h : ¬ Accepts is key val) :
        SetGet is s key val := by
      unfold SetGet
      rw [if_neg h, hset]
      exact ⟨hr, rfl⟩
    have hcase := kcfgSetVal_some val ht hs hfind
    rw [hregular]
    generalize hres : kcfgSetVal is s key val = res at hcase
    cases hcase with
    | kept hne hkey =>
      refine iff_of_true (hrefused (by decide) hres fun h => ?_) (.inl hkey)
      have hval := ((accepts_iff hfind).1 h).2.2 (ht.protected_of_key hfind hkey)
      exact hne hval.symm
    | large hlarge hkey =>
      refine iff_of_true (hrefused (by decide) hres fun h => ?_) (.inr ⟨?_, fun _ => .inr hlarge⟩)
      · exact absurd ((accepts_iff hfind).1 h).2.1 (not_le.2 hlarge)
      · omega
    | put hle hkey =>
      by_cases haccepts : Accepts is key val
      · obtain ⟨h0, hmask, hdflt⟩ := (accepts_iff hfind).1 haccepts
        obtain ⟨v, rfl⟩ := Int.eq_ofNat_of_zero_le h0
        refine iff_of_true ?_ (.inr ⟨h0, fun h => .inl (hdflt h)⟩)
        unfold SetGet
        rw [if_pos haccepts]
        exact setGet_put ht hs hfind (by exact_mod_cast hmask) hres
      · refine iff_of_false (fun h => ?_) fun h => ?_
        · unfold SetGet at h
          rw [if_neg haccepts, hres] at h
          exact absurd h.1 (by simp)
        · refine haccepts ((accepts_iff hfind).2 ?_)
          rcases h with h | ⟨h0, hprot⟩
          · -- the default of the protected item with its own key
            have hval : (i.dflt : Int) = val := by
              by_contra hne
              exact hkey ⟨hne, h⟩
            exact ⟨by omega, hle, fun _ => hval.symm⟩
          · exact ⟨h0, hle, fun h => (hprot h).resolve_right (not_lt.2 hle)⟩

/-! ### Sequences of options -/

/-- A call of `kcfg_set_val`. -/
def setStep (is : List Citem) (s : List UInt8) (c : String × Int) : List UInt8 := (kcfgSetVal is s c.1 c.2).1

/-- What a call does to the values of the items. -/
def setSpec (is : List Citem) (m : Citem → Int) (c : String × Int) : Citem → Int :=
  if Accepts is c.1 c.2 then fun i => if findCitem is c.1 = some i then c.2 else m i else m

theorem length_setStep (is : List Citem) (s : List UInt8) (c : String × Int) :
    (setStep is s c).length = s.length :=
  length_kcfgSetVal ..

/-- A call that does what it's for does to the values what the specification says. -/
theorem get_setStep {c : String × Int} (ht : Table is size) (hs : s.length = size) (h : SetGet is s c.1 c.2)
    {m : Citem → Int}
    (hm : ∀ i ∈ is, (i.field.get s : Int) = m i) : ∀ j ∈ is, (j.field.get (setStep is s c) : Int) =
    setSpec is m c j := by
  intro j hj
  unfold SetGet at h
  unfold setSpec setStep
  by_cases haccepts : Accepts is c.1 c.2
  · rw [if_pos haccepts] at h ⊢
    obtain ⟨-, hget, hrest⟩ := h
    by_cases hfound : findCitem is c.1 = some j
    · -- the item that was set
      have hval := hget 0
      have hin : ¬ s.length ≤ j.field.byte := by
        rw [hs, not_le]
        exact ht.inside j hj
      unfold kcfgGetVal at hval
      rw [hfound] at hval
      dsimp only at hval
      rw [length_kcfgSetVal, if_neg hin] at hval
      rw [if_pos hfound, hval]
    · rw [if_neg hfound, ← hm j hj]
      cases hfind : findCitem is c.1 with
      | none =>
        unfold Accepts at haccepts
        rw [hfind] at haccepts
        exact haccepts.elim
      | some i =>
        have hne : j ≠ i := fun hji => hfound (hji ▸ hfind)
        rw [(hrest i hfind).2 j hj hne]
  · rw [if_neg haccepts] at h ⊢
    rw [h.2, hm j hj]

theorem get_setSteps {calls : List (String × Int)} (ht : Table is size) (hs : s.length = size)
    (h : Run.StepsOk (setStep is) (fun s c => SetGet is s c.1 c.2) s calls) {m : Citem → Int}
    (hm : ∀ i ∈ is, (i.field.get s : Int) = m i) :
    ∀ j ∈ is, (j.field.get (Run.run (setStep is) s calls) : Int) = Run.run (setSpec is) m calls j := by
  induction calls generalizing s m with
  | nil => exact hm
  | cons c calls ih => exact ih ((length_setStep ..).trans hs) h.2 (get_setStep ht hs h.1 hm)

theorem stepsOk_iff {calls : List (String × Int)} (ht : Table is size) (hs : s.length = size) :
    Run.StepsOk (setStep is) (fun s c => SetGet is s c.1 c.2) s calls ↔ ∀ c ∈ calls, Regular is c.1 c.2 := by
  induction calls generalizing s with
  | nil => exact iff_of_true trivial fun c hc => absurd hc List.not_mem_nil
  | cons c calls ih =>
    rw [List.forall_mem_cons, Run.StepsOk, setGet_iff ht hs, ih ((length_setStep ..).trans hs)]

/-- Calls of `kcfg_set_val` do what they're for, each of them and together, exactly if no value is negative and no
protected item is set with its key in other letters. -/
theorem set_get_iff (t : KeyerType) (s : List UInt8) (hs : s.length = bufSize t) (calls : List (String × Int)) :
    (Run.StepsOk (setStep (items t)) (fun s c => SetGet (items t) s c.1 c.2) s calls ∧
      ∀ i ∈ items t, (i.field.get (Run.run (setStep (items t)) s calls) : Int) =
        Run.run (setSpec (items t)) (fun i => i.field.get s) calls i) ↔
      ∀ c ∈ calls, Regular (items t) c.1 c.2 := by
  rw [← stepsOk_iff (table_items t) hs]
  exact ⟨And.left, fun h => ⟨h, get_setSteps (table_items t) hs h fun i _ => rfl⟩⟩

/-- `fskUos` of an MK2 is set to -1. -/
theorem set_get_negative : ¬ Run.StepsOk (setStep (items .mk2)) (fun s c => SetGet (items .mk2) s c.1 c.2)
    (List.replicate 56 0) [("fskUos", -1)] := by
  rintro ⟨h, -⟩
  unfold SetGet at h
  rw [if_neg (by decide)] at h
  exact absurd h.1 (by decide)

theorem set_get_fskUos : Run.StepsOk (setStep (items .mk2)) (fun s c => SetGet (items .mk2) s c.1 c.2)
    (List.replicate 56 0) [("fskUos", 1)] :=
  ((set_get_iff .mk2 (List.replicate 56 0) (by decide) [("fskUos", 1)]).2 (by decide)).1

/-! ### Protected options -/

/-- Every protected item has its default. -/
def AllProtected (is : List Citem) (s : List UInt8) : Prop := ∀ e ∈ is, e.Protected → e.field.get s = e.dflt

/-- The call is refused, or the bits of the value that reach a protected item are those of its default: for the item
itself all of them, for another one no more than its default has. -/
def Spares (is : List Citem) (key : String) (val : Int) : Prop :=
  ∀ i ∈ findCitem is key, ((i.dflt : Int) ≠ val ∧ key ∈ enforcedKeys) ∨ (i.field.mask : Int) < val ∨
    ∀ e ∈ is, e.Protected → i.field.byte = e.field.byte → ∀ k < e.field.width,
      ((e.dflt.testBit k && !decide (i.field.Has e.field.byte (e.field.shift + k))) ||
        (i.field.bits val).getLsbD (e.field.shift + k)) = e.dflt.testBit k

instance : Decidable (Spares is key val) := inferInstanceAs (Decidable (∀ i ∈ findCitem is key, _))

theorem allProtected_put_iff (ht : Table is size) (hs : s.length = size) (h : AllProtected is s) (hi : i ∈ is) :
    AllProtected is (i.field.put val s) ↔ ∀ e ∈ is, e.Protected → i.field.byte = e.field.byte →
    ∀ k < e.field.width,
      ((e.dflt.testBit k && !decide (i.field.Has e.field.byte (e.field.shift + k))) ||
        (i.field.bits val).getLsbD (e.field.shift + k)) = e.dflt.testBit k := by
  have hin : i.field.byte < s.length := hs ▸ ht.inside i hi
  constructor
  · intro hput e he hprot hb
    exact (BitField.get_put_eq_iff (ht.fits i hi) (ht.fits e he) hin hb (ht.dflt e he hprot) (h e he hprot)).1
      (hput e he hprot)
  · intro hbits e he hprot
    by_cases hb : i.field.byte = e.field.byte
    · exact (BitField.get_put_eq_iff (ht.fits i hi) (ht.fits e he) hin hb (ht.dflt e he hprot) (h e he hprot)).2
        (hbits e he hprot hb)
    · rw [BitField.get, BitField.getD_put_of_ne hb]
      exact h e he hprot

theorem allProtected_set_iff (ht : Table is size) (hs : s.length = size) (h : AllProtected is s) :
    AllProtected is (kcfgSetVal is s key val).1 ↔ Spares is key val := by
  unfold Spares
  cases hfind : findCitem is key with
  | none =>
    rw [kcfgSetVal_none hfind]
    exact iff_of_true h fun i hi => by cases hi
  | some i =>
    have hcase := kcfgSetVal_some val ht hs hfind
    generalize kcfgSetVal is s key val = res at hcase
    simp only [Option.mem_some_iff, forall_eq']
    cases hcase with
    | kept hne hkey => exact iff_of_true h (.inl ⟨hne, hkey⟩)
    | large hlarge hkey => exact iff_of_true h (.inr (.inl hlarge))
    | put hle hkey =>
      rw [allProtected_put_iff ht hs h (find_mem hfind)]
      simp only [hkey, not_lt.2 hle, false_or]

theorem allProtected_put (ht : Table is size) (hs : s.length = size) (h : AllProtected is s) (hi : i ∈ is)
    {v : Nat}
    (hv : v ≤ i.field.mask) (hdflt : i.Protected → v = i.dflt) : AllProtected is (i.field.put (v : Int) s) := by
  have hin : i.field.byte < s.length := hs ▸ ht.inside i hi
  intro e he hprot
  by_cases hie : i = e
  · subst hie
    rw [BitField.get_put_self (ht.fits i hi) hin hv, hdflt hprot]
  · rw [BitField.get_put_of_disjoint (ht.fits i hi) (ht.fits e he) hv (ht.disjoint hi he hie)]
    exact h e he hprot

/-- A value that is not negative, with a protected item's own key or its default. -/
theorem allProtected_set (ht : Table is size) (hs : s.length = size) (h : AllProtected is s) {v : Nat}
    (hv : ∀ i ∈ findCitem is key, i.Protected → key ∈ enforcedKeys ∨ v = i.dflt) :
    AllProtected is (kcfgSetVal is s key (v : Int)).1 := by
  cases hfind : findCitem is key with
  | none =>
    rw [kcfgSetVal_none hfind]
    exact h
  | some i =>
    have hcase := kcfgSetVal_some (v : Int) ht hs hfind
    generalize kcfgSetVal is s key (v : Int) = res at hcase
    cases hcase with
    | kept hne hkey => exact h
    | large hlarge hkey => exact h
    | put hle hkey =>
      refine allProtected_put ht hs h (find_mem hfind) (by exact_mod_cast hle) fun hprot => ?_
      rcases hv i hfind hprot with hmem | heq
      · by_contra hne
        refine hkey ⟨fun heq => hne ?_, hmem⟩
        exact_mod_cast heq.symm
      · exact heq

/-! ### A new block -/

/-- A protected item is found by its key in any letter case. -/
theorem find_protected (ht : Table is size) (he : e ∈ is) (hprot : e.Protected)
    (hkey : strcaseEq key e.key = true) :
    findCitem is key = some e := by
  cases hfind : findCitem is key with
  | none => exact absurd hkey (by simpa using List.find?_eq_none.1 hfind e he)
  | some i => rw [ht.alone e he hprot i (find_mem hfind) ((find_code hfind).symm.trans (caseCode_eq hkey))]

theorem setVals_cons (is : List Citem) (s : List UInt8) (c : String × Int) (calls : List (String × Int)) :
    setVals is s (c :: calls) = setVals is (kcfgSetVal is s c.1 c.2).1 calls := rfl

theorem length_setVals (is : List Citem) (s : List UInt8) (calls : List (String × Int)) :
    (setVals is s calls).length = s.length := by
  induction calls generalizing s with
  | nil => rfl
  | cons c calls ih => rw [setVals_cons, ih, length_kcfgSetVal]

/-- An item's default set by its key: a protected item that had its default has it, and the item itself. -/
theorem get_setDflt (ht : Table is size) (hs : s.length = size) (hj : j ∈ is) (he : e ∈ is) (hprot : e.Protected)
    (h : e = j ∨ e.field.get s = e.dflt) : e.field.get (kcfgSetVal is s j.key (j.dflt : Int)).1 = e.dflt := by
  by_cases hej : e = j
  · subst hej
    have hin : e.field.byte < s.length := hs ▸ ht.inside e he
    have hcase := kcfgSetVal_some (e.dflt : Int) ht hs (find_protected ht he hprot (strcaseEq_iff.2 rfl))
    generalize kcfgSetVal is s e.key (e.dflt : Int) = res at hcase
    cases hcase with
    | kept hne hkey => exact absurd rfl hne
    | large hlarge hkey => exact absurd (by exact_mod_cast hlarge) (not_lt.2 (ht.dflt e he hprot))
    | put hle hkey => exact BitField.get_put_self (ht.fits e he) hin (ht.dflt e he hprot)
  · have hkept := h.resolve_left hej
    cases hfind : findCitem is j.key with
    | none =>
      rw [kcfgSetVal_none hfind]
      exact hkept
    | some i =>
      have hie : i ≠ e := by
        rintro rfl
        exact hej (ht.alone i he hprot j hj (find_code hfind)).symm
      have hcase := kcfgSetVal_some (j.dflt : Int) ht hs hfind
      generalize kcfgSetVal is s j.key (j.dflt : Int) = res at hcase
      cases hcase with
      | kept hne hkey => exact hkept
      | large hlarge hkey => exact hkept
      | put hle hkey =>
        rw [BitField.get_put_of_disjoint (ht.fits i (find_mem hfind)) (ht.fits e he) (by exact_mod_cast hle)
          (ht.disjoint (find_mem hfind) he hie)]
        exact hkept

/-- The protected items of a list of items are set to their defaults one after the other. -/
theorem setVals_dflts (ht : Table is size) (js : List Citem) (hjs : ∀ j ∈ js, j ∈ is) (hs : s.length = size)
    (h : ∀ e ∈ is, e.Protected → e ∈ js ∨ e.field.get s = e.dflt) :
    AllProtected is (setVals is s (js.map fun i => (i.key, (i.dflt : Int)))) := by
  induction js generalizing s with
  | nil => exact fun e he hprot => (h e he hprot).resolve_left List.not_mem_nil
  | cons j js ih =>
    rw [List.map_cons, setVals_cons]
    refine ih (fun i hi => hjs i (List.mem_cons_of_mem j hi))
      ((length_kcfgSetVal ..).trans hs) fun e he hprot => ?_
    have hj := hjs j List.mem_cons_self
    rcases h e he hprot with hmem | hget
    · rcases List.mem_cons.1 hmem with heq | hmem
      · exact .inr (get_setDflt ht hs hj he hprot (.inl heq))
      · exact .inl hmem
    · exact .inr (get_setDflt ht hs hj he hprot (.inr hget))

/-- Calls with keys that are protected or find no protected item, and values that are not negative. -/
theorem allProtected_setVals (ht : Table is size) (hs : s.length = size) (h : AllProtected is s)
    {calls : List (String × Int)}
    (hcalls : ∀ c ∈ calls, 0 ≤ c.2 ∧ (c.1 ∈ enforcedKeys ∨ caseCode c.1 ∉ enforcedCodes)) :
    AllProtected is (setVals is s calls) := by
  induction calls generalizing s with
  | nil => exact h
  | cons c calls ih =>
    rw [setVals_cons]
    rw [List.forall_mem_cons] at hcalls
    obtain ⟨⟨h0, hkey⟩, hrest⟩ := hcalls
    obtain ⟨v, hv⟩ := Int.eq_ofNat_of_zero_le h0
    refine ih ((length_kcfgSetVal ..).trans hs) ?_ hrest
    rw [hv]
    refine allProtected_set ht hs h fun i hi hprot => .inl (hkey.resolve_right ?_)
    rw [not_not, find_code hi]
    exact List.mem_map_of_mem hprot

theorem createCalls_regular (t : KeyerType) :
    ∀ c ∈ createCalls t, 0 ≤ c.2 ∧ (c.1 ∈ enforcedKeys ∨ caseCode c.1 ∉ enforcedCodes) := by
  cases t <;> decide

theorem mk1_regular (mode : Int) (h : 0 ≤ mode) : ∀ c ∈ [("r1ForceKeyerMode", (0 : Int)), ("r1KeyerMode", mode)],
    0 ≤ c.2 ∧ (c.1 ∈ enforcedKeys ∨ caseCode c.1 ∉ enforcedCodes) := by
  have h1 : caseCode "r1ForceKeyerMode" ∉ enforcedCodes := by decide
  have h2 : caseCode "r1KeyerMode" ∉ enforcedCodes := by decide
  intro c hc
  rcases List.mem_cons.1 hc with rfl | hc
  · exact ⟨le_refl _, .inr h1⟩
  · obtain rfl := List.mem_singleton.1 hc
    exact ⟨h, .inr h2⟩

/-- A byte no protected item is in. -/
theorem allProtected_setByte {n : Nat} {b : UInt8} (h : AllProtected is s)
    (hn : ∀ e ∈ is, e.Protected → e.field.byte ≠ n) : AllProtected is (s.set n b) := by
  intro e he hprot
  rw [BitField.get, List.getD_eq_getElem?_getD, List.getElem?_set_ne (hn e he hprot).symm,
    ← List.getD_eq_getElem?_getD]
  exact h e he hprot

/-- Where the protected items of the MK family are. -/
theorem protected_byte {t : KeyerType} (ht : t.isMkFamily = true) :
    ∀ e ∈ items t, e.Protected → e.field.byte = 10 := by
  cases t <;> first | exact absurd ht (by decide) | decide

theorem allProtected_mk1SetFrbase {t : KeyerType} (hmk : t.isMkFamily = true) (hs : s.length = bufSize t)
    (h : AllProtected (items t) s) : AllProtected (items t) (mk1SetFrbase t s) := by
  have hbyte {n : Nat} (hn : n ≠ 10) : ∀ e ∈ items t, e.Protected → e.field.byte ≠ n := by
    intro e he hprot
    rw [protected_byte hmk e he hprot]
    exact hn.symm
  have hmode : AllProtected (items t) (mk1Mode t s).2 := by
    unfold mk1Mode
    split_ifs with hck
    · exact h
    · exact allProtected_setVals (table_items t) hs h (mk1_regular _ (by decide))
    · exact allProtected_setVals (table_items t) hs h (mk1_regular _ (by decide))
  unfold mk1SetFrbase
  exact allProtected_setByte (allProtected_setByte hmode (hbyte (by decide))) (hbyte (by decide))

theorem allProtected_create (t : KeyerType) : AllProtected (items t) (kcfgCreate t) := by
  have ht := table_items t
  have hlen : (List.replicate (bufSize t) (0 : UInt8)).length = bufSize t := List.length_replicate
  have hdflts := setVals_dflts ht (items t) (fun _ hj => hj) hlen fun e he _ => .inl he
  have hlen' := (length_setVals (items t) _ ((items t).map fun i => (i.key, (i.dflt : Int)))).trans hlen
  unfold kcfgCreate
  generalize setVals (items t) (List.replicate (bufSize t) 0) ((items t).map fun i => (i.key, (i.dflt : Int))) = s
    at hdflts hlen'
  by_cases hmk : t.isMkFamily = true
  · have hbyte {n : Nat} (hn : 10 ≠ n) : ∀ e ∈ items t, e.Protected → e.field.byte ≠ n := by
      intro e he hprot
      rw [protected_byte hmk e he hprot]
      exact hn
    have hmodes : AllProtected (items t) ((s.set MK1_FRBASE_VOICE 0x7f).set MK1_FRBASE_DIGITAL 0x95) :=
      allProtected_setByte (allProtected_setByte hdflts (hbyte (by decide))) (hbyte (by decide))
    have hlen'' : ((s.set MK1_FRBASE_VOICE 0x7f).set MK1_FRBASE_DIGITAL 0x95).length = bufSize t := by
      rw [List.length_set, List.length_set, hlen']
    dsimp only
    rw [if_pos hmk, if_pos hmk]
    exact allProtected_mk1SetFrbase hmk ((length_setVals ..).trans hlen'')
      (allProtected_setVals ht hlen'' hmodes (createCalls_regular t))
  · dsimp only
    rw [if_neg hmk, if_neg hmk]
    exact allProtected_setVals ht hlen' hdflts (createCalls_regular t)

theorem length_mk1SetFrbase (t : KeyerType) (s : List UInt8) : (mk1SetFrbase t s).length = s.length := by
  have hmode : (mk1Mode t s).2.length = s.length := by
    unfold mk1Mode
    split_ifs
    · rfl
    · exact (length_kcfgSetVal ..).trans (length_kcfgSetVal ..)
    · exact (length_kcfgSetVal ..).trans (length_kcfgSetVal ..)
  unfold mk1SetFrbase
  simp only [List.length_set]
  exact hmode

theorem length_create (t : KeyerType) : (kcfgCreate t).length = bufSize t := by
  unfold kcfgCreate
  dsimp only
  split_ifs
  · simp only [length_mk1SetFrbase, length_setVals, List.length_set, List.length_replicate]
  · simp only [length_setVals, List.length_replicate]

/-- The CW switching options of a keyer keep their defaults in a run of `kcfg_set_val` exactly if every call is refused
or the bits it writes are those of the defaults. -/
theorem protected_iff (t : KeyerType) (calls : List (String × Int)) :
    (∀ as, as <+: calls → AllProtected (items t) (Run.run (setStep (items t)) (kcfgCreate t) as)) ↔
      ∀ c ∈ calls, Spares (items t) c.1 c.2 := by
  have hrun : (∀ as, as <+: calls → AllProtected (items t) (Run.run (setStep (items t)) (kcfgCreate t) as)) ↔
      Run.StepsOk (setStep (items t)) (fun _ c => Spares (items t) c.1 c.2) (kcfgCreate t) calls :=
    Run.forall_prefix_iff (I := fun s => s.length = bufSize t)
      (fun s c hs h => ⟨(length_setStep ..).trans hs, allProtected_set_iff (table_items t) hs h⟩)
      (length_create t) (allProtected_create t) calls
  exact hrun.trans Run.stepsOk_const_iff

/-- A protected option with its key in small letters. -/
theorem protected_other_letters :
    ¬ ∀ as, as <+: [("r1frbase_cw.audiorx", 1)] → AllProtected (items .mk2) (Run.run (setStep (items .mk2)) (kcfgCreate .mk2) as) := by
  intro h
  have hset := h _ (List.prefix_refl _)
  rw [Run.run_cons, Run.run_nil, setStep] at hset
  have hspares := (allProtected_set_iff (table_items .mk2) (length_create .mk2) (allProtected_create .mk2)).1 hset
  have hmem : (⟨"r1FrBase_Cw.audioRx", 10, 1, 2, AUDIO_SW_D⟩ : Citem) ∈ items .mk2 := by decide
  have hfind := find_protected (table_items .mk2) hmem (by decide)
    (by decide : strcaseEq "r1frbase_cw.audiorx" "r1FrBase_Cw.audioRx" = true)
  rcases hspares _ hfind with h | h | h
  · exact absurd h.2 (by decide)
  · exact absurd h (by decide)
  · exact absurd (h _ hmem (by decide) rfl 0 (by decide)) (by decide)

end Kcfg

end Mhuxd
