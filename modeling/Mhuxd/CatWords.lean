import Mhuxd.CatState
import Mhuxd.Lib.Run

/-!
# The radio's state as the code stores it (`cat_state.c`)

Values are 32-bit words with a time and a validity mark, arguments are what a caller passes. A VFO record is
compared with `memcmp`: times and what is left of unknown values count.
-/

namespace Mhuxd

def CAT_MODE_NONE : Int := 0
def CAT_MODE_LSB : Int := 1
def CAT_MODE_USB : Int := 2
def CAT_MODE_AM : Int := 7
def CAT_MODE_FM : Int := 9
def CAT_MODE_PKTLSB : Int := 11
def CAT_MODE_PKTUSB : Int := 12
def CAT_MODE_PKTAM : Int := 13
def CAT_MODE_PKTFM : Int := 14
def CAT_MODE_MAX : Int := 19

/-- `struct cat_item`. -/
structure ItemWord where
  val : UInt32
  tMs : UInt64
  valid : Bool
deriving DecidableEq, Repr

/-- `struct cat_vfo_state`. -/
structure VfoWords where
  freq : ItemWord
  mode : ItemWord
  data : ItemWord
deriving DecidableEq, Repr

/-- `struct cat_state`. -/
structure CatWords where
  sel : VfoWords
  unsel : VfoWords
  split : ItemWord
  vfoAb : ItemWord
  changes : UInt32
deriving DecidableEq, Repr

namespace ItemWord

def zero : ItemWord := ⟨0, 0, false⟩

/-- `item_set`: the item and what it adds to `changes`. -/
def set (it : ItemWord) (val : UInt32) (t : UInt64) : ItemWord × Nat :=
  (⟨val, t, true⟩, if it.valid = false ∨ it.val ≠ val then 1 else 0)

/-- `item_invalidate`. -/
def invalidate (it : ItemWord) : ItemWord × Nat := ({ it with valid := false }, if it.valid then 1 else 0)

/-- What is known. -/
def known (it : ItemWord) : Option UInt32 := if it.valid then some it.val else none

end ItemWord

/-- What is known of a VFO. -/
structure VfoView where
  freq : Option UInt32
  mode : Option UInt32
  data : Option UInt32
deriving DecidableEq, Repr

namespace VfoWords

def zero : VfoWords := ⟨.zero, .zero, .zero⟩

def known (v : VfoWords) : VfoView := ⟨v.freq.known, v.mode.known, v.data.known⟩

/-- The items are invalidated, with what it adds to `changes`. -/
def invalidate (v : VfoWords) : VfoWords × Nat :=
  (⟨v.freq.invalidate.1, v.mode.invalidate.1, v.data.invalidate.1⟩,
    v.freq.invalidate.2 + v.mode.invalidate.2 + v.data.invalidate.2)

end VfoWords

/-- `mode_without_data`: the base mode, and whether the data flag is set. -/
def modeWithoutData (mode : Int) : Int × Bool :=
  if mode = CAT_MODE_PKTLSB then (CAT_MODE_LSB, true)
  else if mode = CAT_MODE_PKTUSB then (CAT_MODE_USB, true)
  else if mode = CAT_MODE_PKTAM then (CAT_MODE_AM, true)
  else if mode = CAT_MODE_PKTFM then (CAT_MODE_FM, true)
  else (mode, false)

/-- The operations; an argument of type `int` may be any. -/
inductive CatOp
  | setFreq (vfo : Int) (hz : UInt32) (t : UInt64)
  | setMode (vfo mode : Int) (t : UInt64)
  | setData (vfo data : Int) (t : UInt64)
  | setSplit (split : Int) (t : UInt64)
  | selectVfo (ab : Int) (t : UInt64)
  | exchangeVfos
  | equalizeVfos

namespace CatWords

/-- `cat_state_init`. -/
def init : CatWords := ⟨.zero, .zero, .zero, .zero, 0⟩

/-- A flag of C. -/
def flag (z : Int) : UInt32 := if z = 0 then 0 else 1

def count (w : CatWords) (n : Nat) : CatWords := { w with changes := w.changes + UInt32.ofNat n }

/-- A VFO slot is modified; `valid_vfo` is looked at first. -/
def onVfo (w : CatWords) (vfo : Int) (f : VfoWords → VfoWords × Nat) : CatWords :=
  if vfo = 0 then { w with sel := (f w.sel).1 }.count (f w.sel).2
  else if vfo = 1 then { w with unsel := (f w.unsel).1 }.count (f w.unsel).2
  else w

/-- `cat_state_set_freq`. -/
def setFreq (w : CatWords) (vfo : Int) (hz : UInt32) (t : UInt64) : CatWords :=
  w.onVfo vfo fun v => ({ v with freq := (v.freq.set hz t).1 }, (v.freq.set hz t).2)

/-- What `cat_state_set_mode` does to a VFO. -/
def modeOf (mode : Int) (t : UInt64) (v : VfoWords) : VfoWords × Nat :=
  let (base, data) := modeWithoutData mode
  let val := UInt32.ofNat base.toNat
  let (item, n) := if v.mode.valid = false ∨ v.mode.val ≠ val then v.data.invalidate else (v.data, 0)
  let (mode, m) := v.mode.set val t
  let (item, k) := if data then item.set 1 t else (item, 0)
  ({ v with mode := mode, data := item }, n + m + k)

/-- `cat_state_set_mode`. -/
def setMode (w : CatWords) (vfo mode : Int) (t : UInt64) : CatWords :=
  if mode ≤ CAT_MODE_NONE ∨ CAT_MODE_MAX ≤ mode then w else w.onVfo vfo (modeOf mode t)

/-- `cat_state_set_data`. -/
def setData (w : CatWords) (vfo data : Int) (t : UInt64) : CatWords :=
  w.onVfo vfo fun v => ({ v with data := (v.data.set (flag data) t).1 }, (v.data.set (flag data) t).2)

/-- `cat_state_set_split`. -/
def setSplit (w : CatWords) (split : Int) (t : UInt64) : CatWords :=
  { w with split := (w.split.set (flag split) t).1 }.count (w.split.set (flag split) t).2

/-- `swap_vfos`, `cat_state_exchange_vfos`. -/
def exchangeVfos (w : CatWords) : CatWords :=
  { w with sel := w.unsel, unsel := w.sel }.count (if w.sel = w.unsel then 0 else 1)

/-- `cat_state_equalize_vfos`. -/
def equalizeVfos (w : CatWords) : CatWords := { w with unsel := w.sel }.count (if w.sel = w.unsel then 0 else 1)

/-- The slots before a VFO is selected: they are exchanged, or nothing is known of them any more. -/
def turnVfos (w : CatWords) (ab : UInt32) : CatWords :=
  if w.vfoAb.valid then if w.vfoAb.val ≠ ab then w.exchangeVfos else w
  else { w with sel := w.sel.invalidate.1, unsel := w.unsel.invalidate.1 }.count (w.sel.invalidate.2 + w.unsel.invalidate.2)

/-- `cat_state_select_vfo`. -/
def selectVfo (w : CatWords) (ab : Int) (t : UInt64) : CatWords :=
  { w.turnVfos (flag ab) with vfoAb := (w.vfoAb.set (flag ab) t).1 }.count (w.vfoAb.set (flag ab) t).2

def step (w : CatWords) : CatOp → CatWords
  | .setFreq vfo hz t => w.setFreq vfo hz t
  | .setMode vfo mode t => w.setMode vfo mode t
  | .setData vfo data t => w.setData vfo data t
  | .setSplit split t => w.setSplit split t
  | .selectVfo ab t => w.selectVfo ab t
  | .exchangeVfos => w.exchangeVfos
  | .equalizeVfos => w.equalizeVfos

end CatWords

/-! ### Values -/

/-- The number of a mode that is neither none nor one with data. -/
def BaseMode (val : UInt32) : Prop := val ≠ 0 ∧ val < 19 ∧ ¬ (11 ≤ val ∧ val ≤ 14)

instance (val : UInt32) : Decidable (BaseMode val) := inferInstanceAs (Decidable (_ ∧ _))

/-- The known values of a VFO are values of their kind. -/
structure VfoWords.Sound (v : VfoWords) : Prop where
  mode : ∀ m ∈ v.mode.known, BaseMode m
  data : ∀ d ∈ v.data.known, d ≤ 1

/-- The known values are values of their kind. -/
structure CatWords.Sound (w : CatWords) : Prop where
  sel : w.sel.Sound
  unsel : w.unsel.Sound
  split : ∀ s ∈ w.split.known, s ≤ 1
  vfoAb : ∀ ab ∈ w.vfoAb.known, ab ≤ 1

namespace ItemWord

variable (it : ItemWord) (val : UInt32) (t : UInt64)

@[simp] theorem known_zero : zero.known = none := rfl

@[simp] theorem known_set : (it.set val t).1.known = some val := rfl

@[simp] theorem known_invalidate : it.invalidate.1.known = none := rfl

theorem set_count_eq_zero : (it.set val t).2 = 0 ↔ it.known = some val := by
  cases hv : it.valid <;> simp [set, known, hv]

theorem set_count_le : (it.set val t).2 ≤ 1 := by
  unfold set
  dsimp only
  split_ifs <;> omega

theorem invalidate_count_le : it.invalidate.2 ≤ 1 := by
  unfold invalidate
  dsimp only
  split_ifs <;> omega

end ItemWord

namespace VfoWords

theorem Sound.zero : zero.Sound where
  mode m hm := absurd hm (by simp [VfoWords.zero])
  data d hd := absurd hd (by simp [VfoWords.zero])

theorem Sound.invalidate (v : VfoWords) : v.invalidate.1.Sound where
  mode m hm := absurd hm (by simp [VfoWords.invalidate])
  data d hd := absurd hd (by simp [VfoWords.invalidate])

end VfoWords

namespace CatWords

variable {w : CatWords} {v : VfoWords} {mode : Int} {t : UInt64}

theorem flag_le (z : Int) : flag z ≤ 1 := by
  unfold flag
  split_ifs <;> decide

theorem baseMode_number (h : ¬ (mode ≤ CAT_MODE_NONE ∨ CAT_MODE_MAX ≤ mode)) :
    BaseMode (UInt32.ofNat (modeWithoutData mode).1.toNat) := by
  simp only [CAT_MODE_NONE, CAT_MODE_MAX, not_or, not_le] at h
  obtain ⟨n, rfl⟩ := Int.eq_ofNat_of_zero_le h.1.le
  have hlt : n < 19 := by omega
  have hpos : 0 < n := by omega
  interval_cases n <;> decide

theorem sound_modeOf (h : v.Sound) (hmode : ¬ (mode ≤ CAT_MODE_NONE ∨ CAT_MODE_MAX ≤ mode)) :
    (modeOf mode t v).1.Sound := by
  have hbase := baseMode_number hmode
  have hset (it : ItemWord) : ∀ d ∈ (it.set 1 t).1.known, d ≤ 1 := by
    intro d hd
    obtain rfl := Option.some.inj hd
    show (1 : UInt32) ≤ 1
    decide
  unfold modeOf
  generalize modeWithoutData mode = p at hbase
  obtain ⟨base, data⟩ := p
  refine ⟨fun m hm => ?_, fun d hd => ?_⟩
  · obtain rfl := Option.some.inj hm
    exact hbase
  · dsimp only at hd
    split_ifs at hd with hdata hnew hnew
    · exact hset _ d hd
    · exact hset _ d hd
    · exact absurd hd (by simp)
    · exact h.data d hd

theorem Sound.onVfo (h : w.Sound) {vfo : Int} {f : VfoWords → VfoWords × Nat}
    (hf : ∀ v : VfoWords, v.Sound → (f v).1.Sound) : (w.onVfo vfo f).Sound := by
  unfold CatWords.onVfo
  split_ifs
  · exact ⟨hf _ h.sel, h.unsel, h.split, h.vfoAb⟩
  · exact ⟨h.sel, hf _ h.unsel, h.split, h.vfoAb⟩
  · exact h

theorem Sound.turnVfos (h : w.Sound) (ab : UInt32) : (w.turnVfos ab).Sound := by
  unfold CatWords.turnVfos
  split_ifs
  · exact ⟨h.unsel, h.sel, h.split, h.vfoAb⟩
  · exact h
  · exact ⟨.invalidate _, .invalidate _, h.split, h.vfoAb⟩

theorem Sound.step (h : w.Sound) (op : CatOp) : (w.step op).Sound := by
  have hflag (z : Int) : ∀ d ∈ some (flag z), d ≤ 1 := by
    intro d hd
    obtain rfl := Option.some.inj hd
    exact flag_le z
  cases op with
  | setFreq vfo hz t =>
    show (w.setFreq vfo hz t).Sound
    unfold setFreq
    refine h.onVfo fun v hv => ?_
    exact ⟨hv.mode, hv.data⟩
  | setMode vfo mode t =>
    show (w.setMode vfo mode t).Sound
    unfold setMode
    split_ifs with hmode
    · exact h
    · exact h.onVfo fun v hv => sound_modeOf hv hmode
  | setData vfo data t =>
    show (w.setData vfo data t).Sound
    unfold setData
    refine h.onVfo fun v hv => ?_
    exact ⟨hv.mode, hflag data⟩
  | setSplit split t => exact ⟨h.sel, h.unsel, hflag split, h.vfoAb⟩
  | selectVfo ab t =>
    have hturn := h.turnVfos (flag ab)
    exact ⟨hturn.sel, hturn.unsel, hturn.split, hflag ab⟩
  | exchangeVfos => exact ⟨h.unsel, h.sel, h.split, h.vfoAb⟩
  | equalizeVfos => exact ⟨h.sel, h.sel, h.split, h.vfoAb⟩

theorem Sound.init : init.Sound where
  sel := .zero
  unsel := .zero
  split s hs := absurd hs (by simp [CatWords.init])
  vfoAb ab hab := absurd hab (by simp [CatWords.init])

/-! ### The change counter -/

/-- Everything that is reported. -/
structure Reported where
  sel : VfoView
  unsel : VfoView
  split : Option UInt32
  vfoAb : Option UInt32
deriving DecidableEq

def reported (w : CatWords) : Reported := ⟨w.sel.known, w.unsel.known, w.split.known, w.vfoAb.known⟩

/-- An operation counts a change exactly if something that is reported changes. -/
def Counts (w : CatWords) (op : CatOp) : Prop :=
  if (w.step op).reported = w.reported then (w.step op).changes = w.changes
  else ∃ n : Nat, 1 ≤ n ∧ n ≤ 7 ∧ (w.step op).changes = w.changes + UInt32.ofNat n

/-- Where nothing would change for what is known, the whole records are equal: an exchange or a copy. -/
def ApartIfDistinct (w : CatWords) : CatOp → Prop
  | .exchangeVfos | .equalizeVfos => w.sel.known = w.unsel.known → w.sel = w.unsel
  | _ => True

instance (w : CatWords) : ∀ op, Decidable (w.ApartIfDistinct op)
  | .exchangeVfos | .equalizeVfos => inferInstanceAs (Decidable (_ → _))
  | .setFreq .. | .setMode .. | .setData .. | .setSplit .. | .selectVfo .. => inferInstanceAs (Decidable True)

/-- The counter is `n` higher, and `n` is zero exactly if the reported values are the same. -/
def Counted (w w' : CatWords) (n : Nat) : Prop :=
  n ≤ 7 ∧ w'.changes = w.changes + UInt32.ofNat n ∧ (n = 0 ↔ w'.reported = w.reported)

theorem Counted.counts {op : CatOp} {n : Nat} (h : Counted w (w.step op) n) : w.Counts op := by
  obtain ⟨hle, hchanges, hzero⟩ := h
  unfold Counts
  split_ifs with hsame
  · rw [hchanges, hzero.2 hsame]
    simp
  · have hne : n ≠ 0 := fun h0 => hsame (hzero.1 h0)
    exact ⟨n, by omega, hle, hchanges⟩

theorem counted_onVfo {vfo : Int} {f : VfoWords → VfoWords × Nat}
    (hf : ∀ v : VfoWords, (f v).2 ≤ 3 ∧ ((f v).2 = 0 ↔ (f v).1.known = v.known)) : ∃ n,
    Counted w (w.onVfo vfo f) n := by
  unfold onVfo
  split_ifs
  · obtain ⟨hle, hzero⟩ := hf w.sel
    refine ⟨_, le_trans hle (by omega), rfl, hzero.trans ?_⟩
    simp [reported, count]
  · obtain ⟨hle, hzero⟩ := hf w.unsel
    refine ⟨_, le_trans hle (by omega), rfl, hzero.trans ?_⟩
    simp [reported, count]
  · exact ⟨0, by omega, by simp, by simp⟩

theorem modeOf_count : (modeOf mode t v).2 ≤ 3 ∧ ((modeOf mode t v).2 = 0 ↔
    (modeOf mode t v).1.known = v.known) := by
  unfold modeOf
  generalize modeWithoutData mode = p
  obtain ⟨base, data⟩ := p
  dsimp only
  generalize UInt32.ofNat base.toNat = val
  have hmode := v.mode.set_count_eq_zero val t
  have hmodele := v.mode.set_count_le val t
  by_cases hnew : v.mode.valid = false ∨ v.mode.val ≠ val
  · -- the mode changes
    have hne : v.mode.known ≠ some val := by
      rcases hnew with h | h <;> simp [ItemWord.known, h]
    have hone : (v.mode.set val t).2 = 1 := if_pos hnew
    have hdatale := v.data.invalidate_count_le
    have hsetle := v.data.invalidate.1.set_count_le 1 t
    rw [if_pos hnew, hone]
    constructor
    · split_ifs <;> omega
    · constructor
      · intro h
        omega
      · intro h
        have hm := congrArg VfoView.mode h
        exact absurd hm.symm hne
  · have hsame : v.mode.known = some val := by
      simp only [not_or, Bool.not_eq_false, not_not] at hnew
      simp [ItemWord.known, hnew]
    have hzero := hmode.2 hsame
    have hdata := v.data.set_count_eq_zero 1 t
    have hdatale := v.data.set_count_le 1 t
    rw [if_neg hnew, hzero]
    dsimp only
    split_ifs
    · refine ⟨by omega, ?_⟩
      rw [show 0 + 0 + (v.data.set 1 t).2 = (v.data.set 1 t).2 by omega, hdata]
      simp [VfoWords.known, hsame, eq_comm]
    · simp [VfoWords.known, hsame]

theorem counted_selectVfo (w : CatWords) (ab : Int) (t : UInt64) : ∃ n, Counted w (w.selectVfo ab t) n := by
  have hset := w.vfoAb.set_count_eq_zero (flag ab) t
  have hsetle := w.vfoAb.set_count_le (flag ab) t
  unfold selectVfo turnVfos
  by_cases hvalid : w.vfoAb.valid = true
  · by_cases hab : w.vfoAb.val = flag ab
    · -- the same VFO again
      have hknown : w.vfoAb.known = some (flag ab) := by simp [ItemWord.known, hvalid, hab]
      rw [if_pos hvalid, if_neg (not_not_intro hab)]
      exact ⟨0, by omega, by simp [count, hset.2 hknown], by simp [reported, count, hknown]⟩
    · have hknown : w.vfoAb.known ≠ some (flag ab) := by simp [ItemWord.known, hvalid, hab]
      have hone : (w.vfoAb.set (flag ab) t).2 = 1 := by
        have hne := mt hset.1 hknown
        omega
      rw [if_pos hvalid, if_pos hab, hone]
      refine ⟨(if w.sel = w.unsel then 0 else 1) + 1, ?_, ?_, ?_⟩
      · split_ifs <;> omega
      · simp [exchangeVfos, count, UInt32.ofNat_add, UInt32.add_assoc]
      · simp [reported, exchangeVfos, count, Ne.symm hknown]
  · -- which VFO was selected is not known
    have hknown : w.vfoAb.known ≠ some (flag ab) := by simp [ItemWord.known, hvalid]
    have hone : (w.vfoAb.set (flag ab) t).2 = 1 := by
      have hne := mt hset.1 hknown
      omega
    rw [if_neg hvalid, hone]
    refine ⟨w.sel.invalidate.2 + w.unsel.invalidate.2 + 1, ?_, ?_, ?_⟩
    · have h1 := w.sel.freq.invalidate_count_le
      have h2 := w.sel.mode.invalidate_count_le
      have h3 := w.sel.data.invalidate_count_le
      have h4 := w.unsel.freq.invalidate_count_le
      have h5 := w.unsel.mode.invalidate_count_le
      have h6 := w.unsel.data.invalidate_count_le
      simp only [VfoWords.invalidate]
      omega
    · simp [count, UInt32.ofNat_add, UInt32.add_assoc]
    · simp [reported, count, Ne.symm hknown]

/-- The counter of an exchange or a copy is right exactly if records with the same known values are equal. -/
theorem counts_iff (w : CatWords) (op : CatOp) : w.Counts op ↔ w.ApartIfDistinct op := by
  have hvfos {w' : CatWords} (hw : w'.changes = w.changes + UInt32.ofNat (if w.sel = w.unsel then 0 else 1))
      (hrep : w'.reported = w.reported ↔ w.sel.known = w.unsel.known) :
      (if w'.reported = w.reported then w'.changes = w.changes
        else ∃ n : Nat, 1 ≤ n ∧ n ≤ 7 ∧ w'.changes = w.changes + UInt32.ofNat n) ↔
      (w.sel.known = w.unsel.known → w.sel = w.unsel) := by
    rw [hw]
    by_cases hknown : w.sel.known = w.unsel.known
    · rw [if_pos (hrep.2 hknown)]
      by_cases heq : w.sel = w.unsel
      · simp [heq]
      · simp [heq, hknown]
    · have heq : w.sel ≠ w.unsel := fun h => hknown (congrArg VfoWords.known h)
      rw [if_neg (mt hrep.1 hknown), if_neg heq]
      exact ⟨fun _ h => absurd h hknown, fun _ => ⟨1, by omega, by omega, rfl⟩⟩
  have hother (h : ∃ n, Counted w (w.step op) n) : w.Counts op ↔ True :=
    iff_true_intro (h.elim fun _ hn => hn.counts)
  cases op with
  | setFreq vfo hz t =>
    refine hother (counted_onVfo fun v => ⟨(v.freq.set_count_le hz t).trans (by omega), ?_⟩)
    rw [v.freq.set_count_eq_zero hz t]
    simp [VfoWords.known, eq_comm]
  | setMode vfo mode t =>
    refine hother ?_
    show ∃ n, Counted w (w.setMode vfo mode t) n
    unfold setMode
    split_ifs with hmode
    · exact ⟨0, by omega, by simp, by simp⟩
    · exact counted_onVfo fun v => modeOf_count
  | setData vfo data t =>
    refine hother (counted_onVfo fun v => ⟨(v.data.set_count_le (flag data) t).trans (by omega), ?_⟩)
    rw [v.data.set_count_eq_zero (flag data) t]
    simp [VfoWords.known, eq_comm]
  | setSplit split t =>
    refine hother ⟨_, (w.split.set_count_le (flag split) t).trans (by omega), rfl, ?_⟩
    rw [w.split.set_count_eq_zero (flag split) t]
    simp [reported, count, step, setSplit, eq_comm]
  | selectVfo ab t => exact hother (counted_selectVfo w ab t)
  | exchangeVfos =>
    refine hvfos rfl ?_
    simp only [reported, step, exchangeVfos, count, Reported.mk.injEq]
    constructor
    · rintro ⟨h, -⟩
      exact h.symm
    · intro h
      exact ⟨h.symm, h, trivial, trivial⟩
  | equalizeVfos =>
    refine hvfos rfl ?_
    simp [reported, step, equalizeVfos, count]

/-- In every run the known values are values of their kind, and the changes are counted exactly if no exchange or
copy meets records that differ in times or unknown values only. -/
theorem changes_counted_iff (ops : List CatOp) :
    ((∀ as, as <+: ops → (Run.run step init as).Sound) ∧ Run.StepsOk step Counts init ops) ↔
      Run.StepsOk step ApartIfDistinct init ops := by
  constructor
  · rintro ⟨-, hcounts⟩
    exact hcounts.mono fun w op => (counts_iff w op).1
  · intro hok
    refine ⟨fun as _ => Run.run_inv (fun w op h => h.step op) .init as, ?_⟩
    exact hok.mono fun w op => (counts_iff w op).2

/-- The same frequency is read for both VFOs, a millisecond apart, and they are exchanged. -/
theorem exchange_counted :
    ¬ ((∀ as, as <+: [.setFreq 0 14025000 1000, .setFreq 1 14025000 1001, .exchangeVfos] →
      (Run.run step init as).Sound) ∧
      Run.StepsOk step Counts init [.setFreq 0 14025000 1000, .setFreq 1 14025000 1001, .exchangeVfos]) := by
  intro h
  have hcounts := h.2.2.2.1
  unfold Counts at hcounts
  rw [if_pos (by decide)] at hcounts
  exact absurd hcounts (by decide)

end CatWords

/-! ### VFO A and B -/

namespace CatWords

/-- `cat_mode_with_data`. -/
def modeWithData (base : UInt32) (data : Bool) : UInt32 :=
  if data = false then base
  else if base = 1 then 11
  else if base = 2 then 12
  else if base = 7 then 13
  else if base = 9 then 14
  else base

/-- `cat_state_mode`, of the selected VFO. -/
def mode (w : CatWords) : UInt32 :=
  if w.sel.mode.valid then modeWithData w.sel.mode.val (w.sel.data.valid && w.sel.data.val != 0) else 0

/-- 0 for an unknown frequency. -/
def hz (it : ItemWord) : UInt32 := if it.valid then it.val else 0

/-- `cat_state_tx_freq`. -/
def txFreq (w : CatWords) : UInt32 := if w.split.valid && w.split.val != 0 then hz w.unsel.freq else hz w.sel.freq

/-- The mode and the frequencies of `struct mhc_radio_info`. -/
structure Info where
  mode : UInt32
  rxFreq : UInt32
  operFreq : UInt32
  txFreq : UInt32
  vfoAFreq : UInt32
  vfoBFreq : UInt32
deriving DecidableEq, Repr

/-- `cat_state_to_radio_info`. -/
def toRadioInfo (w : CatWords) : Info where
  mode := w.mode
  rxFreq := hz w.sel.freq
  operFreq := hz w.sel.freq
  txFreq := w.txFreq
  vfoAFreq := if w.vfoAb.valid && w.vfoAb.val == 1 then hz w.unsel.freq else hz w.sel.freq
  vfoBFreq := if w.vfoAb.valid && w.vfoAb.val == 1 then hz w.sel.freq else hz w.unsel.freq

end CatWords

/-- Two VFOs, A and B, and which of them is selected. -/
structure VfoPair where
  a : VfoView
  b : VfoView
  onB : Bool

/-- The operations on VFOs. -/
inductive VfoOp
  | select (ab : Int) (t : UInt64)
  | exchange
  | equalize

def VfoOp.op : VfoOp → CatOp
  | select ab t => .selectVfo ab t
  | exchange => .exchangeVfos
  | equalize => .equalizeVfos

namespace VfoPair

/-- The VFO that receives. -/
def rx (p : VfoPair) : VfoView := if p.onB then p.b else p.a

/-- The other one. -/
def other (p : VfoPair) : VfoView := if p.onB then p.a else p.b

def step (p : VfoPair) : VfoOp → VfoPair
  | .select ab _ => { p with onB := ab != 0 }
  | .exchange => { p with a := p.b, b := p.a }
  | .equalize => if p.onB then { p with a := p.b } else { p with b := p.a }

/-- What a pair of VFOs reports, with split on or off. -/
def info (p : VfoPair) (split : Bool) : CatWords.Info where
  mode := p.rx.mode.elim 0 fun m => CatWords.modeWithData m (p.rx.data.any (· != 0))
  rxFreq := p.rx.freq.getD 0
  operFreq := p.rx.freq.getD 0
  txFreq := if split then p.other.freq.getD 0 else p.rx.freq.getD 0
  vfoAFreq := p.a.freq.getD 0
  vfoBFreq := p.b.freq.getD 0

end VfoPair

namespace CatWords

variable {w : CatWords}

/-- The slots as VFO A and B. -/
def pair (w : CatWords) : VfoPair :=
  if w.vfoAb.val = 1 then ⟨w.unsel.known, w.sel.known, true⟩ else ⟨w.sel.known, w.unsel.known, false⟩

/-- It's known which VFO is selected. -/
def AbKnown (w : CatWords) : Prop := w.vfoAb.valid = true ∧ w.vfoAb.val ≤ 1

theorem rx_pair (w : CatWords) : w.pair.rx = w.sel.known := by
  by_cases hb : w.vfoAb.val = 1 <;> simp [pair, VfoPair.rx, hb]

theorem other_pair (w : CatWords) : w.pair.other = w.unsel.known := by
  by_cases hb : w.vfoAb.val = 1 <;> simp [pair, VfoPair.other, hb]

theorem getD_known (it : ItemWord) : it.known.getD 0 = hz it := by
  cases hv : it.valid <;> simp [ItemWord.known, hz, hv]

theorem mode_eq (w : CatWords) :
    w.mode = w.sel.known.mode.elim 0 fun m => modeWithData m (w.sel.known.data.any (· != 0)) := by
  unfold mode VfoWords.known ItemWord.known
  cases hm : w.sel.mode.valid <;> cases hd : w.sel.data.valid <;> simp

/-- The radio info is that of the pair. -/
theorem toRadioInfo_eq (h : w.AbKnown) : w.toRadioInfo = w.pair.info (w.split.known.any (· != 0)) := by
  have hsplit : w.split.known.any (· != 0) = (w.split.valid && w.split.val != 0) := by
    cases hv : w.split.valid <;> simp [ItemWord.known, hv]
  unfold toRadioInfo VfoPair.info
  rw [rx_pair, other_pair, hsplit, ← mode_eq]
  have ha : w.pair.a.freq.getD 0 = if w.vfoAb.valid && w.vfoAb.val == 1 then hz w.unsel.freq else hz w.sel.freq := by
    by_cases hb : w.vfoAb.val = 1 <;> simp [pair, hb, h.1, VfoWords.known, getD_known]
  have hb : w.pair.b.freq.getD 0 = if w.vfoAb.valid && w.vfoAb.val == 1 then hz w.sel.freq else hz w.unsel.freq := by
    by_cases hb : w.vfoAb.val = 1 <;> simp [pair, hb, h.1, VfoWords.known, getD_known]
  rw [ha, hb]
  simp only [VfoWords.known, getD_known, txFreq]

/-- The value of a selection that is known. -/
theorem AbKnown.val_eq (h : w.AbKnown) : w.vfoAb.val = 0 ∨ w.vfoAb.val = 1 := by
  have hle : w.vfoAb.val.toNat ≤ 1 := UInt32.le_iff_toNat_le.1 h.2
  rcases Nat.le_one_iff_eq_zero_or_eq_one.1 hle with h0 | h1
  · exact .inl (UInt32.toNat_inj.1 h0)
  · exact .inr (UInt32.toNat_inj.1 h1)

theorem AbKnown.step (h : w.AbKnown) (op : VfoOp) : (w.step op.op).AbKnown := by
  cases op with
  | select ab t => exact ⟨rfl, flag_le ab⟩
  | exchange => exact h
  | equalize => exact h

/-- An operation on the slots is the operation on the pair. -/
theorem pair_step (h : w.AbKnown) (op : VfoOp) : (w.step op.op).pair = w.pair.step op := by
  cases op with
  | select ab t =>
    show (w.selectVfo ab t).pair = _
    have hval : (w.selectVfo ab t).vfoAb.val = flag ab := rfl
    have hsel : (w.selectVfo ab t).sel = (w.turnVfos (flag ab)).sel := rfl
    have hunsel : (w.selectVfo ab t).unsel = (w.turnVfos (flag ab)).unsel := rfl
    unfold pair
    rw [hval, hsel, hunsel, turnVfos, if_pos h.1]
    rcases h.val_eq with hw | hw <;> by_cases hab : ab = 0 <;>
      simp [hw, hab, flag, exchangeVfos, count, VfoPair.step]
  | exchange =>
    by_cases hb : w.vfoAb.val = 1 <;>
      simp [pair, VfoOp.op, CatWords.step, exchangeVfos, count, VfoPair.step, hb]
  | equalize =>
    by_cases hb : w.vfoAb.val = 1 <;>
      simp [pair, VfoOp.op, CatWords.step, equalizeVfos, count, VfoPair.step, hb]

theorem split_step (w : CatWords) (op : VfoOp) : (w.step op.op).split = w.split := by
  cases op with
  | select ab t =>
    show (w.turnVfos (flag ab)).split = w.split
    unfold turnVfos
    split_ifs <;> rfl
  | exchange => rfl
  | equalize => rfl

theorem pair_run (h : w.AbKnown) (vops : List VfoOp) :
    (Run.run step w (vops.map VfoOp.op)).AbKnown ∧
      (Run.run step w (vops.map VfoOp.op)).pair = Run.run VfoPair.step w.pair vops ∧
      (Run.run step w (vops.map VfoOp.op)).split = w.split := by
  induction vops generalizing w with
  | nil => exact ⟨h, rfl, rfl⟩
  | cons op vops ih =>
    obtain ⟨hknown, hpair, hsplit⟩ := ih (h.step op)
    rw [List.map_cons, Run.run_cons, Run.run_cons, ← pair_step h]
    exact ⟨hknown, hpair, hsplit.trans (split_step w op)⟩

/-- Where it's known which VFO is selected, selecting, exchanging and copying VFOs is what it is on a plain pair,
and what is received and reported is that of the pair. -/
theorem vfos_refine_pair (ops : List CatOp) (hvalid : (Run.run step init ops).vfoAb.valid = true)
    (vops : List VfoOp) :
    let w := Run.run step init ops
    let w' := Run.run step w (vops.map VfoOp.op)
    let p := Run.run VfoPair.step w.pair vops
    w'.pair = p ∧ w'.sel.known = p.rx ∧ w'.toRadioInfo = p.info (w.split.known.any (· != 0)) := by
  intro w w' p
  have hsound : w.Sound := Run.run_inv (fun w op h => h.step op) .init ops
  have hknown : w.AbKnown := ⟨hvalid, hsound.vfoAb _ (by simp [ItemWord.known, w, hvalid])⟩
  obtain ⟨hknown', hpair, hsplit⟩ := pair_run hknown vops
  refine ⟨hpair, ?_, ?_⟩
  · rw [← rx_pair, hpair]
  · rw [toRadioInfo_eq hknown', hpair, hsplit]

/-- VFO B is selected, then exchanged with A, whose frequency is not known. -/
theorem vfos_refine_pair_unknown :
    let w := Run.run step init [.selectVfo 0 1, .setFreq 0 14025000 2]
    (Run.run step w [.selectVfo 1 3, .exchangeVfos]).toRadioInfo =
    ⟨0, 14025000, 14025000, 14025000, 0, 14025000⟩ := by
  have h := (vfos_refine_pair [.selectVfo 0 1, .setFreq 0 14025000 2] rfl [.select 1 3, .exchange]).2.2
  exact h.trans (by decide)

end CatWords

end Mhuxd
