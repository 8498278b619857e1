import Mhuxd.StationMaster
import Mhuxd.ConRegistry
import Mhuxd.Lib.BitField
import Mhuxd.Lib.LittleEndian
import Mhuxd.Lib.Run

/-!
# Configuration items (`citem.c`) and the options of the Station Master's band plan (`mhsm.c`)

An item is a few bits of a byte or a word of 16 or 24 bits. A word is written without looking at the value, a bit
field without a lower bound and with the access behind the buffer only reported.
-/

namespace Mhuxd

/-- `conv_2700_to_ms`: 1/2700 seconds to milliseconds with rounding. -/
def conv2700ToMs (input : Int) : Int := (castInt (input * 1000 + 1350)).tdiv 2700

def convMsTo2700 (input : Int) : Int := (castInt (input * 2700 + 500)).tdiv 1000

/-- `struct citem`, the two conversions together. -/
structure CfgItem where
  key : String
  idx : Nat
  baseBit : Nat
  width : Nat
  convIn : Option (Int → Int)
  convOut : Option (Int → Int)

namespace CfgItem

variable {i j : CfgItem} {s s' : List UInt8} {v : Nat} {z : Int}

/-- Multibyte values, LSB first. -/
def IsWord (i : CfgItem) : Prop := 8 < i.width ∧ i.width % 8 = 0

instance : DecidablePred IsWord := fun _ => inferInstanceAs (Decidable (_ ∧ _))

def bytes (i : CfgItem) : Nat := i.width / 8

def field (i : CfgItem) : BitField := ⟨i.idx + i.baseBit / 8, i.baseBit % 8 + 1 - i.width, i.width⟩

/-- The item's bytes lie in a buffer of the size. -/
def Inside (i : CfgItem) (size : Nat) : Prop := if i.IsWord then i.idx + i.bytes ≤ size else i.field.byte < size

instance (i : CfgItem) (size : Nat) : Decidable (i.Inside size) := by
  unfold Inside
  infer_instance

/-- The bits of the item in a buffer. -/
def read (i : CfgItem) (s : List UInt8) : Nat :=
  if i.IsWord then LittleEndian.get s i.idx i.bytes else i.field.get s

/-- What is put into the item for a value. -/
def input (i : CfgItem) (value : Int) : Int := i.convIn.elim value (· value)

def output (i : CfgItem) (val : Int) : Int := i.convOut.elim val (· val)

end CfgItem

def citemFind (is : List CfgItem) (key : String) : Option CfgItem := is.find? fun i => key == i.key

def citemGetValue (is : List CfgItem) (s : List UInt8) (key : String) : Int :=
  match citemFind is key with
  | none => -1
  | some i => if i.Inside s.length then i.output (i.read s) else -1

/-- The buffer afterwards and the result; `none` is an access behind the buffer. The branch for 16 bit values after
the multibyte ones is never taken: its bit is less than 8. -/
def citemSetValue (is : List CfgItem) (s : List UInt8) (key : String) (value : Int) : Option (List UInt8 × Int) :=
  match citemFind is key with
  | none => some (s, -1)
  | some i =>
    let value := i.input value
    if i.IsWord then
      if i.Inside s.length then some (LittleEndian.put s i.idx value i.bytes, 0) else some (s, -1)
    else if ¬ i.Inside s.length then none
    else if i.field.mask < value then some (s, -1)
    else some (i.field.put value s, 0)

namespace CfgItem

variable {i j : CfgItem} {s s' : List UInt8} {v : Nat} {z : Int}

/-! ### The bits of an item -/

/-- A word of 16 or 24 bits, or bits of one byte. -/
def Ok (i : CfgItem) : Prop := i.IsWord ∧ (i.width = 16 ∨ i.width = 24) ∨ i.width ≤ i.baseBit % 8 + 1

instance : DecidablePred Ok := fun _ => inferInstanceAs (Decidable (_ ∨ _))

/-- The first bit, counted from the start of the buffer. -/
def first (i : CfgItem) : Nat := if i.IsWord then 8 * i.idx else 8 * i.field.byte + i.field.shift

def Apart (i j : CfgItem) : Prop := i.first + i.width ≤ j.first ∨ j.first + j.width ≤ i.first

instance : DecidableRel Apart := fun _ _ => inferInstanceAs (Decidable (_ ∨ _))

instance : Std.Symm Apart := ⟨fun _ _ => Or.symm⟩

/-- The bit is in the item. -/
def Has (i : CfgItem) (n k : Nat) : Prop := i.first ≤ 8 * n + k ∧ 8 * n + k < i.first + i.width

instance (i : CfgItem) (n k : Nat) : Decidable (i.Has n k) := inferInstanceAs (Decidable (_ ∧ _))

/-- Two buffers have the same bits outside the item. -/
def SameBut (i : CfgItem) (s s' : List UInt8) : Prop :=
  s'.length = s.length ∧ ∀ n k, k < 8 → ¬ i.Has n k → BitField.bit s' n k = BitField.bit s n k

/-- The largest value. -/
def limit (i : CfgItem) : Nat := 2 ^ i.width - 1

theorem Ok.fits (h : i.Ok) (hw : ¬ i.IsWord) : i.field.Fits := by
  have hwidth : i.width ≤ i.baseBit % 8 + 1 := h.resolve_left fun h => hw h.1
  unfold BitField.Fits field
  dsimp only
  omega

theorem IsWord.width_eq (hw : i.IsWord) : i.width = 8 * i.bytes := by
  unfold IsWord at hw
  unfold bytes
  omega

theorem has_word (hw : i.IsWord) {n k : Nat} (hk : k < 8) : i.Has n k ↔ i.idx ≤ n ∧ n < i.idx + i.bytes := by
  have hwidth := hw.width_eq
  unfold Has first
  rw [if_pos hw]
  omega

theorem has_field (h : i.Ok) (hw : ¬ i.IsWord) {n k : Nat} (hk : k < 8) : i.Has n k ↔ i.field.Has n k := by
  have hfits := h.fits hw
  have hwidth : i.field.width = i.width := rfl
  unfold BitField.Fits at hfits
  unfold Has first BitField.Has
  rw [if_neg hw]
  omega

theorem Apart.not_has (h : i.Apart j) {n k : Nat} (hj : j.Has n k) : ¬ i.Has n k := by
  unfold Apart at h
  unfold Has at *
  omega

/-- An item is its bits. -/
theorem read_congr (h : i.Ok) (hbits : ∀ n k, k < 8 → i.Has n k → BitField.bit s' n k = BitField.bit s n k) :
    i.read s' = i.read s := by
  unfold read
  split_ifs with hw
  · refine LittleEndian.get_congr fun n h1 h2 => UInt8.eq_of_toBitVec_eq (BitVec.eq_of_getLsbD_eq fun k hk => ?_)
    exact hbits n k hk ((has_word hw hk).2 ⟨h1, h2⟩)
  · have hfits := h.fits hw
    refine Nat.eq_of_testBit_eq fun k => ?_
    rw [BitField.testBit_get, BitField.testBit_get]
    by_cases hk : k < i.field.width
    · unfold BitField.Fits at hfits
      have hlt : i.field.shift + k < 8 := by omega
      rw [hbits _ _ hlt ((has_field h hw hlt).2 ⟨rfl, by omega, by omega⟩)]
    · simp [hk]

theorem SameBut.read_eq (h : i.SameBut s s') (hj : j.Ok) (hapart : i.Apart j) : j.read s' = j.read s :=
  read_congr hj fun n k hk hhas => h.2 n k hk (hapart.not_has hhas)

theorem limit_lt (i : CfgItem) : i.limit < 2 ^ i.width := Nat.sub_lt (Nat.two_pow_pos _) Nat.one_pos

/-- A word that is put there is read back. -/
theorem put_word (hw : i.IsWord) (hin : i.Inside s.length) (hv : v ≤ i.limit) :
    i.read (LittleEndian.put s i.idx (v : Int) i.bytes) = v ∧
    i.SameBut s (LittleEndian.put s i.idx (v : Int) i.bytes) := by
  unfold Inside at hin
  rw [if_pos hw] at hin
  constructor
  · have hlt : v < 256 ^ i.bytes := by
      calc v ≤ i.limit := hv
        _ < 2 ^ i.width := i.limit_lt
        _ = 256 ^ i.bytes := by rw [hw.width_eq, Nat.pow_mul]
    unfold read
    rw [if_pos hw, LittleEndian.get_put hin hlt]
  · refine ⟨LittleEndian.length_put .., fun n k hk hout => ?_⟩
    rw [has_word hw hk] at hout
    unfold BitField.bit
    rw [LittleEndian.getD_put_of_out (by omega)]

theorem put_field (h : i.Ok) (hw : ¬ i.IsWord) (hin : i.Inside s.length) (hv : v ≤ i.limit) :
    i.read (i.field.put (v : Int) s) = v ∧ i.SameBut s (i.field.put (v : Int) s) := by
  unfold Inside at hin
  rw [if_neg hw] at hin
  have hsame := BitField.sameBut_put (h.fits hw) hin hv
  constructor
  · unfold read
    rw [if_neg hw, BitField.get_put_self (h.fits hw) hin hv]
  · refine ⟨hsame.1, fun n k hk hout => hsame.2 n k hk ?_⟩
    rwa [has_field h hw hk] at hout

end CfgItem

/-! ### Conversions -/

/-- The largest number of milliseconds that is converted, there and back, without an overflow. -/
def MS_MAX : Int := (INT_MAX - 1350) / 2700

/-- Milliseconds are read back as they are exactly if no conversion overflows. -/
theorem conv_ms_iff {ms : Int} (h0 : 0 ≤ convMsTo2700 ms) :
    conv2700ToMs (convMsTo2700 ms) = ms ↔ 0 ≤ ms ∧ ms ≤ MS_MAX := by
  have hint : INT_MAX = 2147483647 := rfl
  have hmax : MS_MAX = 795363 := rfl
  constructor
  · intro h
    -- what is read back is small, so the first conversion does not overflow
    have hback : -795364 ≤ ms ∧ ms ≤ 795364 := by
      have hle := CfgMgr.castInt_le (convMsTo2700 ms * 1000 + 1350)
      have hge : -2147483648 ≤ castInt (convMsTo2700 ms * 1000 + 1350) :=
        Int.le_bmod (x := convMsTo2700 ms * 1000 + 1350) (m := 2 ^ 32) (by decide)
      rw [conv2700ToMs, Int.tdiv_eq_ediv, show Int.sign 2700 = 1 from rfl] at h
      split_ifs at h <;> omega
    have hin : convMsTo2700 ms = (ms * 2700 + 500).tdiv 1000 := by
      unfold convMsTo2700 castInt
      rw [Int.bmod_eq_of_le (by omega) (by omega)]
    have hnonneg : 0 ≤ ms := by
      rw [hin, Int.tdiv_eq_ediv, show Int.sign 1000 = 1 from rfl] at h0
      split_ifs at h0 <;> omega
    refine ⟨hnonneg, ?_⟩
    by_contra hlarge
    obtain rfl : ms = 795364 := by omega
    exact absurd h (by decide)
  · rintro ⟨hnonneg, hle⟩
    have hin : convMsTo2700 ms = (ms * 2700 + 500) / 1000 := by
      unfold convMsTo2700
      rw [CfgMgr.castInt_eq (by omega) (by omega), Int.tdiv_eq_ediv_of_nonneg (by omega)]
    rw [hin]
    unfold conv2700ToMs
    rw [CfgMgr.castInt_eq (by omega) (by omega), Int.tdiv_eq_ediv_of_nonneg (by omega)]
    omega

/-- The items of a table don't overlap, and those that are converted are milliseconds. -/
structure ItemTable (is : List CfgItem) : Prop where
  ok : ∀ i ∈ is, i.Ok
  apart : is.Pairwise CfgItem.Apart
  conv : ∀ i ∈ is, i.convIn = none ∧ i.convOut = none ∨ i.convIn = some convMsTo2700 ∧ i.convOut = some conv2700ToMs

namespace Citem

open CfgItem (IsWord Inside Ok Apart)

variable {is : List CfgItem} {i j : CfgItem} {s : List UInt8} {key : String} {value : Int}

theorem find_mem (h : citemFind is key = some i) : i ∈ is := List.mem_of_find?_eq_some h

theorem find_key (h : citemFind is key = some i) : i.key = key := by
  have hkey := List.find?_some h
  exact (eq_of_beq hkey).symm

/-! ### Setting an item -/

/-- A value is accepted where there is an item for the key, its bytes lie in a buffer of the size and its converted
value fits. -/
def Accepts (is : List CfgItem) (size : Nat) (key : String) (value : Int) : Prop :=
  ∃ i ∈ citemFind is key, i.Inside size ∧ 0 ≤ i.input value ∧ i.input value ≤ i.limit

instance {size : Nat} : Decidable (Accepts is size key value) :=
  inferInstanceAs (Decidable (∃ i ∈ citemFind is key, i.Inside size ∧ 0 ≤ i.input value ∧ i.input value ≤ i.limit))

/-- What a call of `citem_set_value` is for: an accepted value is read back and no other bit changes, another one is an
error and changes nothing. -/
def SetGet (is : List CfgItem) (s : List UInt8) (key : String) (value : Int) : Prop :=
  (Accepts is s.length key value → ∀ i ∈ citemFind is key, ∃ s', citemSetValue is s key value = some (s', 0) ∧
    citemGetValue is s' key = value ∧ i.SameBut s s' ∧ ∀ j ∈ is, j ≠ i → j.read s' = j.read s) ∧
  (¬ Accepts is s.length key value → citemSetValue is s key value = some (s, -1))

/-- Of a word in the buffer the converted value fits, of bits in a byte it isn't negative and they are in the buffer.
Where the converted value fits, the conversions don't overflow. -/
def Regular (is : List CfgItem) (size : Nat) (key : String) (value : Int) : Prop :=
  ∀ i ∈ citemFind is key,
    (if i.IsWord then i.Inside size → 0 ≤ i.input value ∧ i.input value ≤ i.limit else i.Inside size ∧
      0 ≤ i.input value) ∧
    (i.convIn.isSome → i.Inside size → i.input value ≤ i.limit → 0 ≤ value ∧ value ≤ MS_MAX)

instance {size : Nat} : Decidable (Regular is size key value) :=
  inferInstanceAs (Decidable (∀ i ∈ citemFind is key, (if i.IsWord then _ else _) ∧ (_ → _ → _ → _ ∧ _)))

theorem setValue_some (h : citemFind is key = some i) : citemSetValue is s key value =
    if i.IsWord then
      if i.Inside s.length then some (LittleEndian.put s i.idx (i.input value) i.bytes, 0) else some (s, -1)
    else if ¬ i.Inside s.length then none
    else if i.field.mask < i.input value then some (s, -1)
    else some (i.field.put (i.input value) s, 0) := by
  unfold citemSetValue
  rw [h]

theorem getValue_some (h : citemFind is key = some i) :
    citemGetValue is s key = if i.Inside s.length then i.output (i.read s) else -1 := by
  unfold citemGetValue
  rw [h]

theorem accepts_iff (size : Nat) (value : Int) (h : citemFind is key = some i) :
    Accepts is size key value ↔ i.Inside size ∧ 0 ≤ i.input value ∧ i.input value ≤ i.limit := by
  unfold Accepts
  rw [h]
  simp

theorem regular_iff (h : citemFind is key = some i) {size : Nat} : Regular is size key value ↔
    (if i.IsWord then i.Inside size → 0 ≤ i.input value ∧ i.input value ≤ i.limit
      else i.Inside size ∧ 0 ≤ i.input value) ∧
    (i.convIn.isSome → i.Inside size → i.input value ≤ i.limit → 0 ≤ value ∧ value ≤ MS_MAX) := by
  unfold Regular
  rw [h]
  simp

/-- A value comes back through the conversions exactly if they don't overflow. -/
theorem output_input_iff (ht : ItemTable is) (hi : i ∈ is) (h0 : 0 ≤ i.input value) :
    i.output (i.input value) = value ↔ (i.convIn.isSome → 0 ≤ value ∧ value ≤ MS_MAX) := by
  rcases ht.conv i hi with ⟨hin, hout⟩ | ⟨hin, hout⟩
  · simp [CfgItem.input, CfgItem.output, hin, hout]
  · have hconv : i.input value = convMsTo2700 value := by simp [CfgItem.input, hin]
    rw [hconv] at h0 ⊢
    simpa [CfgItem.output, hin, hout] using conv_ms_iff h0

/-- An accepted value is put into its item. -/
theorem setValue_accepted (ht : ItemTable is) (h : citemFind is key = some i)
    (ha : Accepts is s.length key value) :
    ∃ s', citemSetValue is s key value = some (s', 0) ∧ (i.read s' : Int) = i.input value ∧ i.SameBut s s' := by
  obtain ⟨hin, h0, hle⟩ := (accepts_iff _ _ h).1 ha
  obtain ⟨v, hv⟩ := Int.eq_ofNat_of_zero_le h0
  have hvle : v ≤ i.limit := by omega
  have hok := ht.ok i (find_mem h)
  rw [setValue_some h, hv]
  by_cases hw : i.IsWord
  · obtain ⟨hread, hsame⟩ := CfgItem.put_word hw hin hvle
    refine ⟨_, ?_, congrArg _ hread, hsame⟩
    rw [if_pos hw, if_pos hin]
  · obtain ⟨hread, hsame⟩ := CfgItem.put_field hok hw hin hvle
    have hmask : ¬ (i.field.mask : Int) < (v : Int) := not_lt.2 (by exact_mod_cast hvle)
    refine ⟨_, ?_, congrArg _ hread, hsame⟩
    rw [if_neg hw, if_neg (not_not_intro hin), if_neg hmask]

theorem apart_of_ne (ht : ItemTable is) (hi : i ∈ is) (hj : j ∈ is) (hne : j ≠ i) : i.Apart j :=
  ht.apart.forall hi hj hne.symm

theorem setGet_accepted (ht : ItemTable is) (h : citemFind is key = some i) (ha : Accepts is s.length key value)
    (hconv : i.convIn.isSome → 0 ≤ value ∧ value ≤ MS_MAX) :
    ∃ s', citemSetValue is s key value = some (s', 0) ∧ citemGetValue is s' key = value ∧ i.SameBut s s' ∧
      ∀ j ∈ is, j ≠ i → j.read s' = j.read s := by
  obtain ⟨s', hset, hread, hsame⟩ := setValue_accepted ht h ha
  obtain ⟨hin, h0, -⟩ := (accepts_iff _ _ h).1 ha
  refine ⟨s', hset, ?_, hsame, fun j hj hne => ?_⟩
  · rw [getValue_some h, hsame.1, if_pos hin, hread]
    exact (output_input_iff ht (find_mem h) h0).2 hconv
  · exact hsame.read_eq (ht.ok j hj) (apart_of_ne ht (find_mem h) hj hne)

/-- An accepted value is read back exactly if no conversion overflows. -/
theorem setGet_accepted_iff (ht : ItemTable is) (h : citemFind is key = some i) (ha : Accepts is s.length key value) :
    SetGet is s key value ↔ (i.convIn.isSome → 0 ≤ value ∧ value ≤ MS_MAX) := by
  obtain ⟨hin, h0, -⟩ := (accepts_iff _ _ h).1 ha
  constructor
  · intro hs
    obtain ⟨s', hset, hget, -, -⟩ := hs.1 ha i h
    obtain ⟨s'', hset', hread, hsame⟩ := setValue_accepted ht h ha
    obtain rfl : s'' = s' := by simpa [hset] using hset'.symm
    rw [← output_input_iff ht (find_mem h) h0, ← hread]
    rwa [getValue_some h, hsame.1, if_pos hin] at hget
  · refine fun hconv => ⟨fun _ i' hi' => ?_, fun hn => absurd ha hn⟩
    obtain rfl := Option.some.inj (h.symm.trans hi')
    exact setGet_accepted ht h ha hconv

/-- A call does what it is for exactly if it's regular. -/
theorem setGet_iff (ht : ItemTable is) : SetGet is s key value ↔ Regular is s.length key value := by
  cases h : citemFind is key with
  | none =>
    refine iff_of_true ⟨fun _ i hi => ?_, fun _ => ?_⟩ fun i hi => ?_
    · rw [h] at hi
      cases hi
    · unfold citemSetValue
      rw [h]
    · rw [h] at hi
      cases hi
  | some i =>
    have hiff := accepts_iff (s.length) value h
    rw [regular_iff h]
    by_cases ha : Accepts is s.length key value
    · obtain ⟨hin, h0, hle⟩ := hiff.1 ha
      rw [setGet_accepted_iff ht h ha]
      have hrange : if i.IsWord then i.Inside s.length → 0 ≤ i.input value ∧ i.input value ≤ i.limit
          else i.Inside s.length ∧ 0 ≤ i.input value := by
        split_ifs
        · exact fun _ => ⟨h0, hle⟩
        · exact ⟨hin, h0⟩
      rw [and_iff_right hrange]
      exact ⟨fun hconv hsome _ _ => hconv hsome, fun hconv hsome => hconv hsome hin hle⟩
    · have hset : SetGet is s key value ↔ citemSetValue is s key value = some (s, -1) :=
        ⟨fun hs => hs.2 ha, fun hs => ⟨fun ha' => absurd ha' ha, fun _ => hs⟩⟩
      rw [hset, setValue_some h]
      rw [hiff] at ha
      by_cases hw : i.IsWord
      · rw [if_pos hw, if_pos hw]
        by_cases hin : i.Inside s.length
        · rw [if_pos hin]
          refine iff_of_false (fun heq => ?_) fun hr => ha ⟨hin, hr.1 hin⟩
          simp at heq
        · rw [if_neg hin]
          exact iff_of_true rfl ⟨fun hin' => absurd hin' hin, fun _ hin' => absurd hin' hin⟩
      · rw [if_neg hw, if_neg hw]
        by_cases hin : i.Inside s.length
        · rw [if_neg (not_not_intro hin)]
          split_ifs with hlarge
          · have hover : ¬ i.input value ≤ i.limit := not_le.2 hlarge
            exact iff_of_true rfl ⟨⟨hin, by omega⟩, fun _ _ hle => absurd hle hover⟩
          · refine iff_of_false (fun heq => ?_) fun hr => ha ⟨hin, hr.1.2, not_lt.1 hlarge⟩
            simp at heq
        · rw [if_pos hin]
          refine iff_of_false (fun heq => ?_) fun hr => hin hr.1.1
          cases heq

/-! ### Sequences of calls -/

/-- A call of `citem_set_value`. -/
structure Call where
  key : String
  value : Int
deriving DecidableEq, Repr

/-- An access behind the buffer leaves it here, the call is not what it should be anyway. -/
def setStep (is : List CfgItem) (s : List UInt8) (c : Call) : List UInt8 :=
  ((citemSetValue is s c.key c.value).map Prod.fst).getD s

/-- The values of the keys after a call: an accepted one is that of its key. -/
def valuesStep (is : List CfgItem) (size : Nat) (values : String → Int) (c : Call) : String → Int :=
  if Accepts is size c.key c.value then Function.update values c.key c.value else values

/-- The value of a key after regular calls is that of its last accepted one. -/
theorem getValue_step (c : Call) (h : SetGet is s c.key c.value) :
    citemGetValue is (setStep is s c) = valuesStep is s.length (citemGetValue is s) c := by
  unfold valuesStep setStep
  split_ifs with ha
  · obtain ⟨i, hi, -⟩ := id ha
    obtain ⟨s', hset, hget, hsame, hothers⟩ := h.1 ha i hi
    have hfind : citemFind is c.key = some i := hi
    funext key
    rw [hset]
    by_cases hkey : key = c.key
    · rw [hkey, Function.update_self]
      exact hget
    · rw [Function.update_of_ne hkey]
      show citemGetValue is s' key = citemGetValue is s key
      cases hj : citemFind is key with
      | none =>
        unfold citemGetValue
        rw [hj]
      | some j =>
        have hne : j ≠ i := by
          rintro rfl
          exact hkey ((find_key hj).symm.trans (find_key hfind))
        rw [getValue_some hj, getValue_some hj, hsame.1, hothers j (find_mem hj) hne]
  · rw [h.2 ha]
    rfl

theorem length_setStep (c : Call) (h : SetGet is s c.key c.value) : (setStep is s c).length = s.length := by
  unfold setStep
  by_cases ha : Accepts is s.length c.key c.value
  · obtain ⟨i, hi, -⟩ := id ha
    obtain ⟨s', hset, -, hsame, -⟩ := h.1 ha i hi
    rw [hset]
    exact hsame.1
  · rw [h.2 ha]
    rfl

/-- Every call of a sequence does what it is for, and the values of the keys are those of the sequence. -/
def SetGetAll (is : List CfgItem) (s : List UInt8) (cs : List Call) : Prop :=
  Run.StepsOk (setStep is) (fun s c => SetGet is s c.key c.value) s cs ∧
    citemGetValue is (Run.run (setStep is) s cs) = Run.run (valuesStep is s.length) (citemGetValue is s) cs

theorem setGetAll_cons (c : Call) (cs : List Call) :
    SetGetAll is s (c :: cs) ↔ SetGet is s c.key c.value ∧ SetGetAll is (setStep is s c) cs := by
  unfold SetGetAll
  rw [Run.run_cons, Run.run_cons, Run.StepsOk, and_assoc]
  refine and_congr_right fun h => ?_
  rw [getValue_step c h, length_setStep c h]

/-! ### The band plan of the Station Master -/

/-- `sm_bandplan_fixed_items`. -/
def smBandplanFixedItems : List CfgItem :=
  [⟨"formatVersion", 0, 7, 8, none, none⟩, ⟨"sequencerOutputs", 1, 23, 24, none, none⟩,
    ⟨"bandDependent", 4, 23, 24, none, none⟩, ⟨"civFunc", 7, 7, 8, none, none⟩, ⟨"civBaudRate", 8, 7, 8, none, none⟩,
    ⟨"civAddress", 9, 7, 8, none, none⟩, ⟨"extSerFunc", 10, 7, 8, none, none⟩,
    ⟨"extSerBaudRate", 11, 7, 8, none, none⟩, ⟨"extSerPar", 12, 7, 8, none, none⟩,
    ⟨"antSwDelay", 13, 15, 16, some convMsTo2700, some conv2700ToMs⟩,
    ⟨"bbmDelay", 15, 7, 8, some convMsTo2700, some conv2700ToMs⟩, ⟨"inhibitLead", 16, 15, 16, none, none⟩,
    ⟨"useKeyIn", 18, 0, 1, none, none⟩, ⟨"invertKeyIn", 18, 1, 1, none, none⟩,
    ⟨"sequencer.tail.keyOut", 21, 15, 16, none, none⟩, ⟨"sequencer.lead.B6", 23, 15, 16, none, none⟩,
    ⟨"sequencer.tail.B6", 25, 15, 16, none, none⟩, ⟨"sequencer.lead.A10", 27, 15, 16, none, none⟩,
    ⟨"sequencer.tail.A10", 29, 15, 16, none, none⟩, ⟨"sequencer.lead.B5", 31, 15, 16, none, none⟩,
    ⟨"sequencer.tail.B5", 33, 15, 16, none, none⟩, ⟨"sequencer.lead.A9", 35, 15, 16, none, none⟩,
    ⟨"sequencer.tail.A9", 37, 15, 16, none, none⟩, ⟨"sequencer.lead.A8", 51, 15, 16, none, none⟩,
    ⟨"sequencer.tail.A8", 53, 15, 16, none, none⟩, ⟨"sequencer.lead.B4", 55, 15, 16, none, none⟩,
    ⟨"sequencer.tail.B4", 57, 15, 16, none, none⟩, ⟨"sequencer.lead.A7", 59, 15, 16, none, none⟩,
    ⟨"sequencer.tail.A7", 61, 15, 16, none, none⟩, ⟨"sequencer.lead.B2", 63, 15, 16, none, none⟩,
    ⟨"sequencer.tail.B2", 65, 15, 16, none, none⟩, ⟨"sequencer.lead.A6", 67, 15, 16, none, none⟩,
    ⟨"sequencer.tail.A6", 69, 15, 16, none, none⟩, ⟨"sequencer.lead.B1", 71, 15, 16, none, none⟩,
    ⟨"sequencer.tail.B1", 73, 15, 16, none, none⟩, ⟨"sequencer.lead.A5", 75, 15, 16, none, none⟩,
    ⟨"sequencer.tail.A5", 77, 15, 16, none, none⟩, ⟨"sequencer.lead.B10", 79, 15, 16, none, none⟩,
    ⟨"sequencer.tail.B10", 81, 15, 16, none, none⟩, ⟨"sequencer.lead.A4", 83, 15, 16, none, none⟩,
    ⟨"sequencer.tail.A4", 85, 15, 16, none, none⟩, ⟨"sequencer.lead.B9", 87, 15, 16, none, none⟩,
    ⟨"sequencer.tail.B9", 89, 15, 16, none, none⟩, ⟨"sequencer.lead.A3", 91, 15, 16, none, none⟩,
    ⟨"sequencer.tail.A3", 93, 15, 16, none, none⟩, ⟨"sequencer.lead.B8", 95, 15, 16, none, none⟩,
    ⟨"sequencer.tail.B8", 97, 15, 16, none, none⟩, ⟨"sequencer.lead.A2", 99, 15, 16, none, none⟩,
    ⟨"sequencer.tail.A2", 101, 15, 16, none, none⟩, ⟨"sequencer.lead.B7", 103, 15, 16, none, none⟩,
    ⟨"sequencer.tail.B7", 105, 15, 16, none, none⟩, ⟨"sequencer.lead.A1", 107, 15, 16, none, none⟩,
    ⟨"sequencer.tail.A1", 109, 15, 16, none, none⟩, ⟨"sequencer.lead.B3", 111, 15, 16, none, none⟩,
    ⟨"sequencer.tail.B3", 113, 15, 16, none, none⟩]

theorem itemTable_sm : ItemTable smBandplanFixedItems where
  ok := by decide
  apart := by decide +kernel
  conv := by simp [smBandplanFixedItems]

/-- `sm_antsw_set_opt`: it creates a missing band plan; `val` is a `uint32_t` that is passed as an `int`. -/
def smAntswSetOpt (bp : Option Bandplan) (key : String) (val : Nat) : Option (Bandplan × Int) :=
  let bp := bp.getD .create
  (citemSetValue smBandplanFixedItems bp.fixedData key (castInt val)).map fun r =>
  ({ bp with fixedData := r.1 }, r.2)

/-- The band plan gets the fixed data of the call. -/
theorem smAntswSetOpt_eq {bp : Option Bandplan} {val : Nat} {res : Bandplan × Int} (h : smAntswSetOpt bp key val = some res) :
    res.1 = smSetOpt bp fun s => setStep smBandplanFixedItems s ⟨key, castInt val⟩ := by
  unfold smAntswSetOpt at h
  obtain ⟨r, hr, rfl⟩ := Option.map_eq_some_iff.1 h
  unfold smSetOpt setStep
  dsimp only
  rw [hr]
  rfl

/-- An option is set. -/
def optStep (bp : Option Bandplan) (o : String × Nat) : Option Bandplan := ((smAntswSetOpt bp o.1 o.2).map Prod.fst).or bp

/-- The call of `citem_set_value` for an option. -/
def optCall (o : String × Nat) : Call := ⟨o.1, castInt o.2⟩

theorem fixedData_optStep (bp : Option Bandplan) (o : String × Nat) :
    ((optStep bp o).getD .create).fixedData =
      setStep smBandplanFixedItems (bp.getD .create).fixedData (optCall o) := by
  unfold optStep
  cases h : smAntswSetOpt bp o.1 o.2 with
  | none =>
    have hout : citemSetValue smBandplanFixedItems (bp.getD .create).fixedData o.1 (castInt o.2) = none := by
      simpa [smAntswSetOpt] using h
    unfold setStep optCall
    rw [hout]
    rfl
  | some res =>
    show res.1.fixedData = _
    rw [smAntswSetOpt_eq h]
    rfl

theorem setGetAll_iff (ht : ItemTable is) (s : List UInt8) (cs : List Call) :
    SetGetAll is s cs ↔ ∀ c ∈ cs, Regular is s.length c.key c.value := by
  induction cs generalizing s with
  | nil => exact iff_of_true ⟨trivial, rfl⟩ fun c hc => absurd hc List.not_mem_nil
  | cons c cs ih =>
    rw [setGetAll_cons, List.forall_mem_cons, ih, ← setGet_iff ht]
    refine and_congr_right fun h => ?_
    rw [length_setStep c h]

theorem fixedData_opts (bp : Option Bandplan) (opts : List (String × Nat)) :
    ((Run.run optStep bp opts).getD .create).fixedData =
      Run.run (setStep smBandplanFixedItems) (bp.getD .create).fixedData (opts.map optCall) := by
  induction opts generalizing bp with
  | nil => rfl
  | cons o opts ih => rw [List.map_cons, Run.run_cons, Run.run_cons, ih, fixedData_optStep]

/-- Set and get are as they should be exactly for sequences of regular calls; options that are set in a band plan are
such calls. -/
theorem settings_set_get_iff (ht : ItemTable is) (s : List UInt8) (cs : List Call) :
    (SetGetAll is s cs ↔ ∀ c ∈ cs, Regular is s.length c.key c.value) ∧
      ∀ (bp : Option Bandplan) (opts : List (String × Nat)), ((Run.run optStep bp opts).getD .create).fixedData =
        Run.run (setStep smBandplanFixedItems) (bp.getD .create).fixedData (opts.map optCall) :=
  ⟨setGetAll_iff ht s cs, fixedData_opts⟩

theorem set_get_options : SetGetAll smBandplanFixedItems (List.replicate 115 0)
    [⟨"sequencer.tail.B3", 300⟩, ⟨"antSwDelay", 10⟩, ⟨"bbmDelay", 12⟩, ⟨"invertKeyIn", 1⟩, ⟨"useKeyIn", 2⟩, ⟨"keyIn", 1⟩] :=
  (settings_set_get_iff itemTable_sm _ _).1.2 (by decide +kernel)

/-- The option behind one that is set to a negative value changes with it, and a delay that overflows reads back 0. -/
theorem settings_set_get_negative :
    ((smAntswSetOpt none "useKeyIn" 0xffffffff).map fun r =>
        (r.2, citemGetValue smBandplanFixedItems r.1.fixedData "invertKeyIn")) = some (0, 1) ∧
      ¬ SetGetAll smBandplanFixedItems (List.replicate 115 0) [optCall ("useKeyIn", 0xffffffff)] ∧
    ((smAntswSetOpt none "antSwDelay" 1590729).map fun r =>
        (r.2, citemGetValue smBandplanFixedItems r.1.fixedData "antSwDelay")) = some (0, 0) ∧
      ¬ SetGetAll smBandplanFixedItems (List.replicate 115 0) [optCall ("antSwDelay", 1590729)] := by
  refine ⟨by decide +kernel, fun h => ?_, by decide +kernel, fun h => ?_⟩
  · exact absurd ((setGet_iff itemTable_sm).1 h.1.1) (by decide +kernel)
  · exact absurd ((setGet_iff itemTable_sm).1 h.1.1) (by decide +kernel)

end Citem

end Mhuxd
