import Mathlib

/-!
# Bit fields of bytes

A field is a range of bits of one byte of a block. `read` takes its bits, `write` clears them and puts those
of an integer in their place, as C code does with a mask, a shift and an or: of an integer that does not fit
the bits above reach the rest of the byte. `get` and `put` are the same on the bytes of a block.
-/

/-- The bits `shift`, ..., `shift + width - 1` of the byte number `byte`. -/
structure BitField where
  byte : Nat
  shift : Nat
  width : Nat
deriving DecidableEq, Repr

namespace BitField

variable {f g : BitField} {c : UInt8} {v : Nat} {z : Int} {s : List UInt8}

/-- The largest value. -/
def mask (f : BitField) : Nat := 2 ^ f.width - 1

def read (f : BitField) (c : UInt8) : Nat := (c.toNat >>> f.shift) &&& f.mask

/-- The bits an integer brings along. -/
def bits (f : BitField) (z : Int) : BitVec 8 := BitVec.ofInt 8 z <<< f.shift

def write (f : BitField) (z : Int) (c : UInt8) : UInt8 :=
  UInt8.ofBitVec ((c.toBitVec &&& ~~~(BitVec.ofNat 8 f.mask <<< f.shift)) ||| f.bits z)

def get (f : BitField) (s : List UInt8) : Nat := f.read (s.getD f.byte 0)

def put (f : BitField) (z : Int) (s : List UInt8) : List UInt8 := s.modify f.byte (f.write z)

/-- The field lies in its byte. -/
def Fits (f : BitField) : Prop := f.shift + f.width ≤ 8

instance : Decidable f.Fits := inferInstanceAs (Decidable (_ ≤ _))

/-- No bit is in both fields. -/
def Disjoint (f g : BitField) : Prop :=
  f.byte ≠ g.byte ∨ f.shift + f.width ≤ g.shift ∨ g.shift + g.width ≤ f.shift

instance : DecidableRel Disjoint := fun _ _ => inferInstanceAs (Decidable (_ ∨ _))

theorem Disjoint.symm (h : f.Disjoint g) : g.Disjoint f := by
  rcases h with h | h | h
  · exact .inl h.symm
  · exact .inr (.inr h)
  · exact .inr (.inl h)

/-! ### A byte -/

theorem testBit_read (f : BitField) (c : UInt8) (k : Nat) :
    (f.read c).testBit k = (decide (k < f.width) && c.toBitVec.getLsbD (f.shift + k)) := by
  rw [read, mask, Nat.testBit_and, Nat.testBit_shiftRight, Nat.testBit_two_pow_sub_one, Bool.and_comm]
  rfl

theorem read_lt (f : BitField) (c : UInt8) : f.read c ≤ f.mask := Nat.and_le_right

/-- The bits of an integer start at the field. -/
theorem getLsbD_bits_of_lt {k : Nat} (h : k < f.shift) : (f.bits z).getLsbD k = false := by
  simp [bits, h]

/-- The bits of a value end with the field. -/
theorem getLsbD_bits_of_le {k : Nat} (hv : v ≤ f.mask) (h : f.shift + f.width ≤ k) :
    (f.bits (v : Int)).getLsbD k = false := by
  have hlt : v < 2 ^ (k - f.shift) := by
    have hmask : f.mask < 2 ^ f.width := Nat.sub_lt (Nat.two_pow_pos _) Nat.one_pos
    have hpow : 2 ^ f.width ≤ 2 ^ (k - f.shift) := Nat.pow_le_pow_right (by decide) (by omega)
    omega
  rw [bits, BitVec.getLsbD_shiftLeft, BitVec.ofInt_natCast, BitVec.getLsbD_ofNat, Nat.testBit_lt_two_pow hlt]
  simp

theorem getLsbD_bits {k : Nat} (hf : f.Fits) (hk : k < f.width) :
    (f.bits (v : Int)).getLsbD (f.shift + k) = v.testBit k := by
  have hlt : f.shift + k < 8 := by
    unfold Fits at hf
    omega
  have hsub : f.shift + k - f.shift = k := by omega
  have hk8 : k < 8 := by omega
  rw [bits, BitVec.getLsbD_shiftLeft, BitVec.ofInt_natCast, hsub, BitVec.getLsbD_ofNat]
  simp [hlt, hk8]

theorem getLsbD_write {k : Nat} (hf : f.Fits) (hk : k < 8) : (f.write z c).toBitVec.getLsbD k =
    ((c.toBitVec.getLsbD k && !decide (f.shift ≤ k ∧ k < f.shift + f.width)) || (f.bits z).getLsbD k) := by
  have hmask : (BitVec.ofNat 8 f.mask <<< f.shift).getLsbD k = decide (f.shift ≤ k ∧ k < f.shift + f.width) := by
    rw [BitVec.getLsbD_shiftLeft, BitVec.getLsbD_ofNat, mask, Nat.testBit_two_pow_sub_one]
    unfold Fits at hf
    by_cases h1 : f.shift ≤ k
    · by_cases h2 : k < f.shift + f.width
      · simp [hk, h1, h2]
        omega
      · have h3 : ¬ k - f.shift < f.width := by omega
        simp [h2, h3]
    · have h3 : k < f.shift := by omega
      simp [h1, h3]
  show ((c.toBitVec &&& ~~~(BitVec.ofNat 8 f.mask <<< f.shift)) ||| f.bits z).getLsbD k = _
  rw [BitVec.getLsbD_or, BitVec.getLsbD_and, BitVec.getLsbD_not, hmask]
  simp [hk]

theorem read_write_self (hf : f.Fits) (hv : v ≤ f.mask) : f.read (f.write (v : Int) c) = v := by
  refine Nat.eq_of_testBit_eq fun k => ?_
  rw [testBit_read]
  by_cases hk : k < f.width
  · have hlt : f.shift + k < 8 := by
      unfold Fits at hf
      omega
    have hin : f.shift ≤ f.shift + k ∧ f.shift + k < f.shift + f.width := by omega
    rw [getLsbD_write hf hlt, getLsbD_bits hf hk]
    simp [hk, hin]
  · have hlt : v < 2 ^ k := by
      have hmask : f.mask < 2 ^ f.width := Nat.sub_lt (Nat.two_pow_pos _) Nat.one_pos
      have hpow : 2 ^ f.width ≤ 2 ^ k := Nat.pow_le_pow_right (by decide) (by omega)
      omega
    rw [Nat.testBit_lt_two_pow hlt]
    simp [hk]

/-- A field keeps its value where the bits of the integer miss it. -/
theorem read_write_of_miss (hf : f.Fits) (hg : g.Fits) (hdis : f.shift + f.width ≤ g.shift ∨ g.shift + g.width ≤ f.shift)
    (hmiss : ∀ k < g.width, (f.bits z).getLsbD (g.shift + k) = false) : g.read (f.write z c) = g.read c := by
  refine Nat.eq_of_testBit_eq fun k => ?_
  rw [testBit_read, testBit_read]
  by_cases hk : k < g.width
  · have hlt : g.shift + k < 8 := by
      unfold Fits at hg
      omega
    have hout : ¬ (f.shift ≤ g.shift + k ∧ g.shift + k < f.shift + f.width) := by omega
    rw [getLsbD_write hf hlt, hmiss k hk]
    simp [hout]
  · simp [hk]

@[simp] theorem length_put : (f.put z s).length = s.length := List.length_modify ..

theorem getD_put_self (h : f.byte < s.length) : (f.put z s).getD f.byte 0 = f.write z (s.getD f.byte 0) := by
  simp [put, h, List.getD_eq_getElem?_getD]

theorem getD_put_of_ne {i : Nat} (h : f.byte ≠ i) : (f.put z s).getD i 0 = s.getD i 0 := by
  simp [put, h, List.getD_eq_getElem?_getD]

theorem get_le (f : BitField) (s : List UInt8) : f.get s ≤ f.mask := read_lt ..

theorem get_put_self (hf : f.Fits) (h : f.byte < s.length) (hv : v ≤ f.mask) : f.get (f.put (v : Int) s) = v := by
  rw [get, getD_put_self h, read_write_self hf hv]

/-- Another field keeps its value where it's in another byte or the bits of the integer miss it. -/
theorem get_put_of_miss (hf : f.Fits) (hg : g.Fits) (hdis : f.Disjoint g)
    (hmiss : f.byte = g.byte → ∀ k < g.width, (f.bits z).getLsbD (g.shift + k) = false) :
    g.get (f.put z s) = g.get s := by
  by_cases hb : f.byte = g.byte
  · have hdis := hdis.resolve_left (not_not_intro hb)
    by_cases hlen : f.byte < s.length
    · rw [get, get, ← hb, getD_put_self hlen, read_write_of_miss hf hg hdis (hmiss hb)]
    · rw [put, List.modify_eq_self (Nat.not_lt.1 hlen)]
  · rw [get, get, getD_put_of_ne hb]

theorem get_put_of_disjoint (hf : f.Fits) (hg : g.Fits) (hv : v ≤ f.mask) (hdis : f.Disjoint g) :
    g.get (f.put (v : Int) s) = g.get s := by
  refine get_put_of_miss hf hg hdis fun hb k hk => ?_
  rcases hdis with h | h | h
  · exact absurd hb h
  · exact getLsbD_bits_of_le hv (by omega)
  · exact getLsbD_bits_of_lt (by omega)

/-! ### Bits of a block -/

/-- A bit of a block; there are none behind its end. -/
def bit (s : List UInt8) (n k : Nat) : Bool := (s.getD n 0).toBitVec.getLsbD k

/-- The bit is in the field. -/
def Has (f : BitField) (n k : Nat) : Prop := n = f.byte ∧ f.shift ≤ k ∧ k < f.shift + f.width

instance (f : BitField) (n k : Nat) : Decidable (f.Has n k) := inferInstanceAs (Decidable (_ ∧ _))

/-- Two blocks have the same bits outside the field. -/
def SameBut (f : BitField) (s s' : List UInt8) : Prop :=
  s'.length = s.length ∧ ∀ n k, k < 8 → ¬ f.Has n k → bit s' n k = bit s n k

theorem testBit_get (f : BitField) (s : List UInt8) (k : Nat) :
    (f.get s).testBit k = (decide (k < f.width) && bit s f.byte (f.shift + k)) := testBit_read ..

theorem bit_put {n k : Nat} (hf : f.Fits) (h : f.byte < s.length) (hk : k < 8) :
    bit (f.put z s) n k = if n = f.byte then (bit s n k && !decide (f.Has n k)) || (f.bits z).getLsbD k else bit s n k := by
  unfold bit
  split_ifs with hn
  · subst hn
    rw [getD_put_self h, getLsbD_write hf hk]
    simp [Has]
  · rw [getD_put_of_ne (Ne.symm hn)]

theorem sameBut_put (hf : f.Fits) (h : f.byte < s.length) (hv : v ≤ f.mask) : f.SameBut s (f.put (v : Int) s) := by
  refine ⟨length_put, fun n k hk hout => ?_⟩
  rw [bit_put hf h hk]
  split_ifs with hn
  · have hbits : (f.bits (v : Int)).getLsbD k = false := by
      by_cases hlow : k < f.shift
      · exact getLsbD_bits_of_lt hlow
      · refine getLsbD_bits_of_le hv (not_lt.1 fun hlt => hout ⟨hn, ?_, hlt⟩)
        omega
    simp [hbits, hout]
  · rfl

/-- Outside the field the other fields are. -/
theorem SameBut.get_eq {s' : List UInt8} (h : f.SameBut s s') (hg : g.Fits) (hdis : f.Disjoint g) : g.get s' = g.get s := by
  refine Nat.eq_of_testBit_eq fun k => ?_
  rw [testBit_get, testBit_get]
  by_cases hk : k < g.width
  · unfold Fits at hg
    rw [h.2 g.byte (g.shift + k) (by omega)]
    rintro ⟨hb, h1, h2⟩
    rcases hdis with hne | hle | hle
    · exact hne hb.symm
    · omega
    · omega
  · simp [hk]

/-- The value of a field after bits of an integer were put into another one of its byte. -/
theorem get_put_eq_iff {d : Nat} (hf : f.Fits) (hg : g.Fits) (h : f.byte < s.length) (hb : f.byte = g.byte) (hd : d ≤ g.mask)
    (hs : g.get s = d) : g.get (f.put z s) = d ↔ ∀ k < g.width,
      ((d.testBit k && !decide (f.Has g.byte (g.shift + k))) || (f.bits z).getLsbD (g.shift + k)) = d.testBit k := by
  have hbit {k : Nat} (hk : k < g.width) : (g.get (f.put z s)).testBit k =
      ((d.testBit k && !decide (f.Has g.byte (g.shift + k))) || (f.bits z).getLsbD (g.shift + k)) := by
    unfold Fits at hg
    rw [← hs, testBit_get, testBit_get, bit_put hf h (by omega), if_pos hb.symm]
    simp [hk]
  constructor
  · intro heq k hk
    rw [← hbit hk, heq]
  · intro hall
    refine Nat.eq_of_testBit_eq fun k => ?_
    by_cases hk : k < g.width
    · rw [hbit hk, hall k hk]
    · have hpow : 2 ^ g.width ≤ 2 ^ k := Nat.pow_le_pow_right (by decide) (by omega)
      have hmask : g.mask < 2 ^ g.width := Nat.sub_lt (Nat.two_pow_pos _) Nat.one_pos
      have hle := get_le g (f.put z s)
      rw [Nat.testBit_lt_two_pow (by omega), Nat.testBit_lt_two_pow (by omega)]

end BitField
