import Mathlib

/-!
# Text as `snprintf` writes it

The conversions `%u`, `%0*u` and `%02x`, and a buffer that several calls fill one after the other. A buffer that is large
enough has what they wrote (`append_of`, `foldl_append_of`).
-/

namespace Printf

/-- A character of a C string. -/
def byte (c : Char) : UInt8 := UInt8.ofNat c.toNat

/-- `%u`. -/
def dec (n : Nat) : List UInt8 := (Nat.toDigits 10 n).map byte

/-- `%0*u`. -/
def decPad (width n : Nat) : List UInt8 := List.replicate (width - (dec n).length) 48 ++ dec n

def hexDigit (n : Nat) : UInt8 := byte n.digitChar

/-- `%02x` of a byte. -/
def hex2 (b : UInt8) : List UInt8 := [hexDigit (b.toNat / 16), hexDigit (b.toNat % 16)]

/-- What is left of a text in a buffer of `sz` bytes. -/
def snprintf (sz : Nat) (s : List UInt8) : List UInt8 := s.take (sz - 1)

/-! ### Digits -/

variable {n k width : Nat} {b c : UInt8} {s s' : List UInt8}

def IsDigit (c : UInt8) : Prop := 48 ≤ c ∧ c ≤ 57

theorem isDigit_of_mem_dec (h : c ∈ dec n) : IsDigit c := by
  obtain ⟨d, hd, rfl⟩ := List.mem_map.1 h
  have hdigit := Nat.isDigit_of_mem_toDigits (by decide) (by decide) hd
  rw [Char.isDigit, Bool.and_eq_true, decide_eq_true_eq, decide_eq_true_eq] at hdigit
  obtain ⟨hlo, hhi⟩ := hdigit
  have hlo' : 48 ≤ d.toNat := hlo
  have hhi' : d.toNat ≤ 57 := hhi
  have hval : (byte d).toNat = d.toNat := UInt8.toNat_ofNat_of_lt' (by show d.toNat < 256; omega)
  exact ⟨UInt8.le_iff_toNat_le.2 (hval ▸ hlo'), UInt8.le_iff_toNat_le.2 (hval ▸ hhi')⟩

theorem dec_ne_nil : dec n ≠ [] := fun h => Nat.toDigits_ne_nil (List.map_eq_nil_iff.1 h)

theorem length_dec_le (hk : 0 < k) (h : n < 10 ^ k) : (dec n).length ≤ k := by
  rw [dec, List.length_map]
  exact (Nat.length_toDigits_le_iff (by decide) hk).2 h

theorem isDigit_of_mem_decPad (h : c ∈ decPad width n) : IsDigit c := by
  rcases List.mem_append.1 h with h | h
  · rw [List.eq_of_mem_replicate h]
    exact ⟨by decide, by decide⟩
  · exact isDigit_of_mem_dec h

theorem decPad_ne_nil : decPad width n ≠ [] := List.append_ne_nil_of_right_ne_nil _ dec_ne_nil

theorem length_decPad (hw : 0 < width) (h : n < 10 ^ width) : (decPad width n).length = width := by
  have hle := length_dec_le hw h
  rw [decPad, List.length_append, List.length_replicate]
  omega

/-! ### A buffer -/

/-- A buffer's text, and the length it would have without an end of the buffer. -/
structure Buf where
  text : List UInt8
  len : Nat

namespace Buf

/-- One more `snprintf` at the end of a buffer of `sz` bytes. -/
def append (sz : Nat) (b : Buf) (s : List UInt8) : Buf :=
  if b.len < sz then ⟨b.text ++ snprintf (sz - b.len) s, b.len + s.length⟩ else b

/-- A buffer with a whole text. -/
def of (s : List UInt8) : Buf := ⟨s, s.length⟩

variable {sz : Nat}

theorem append_of (h : s.length + s'.length < sz) : (of s).append sz s' = of (s ++ s') := by
  have hlen : s.length < sz := by omega
  have htake : snprintf (sz - s.length) s' = s' := List.take_of_length_le (by omega)
  simp only [append, of, if_pos hlen, htake, List.length_append]

theorem foldl_append_of {α : Type*} {f : α → List UInt8} {xs : List α} (h : s.length + (xs.flatMap f).length < sz) :
    xs.foldl (fun b x => b.append sz (f x)) (of s) = of (s ++ xs.flatMap f) := by
  induction xs generalizing s with
  | nil => simp
  | cons x xs ih =>
    rw [List.flatMap_cons, List.length_append] at h
    rw [List.foldl_cons, append_of (by omega), ih (by rw [List.length_append]; omega), List.flatMap_cons,
      List.append_assoc]

end Buf

end Printf
