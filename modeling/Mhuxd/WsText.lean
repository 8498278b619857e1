import Mhuxd.WsParse
import Mhuxd.Lib.Utf8

/-!
# Text messages are UTF-8 (`ws_validate_utf8`)

`ws_validate_utf8` puts the bits of a character together and compares the number. `lead2_iff`, `toNat_utf8Cp2` and the
lemmas beside them are its tests as numbers; with them a character passes exactly if the grammar of RFC 3629 has it.
-/

namespace Mhuxd

open Utf8

variable {c c1 c2 c3 : UInt8}

/-! ### Bits of a byte -/

set_option maxRecDepth 4000 in
theorem lead2_iff : c &&& 0xe0 = 0xc0 ↔ 0xc0 ≤ c.toNat ∧ c.toNat ≤ 0xdf := by
  revert c
  decide

set_option maxRecDepth 4000 in
theorem lead3_iff : c &&& 0xf0 = 0xe0 ↔ 0xe0 ≤ c.toNat ∧ c.toNat ≤ 0xef := by
  revert c
  decide

set_option maxRecDepth 4000 in
theorem lead4_iff : c &&& 0xf8 = 0xf0 ↔ 0xf0 ≤ c.toNat ∧ c.toNat ≤ 0xf7 := by
  revert c
  decide

set_option maxRecDepth 4000 in
theorem utf8Cont_iff : utf8Cont c = true ↔ Tail c := by
  revert c
  unfold Tail
  decide

/-! ### Code points -/

theorem shift_or {a b k : Nat} (hb : b < 2 ^ k) : a * 2 ^ k ||| b = a * 2 ^ k + b := by
  rw [mul_comm, Nat.two_pow_add_eq_or_of_lt hb]

theorem toNat_low5 : (c &&& 0x1f).toUInt32.toNat = c.toNat % 32 := by
  simp [Nat.and_two_pow_sub_one_eq_mod _ 5]

theorem toNat_low4 : (c &&& 0x0f).toUInt32.toNat = c.toNat % 16 := by
  simp [Nat.and_two_pow_sub_one_eq_mod _ 4]

theorem toNat_low3 : (c &&& 0x07).toUInt32.toNat = c.toNat % 8 := by
  simp [Nat.and_two_pow_sub_one_eq_mod _ 3]

theorem toNat_low6 : (c &&& 0x3f).toUInt32.toNat = c.toNat % 64 := by
  simp [Nat.and_two_pow_sub_one_eq_mod _ 6]

theorem toNat_shift {a k : UInt32} {n : Nat} (hk : k.toNat % 32 = n) (ha : a.toNat * 2 ^ n < 2 ^ 32) :
    (a <<< k).toNat = a.toNat * 2 ^ n := by
  rw [UInt32.toNat_shiftLeft, hk, Nat.shiftLeft_eq, Nat.mod_eq_of_lt ha]

theorem toNat_utf8Cp2 : (utf8Cp2 c c1).toNat = c.toNat % 32 * 2 ^ 6 + c1.toNat % 64 := by
  rw [utf8Cp2, UInt32.toNat_or, toNat_shift (n := 6) rfl, toNat_low5, toNat_low6, shift_or (by omega)]
  rw [toNat_low5]
  omega

theorem toNat_utf8Cp3 :
    (utf8Cp3 c c1 c2).toNat = (c.toNat % 16 * 2 ^ 6 + c1.toNat % 64) * 2 ^ 6 + c2.toNat % 64 := by
  have hsum : c.toNat % 16 * 2 ^ 12 + c1.toNat % 64 * 2 ^ 6 = (c.toNat % 16 * 2 ^ 6 + c1.toNat % 64) * 2 ^ 6 := by ring
  rw [utf8Cp3, UInt32.toNat_or, UInt32.toNat_or, toNat_shift (n := 12) rfl, toNat_shift (n := 6) rfl, toNat_low4,
    toNat_low6, toNat_low6, shift_or (k := 12) (by omega), hsum, shift_or (by omega)]
  · rw [toNat_low6]
    omega
  · rw [toNat_low4]
    omega

theorem toNat_utf8Cp4 : (utf8Cp4 c c1 c2 c3).toNat =
    ((c.toNat % 8 * 2 ^ 6 + c1.toNat % 64) * 2 ^ 6 + c2.toNat % 64) * 2 ^ 6 + c3.toNat % 64 := by
  have hsum : c.toNat % 8 * 2 ^ 18 + c1.toNat % 64 * 2 ^ 12 = (c.toNat % 8 * 2 ^ 6 + c1.toNat % 64) * 2 ^ 12 := by ring
  have hsum' : (c.toNat % 8 * 2 ^ 6 + c1.toNat % 64) * 2 ^ 12 + c2.toNat % 64 * 2 ^ 6 =
      ((c.toNat % 8 * 2 ^ 6 + c1.toNat % 64) * 2 ^ 6 + c2.toNat % 64) * 2 ^ 6 := by ring
  rw [utf8Cp4, UInt32.toNat_or, UInt32.toNat_or, UInt32.toNat_or, toNat_shift (n := 18) rfl, toNat_shift (n := 12) rfl,
    toNat_shift (n := 6) rfl, toNat_low3, toNat_low6, toNat_low6, toNat_low6, shift_or (k := 18) (by omega), hsum,
    shift_or (k := 12) (by omega), hsum', shift_or (by omega)]
  · rw [toNat_low6]
    omega
  · rw [toNat_low6]
    omega
  · rw [toNat_low3]
    omega

/-! ### Characters -/

theorem passes_two_iff (h : c &&& 0xe0 = 0xc0) : utf8Cont c1 = true ∧ ¬ utf8Cp2 c c1 < 0x80 ↔ Character [c, c1] := by
  rw [lead2_iff] at h
  rw [utf8Cont_iff, UInt32.lt_iff_toNat_lt, toNat_utf8Cp2, character_two_iff, tail_iff]
  have hlim : (0x80 : UInt32).toNat = 0x80 := rfl
  omega

theorem passes_three_iff (h : c &&& 0xf0 = 0xe0) : utf8Cont c1 = true ∧ utf8Cont c2 = true ∧
    ¬ utf8Cp3 c c1 c2 < 0x800 ∧ ¬ (0xd800 ≤ utf8Cp3 c c1 c2 ∧ utf8Cp3 c c1 c2 ≤ 0xdfff) ↔ Character [c, c1, c2] := by
  rw [lead3_iff] at h
  rw [utf8Cont_iff, utf8Cont_iff, UInt32.lt_iff_toNat_lt, UInt32.le_iff_toNat_le, UInt32.le_iff_toNat_le, toNat_utf8Cp3,
    character_three_iff, tail_iff, tail_iff]
  have hlim : (0x800 : UInt32).toNat = 0x800 ∧ (0xd800 : UInt32).toNat = 0xd800 ∧ (0xdfff : UInt32).toNat = 0xdfff :=
    ⟨rfl, rfl, rfl⟩
  omega

theorem passes_four_iff (h : c &&& 0xf8 = 0xf0) : utf8Cont c1 = true ∧ utf8Cont c2 = true ∧ utf8Cont c3 = true ∧
    ¬ (utf8Cp4 c c1 c2 c3 < 0x10000 ∨ 0x10ffff < utf8Cp4 c c1 c2 c3) ↔ Character [c, c1, c2, c3] := by
  rw [lead4_iff] at h
  rw [utf8Cont_iff, utf8Cont_iff, utf8Cont_iff, UInt32.lt_iff_toNat_lt, UInt32.lt_iff_toNat_lt, toNat_utf8Cp4,
    character_four_iff, tail_iff, tail_iff, tail_iff]
  have hlim : (0x10000 : UInt32).toNat = 0x10000 ∧ (0x10ffff : UInt32).toNat = 0x10ffff := ⟨rfl, rfl⟩
  omega

/-- What is accepted is made of characters. -/
theorem octets_of_accepted {bs : List UInt8} (h : wsValidateUtf8 bs = true) : Octets bs := by
  fun_induction wsValidateUtf8 bs with
  | case1 => exact .nil
  | case2 c cs hc ih => exact .append (.one hc) (ih h)
  | case3 c hc hlead c1 cs ih =>
    simp only [Bool.and_eq_true, Bool.not_eq_true', decide_eq_false_iff_not] at h
    exact .append ((passes_two_iff hlead).1 h.1) (ih h.2)
  | case5 c hc _ hlead c1 c2 cs cp ih =>
    simp only [Bool.and_eq_true, Bool.not_eq_true', decide_eq_false_iff_not, and_assoc] at h
    obtain ⟨h1, h2, hcp, hcp', hrest⟩ := h
    exact .append ((passes_three_iff hlead).1 ⟨h1, h2, hcp, hcp'⟩) (ih hrest)
  | case7 c hc _ _ hlead c1 c2 c3 cs cp ih =>
    simp only [Bool.and_eq_true, Bool.not_eq_true', decide_eq_false_iff_not, and_assoc] at h
    obtain ⟨h1, h2, h3, hcp, hrest⟩ := h
    exact .append ((passes_four_iff hlead).1 ⟨h1, h2, h3, hcp⟩) (ih hrest)
  | _ => exact absurd h Bool.false_ne_true

/-- A character is passed over. -/
theorem accepted_append {u v : List UInt8} (hu : Character u) (hv : wsValidateUtf8 v = true) :
    wsValidateUtf8 (u ++ v) = true := by
  have hhigh : ∀ {a : UInt8}, 0xc0 ≤ a.toNat → ¬ a ≤ 0x7f := fun ha hle => absurd (Nat.le_trans ha hle) (by decide)
  rcases u with _ | ⟨a, _ | ⟨b, _ | ⟨c, _ | ⟨d, _ | ⟨e, u⟩⟩⟩⟩⟩
  · cases hu
  · have ha : a ≤ 0x7f := character_one_iff.1 hu
    rw [List.singleton_append, wsValidateUtf8.eq_def]
    simp only [if_pos ha, hv]
  · have ha := (character_two_iff.1 hu).1
    have hlead : a &&& 0xe0 = 0xc0 := lead2_iff.2 (by omega)
    obtain ⟨h1, hcp⟩ := (passes_two_iff hlead).2 hu
    simp [wsValidateUtf8, hhigh (a := a) (by omega), hlead, h1, UInt32.not_lt.1 hcp, hv]
  · have ha := (character_three_iff.1 hu).1
    have hlead : a &&& 0xf0 = 0xe0 := lead3_iff.2 (by omega)
    have hother : ¬ a &&& 0xe0 = 0xc0 := by
      rw [lead2_iff]
      omega
    obtain ⟨h1, h2, hcp, hcp'⟩ := (passes_three_iff hlead).2 hu
    simp only [List.cons_append, List.nil_append, wsValidateUtf8, if_neg (hhigh (a := a) (by omega)), if_neg hother,
      if_pos hlead, h1, h2, decide_eq_false hcp, decide_eq_false hcp', hv, Bool.not_false, Bool.and_self]
  · have ha := (character_four_iff.1 hu).1
    have hlead : a &&& 0xf8 = 0xf0 := lead4_iff.2 (by omega)
    have hother : ¬ a &&& 0xe0 = 0xc0 ∧ ¬ a &&& 0xf0 = 0xe0 := by
      rw [lead2_iff, lead3_iff]
      omega
    obtain ⟨h1, h2, h3, hcp⟩ := (passes_four_iff hlead).2 hu
    simp [wsValidateUtf8, hhigh (a := a) (by omega), hother, hlead, h1, h2, h3, hcp, hv]
  · cases hu

/-- The validator accepts exactly the well-formed UTF-8 octet sequences of RFC 3629. -/
theorem ws_validate_utf8_iff (bs : List UInt8) : wsValidateUtf8 bs = true ↔ Octets bs := by
  refine ⟨octets_of_accepted, fun h => ?_⟩
  induction h with
  | nil => rfl
  | append hu _ ih => exact accepted_append hu ih

end Mhuxd
