import Mathlib

/-!
# UTF-8 (RFC 3629, section 4)

`Octets` is the grammar of the RFC. The leading octet and the one after it are given by ranges that leave out the
overlong forms, the surrogates and what is above U+10FFFF; `character_two_iff` and the lemmas beside it are these ranges
for the characters of one length.
-/

namespace Utf8

/-- `UTF8-tail`. -/
def Tail (b : UInt8) : Prop := 0x80 ≤ b ∧ b ≤ 0xbf

/-- `UTF8-char`, a constructor for each alternative. -/
inductive Character : List UInt8 → Prop
  | one {a : UInt8} (ha : a ≤ 0x7f) : Character [a]
  | two {a b : UInt8} (ha : 0xc2 ≤ a ∧ a ≤ 0xdf) (hb : Tail b) : Character [a, b]
  | e0 {b c : UInt8} (hb : 0xa0 ≤ b ∧ b ≤ 0xbf) (hc : Tail c) : Character [0xe0, b, c]
  | e1 {a b c : UInt8} (ha : 0xe1 ≤ a ∧ a ≤ 0xec) (hb : Tail b) (hc : Tail c) : Character [a, b, c]
  | ed {b c : UInt8} (hb : 0x80 ≤ b ∧ b ≤ 0x9f) (hc : Tail c) : Character [0xed, b, c]
  | ee {a b c : UInt8} (ha : 0xee ≤ a ∧ a ≤ 0xef) (hb : Tail b) (hc : Tail c) : Character [a, b, c]
  | f0 {b c d : UInt8} (hb : 0x90 ≤ b ∧ b ≤ 0xbf) (hc : Tail c) (hd : Tail d) : Character [0xf0, b, c, d]
  | f1 {a b c d : UInt8} (ha : 0xf1 ≤ a ∧ a ≤ 0xf3) (hb : Tail b) (hc : Tail c) (hd : Tail d) :
      Character [a, b, c, d]
  | f4 {b c d : UInt8} (hb : 0x80 ≤ b ∧ b ≤ 0x8f) (hc : Tail c) (hd : Tail d) : Character [0xf4, b, c, d]

/-- `UTF8-octets`. -/
inductive Octets : List UInt8 → Prop
  | nil : Octets []
  | append {u v : List UInt8} (hu : Character u) (hv : Octets v) : Octets (u ++ v)

variable {a b c d : UInt8}

theorem tail_iff : Tail b ↔ 0x80 ≤ b.toNat ∧ b.toNat ≤ 0xbf := Iff.rfl

theorem character_one_iff : Character [a] ↔ a.toNat ≤ 0x7f := by
  refine ⟨fun h => ?_, fun h => .one h⟩
  cases h with
  | one ha => exact ha

theorem character_two_iff : Character [a, b] ↔ (0xc2 ≤ a.toNat ∧ a.toNat ≤ 0xdf) ∧ Tail b := by
  refine ⟨fun h => ?_, fun h => .two h.1 h.2⟩
  cases h with
  | two ha hb => exact ⟨ha, hb⟩

/-- A leading octet with a range of its own for the second one, or with the whole of `UTF8-tail`. -/
theorem character_three_iff : Character [a, b, c] ↔ (0xe0 ≤ a.toNat ∧ a.toNat ≤ 0xef) ∧ Tail b ∧ Tail c ∧
    (a.toNat = 0xe0 → 0xa0 ≤ b.toNat) ∧ (a.toNat = 0xed → b.toNat ≤ 0x9f) := by
  simp only [tail_iff]
  constructor
  · intro h
    cases h with
    | e0 hb hc | ed hb hc =>
      simp only [tail_iff, UInt8.le_iff_toNat_le, UInt8.reduceToNat] at hb hc ⊢
      omega
    | e1 ha hb hc | ee ha hb hc =>
      simp only [tail_iff, UInt8.le_iff_toNat_le, UInt8.reduceToNat] at ha hb hc ⊢
      omega
  · rintro ⟨ha, hb, hc, he0, hed⟩
    by_cases h : a.toNat = 0xe0
    · obtain rfl : a = 0xe0 := UInt8.toNat_inj.1 h
      exact .e0 ⟨he0 h, hb.2⟩ hc
    · by_cases h' : a.toNat = 0xed
      · obtain rfl : a = 0xed := UInt8.toNat_inj.1 h'
        exact .ed ⟨hb.1, hed h'⟩ hc
      · rcases Nat.lt_or_ge a.toNat 0xed with hlt | hge
        · exact .e1 ⟨Nat.lt_of_le_of_ne ha.1 (Ne.symm h), Nat.le_of_lt_succ hlt⟩ hb hc
        · exact .ee ⟨Nat.lt_of_le_of_ne hge (Ne.symm h'), ha.2⟩ hb hc

theorem character_four_iff : Character [a, b, c, d] ↔ (0xf0 ≤ a.toNat ∧ a.toNat ≤ 0xf4) ∧ Tail b ∧ Tail c ∧ Tail d ∧
    (a.toNat = 0xf0 → 0x90 ≤ b.toNat) ∧ (a.toNat = 0xf4 → b.toNat ≤ 0x8f) := by
  simp only [tail_iff]
  constructor
  · intro h
    cases h with
    | f0 hb hc hd | f4 hb hc hd =>
      simp only [tail_iff, UInt8.le_iff_toNat_le, UInt8.reduceToNat] at hb hc hd ⊢
      omega
    | f1 ha hb hc hd =>
      simp only [tail_iff, UInt8.le_iff_toNat_le, UInt8.reduceToNat] at ha hb hc hd ⊢
      omega
  · rintro ⟨ha, hb, hc, hd, hf0, hf4⟩
    by_cases h : a.toNat = 0xf0
    · obtain rfl : a = 0xf0 := UInt8.toNat_inj.1 h
      exact .f0 ⟨hf0 h, hb.2⟩ hc hd
    · by_cases h' : a.toNat = 0xf4
      · obtain rfl : a = 0xf4 := UInt8.toNat_inj.1 h'
        exact .f4 ⟨hb.1, hf4 h'⟩ hc hd
      · exact .f1 ⟨Nat.lt_of_le_of_ne ha.1 (Ne.symm h), Nat.le_of_lt_succ (Nat.lt_of_le_of_ne ha.2 h')⟩ hb hc hd

end Utf8
