import Mathlib

/-!
# Packed BCD

A byte holds two decimal digits, the higher one in its upper half. `ofBytes` is the number whose digits the bytes hold,
the first byte lowest.
-/

namespace Bcd

def hi (b : UInt8) : Nat := (b >>> (4 : UInt8)).toNat

def lo (b : UInt8) : Nat := (b &&& (0x0f : UInt8)).toNat

def Valid (b : UInt8) : Prop := hi b ≤ 9 ∧ lo b ≤ 9

instance (b : UInt8) : Decidable (Valid b) := inferInstanceAs (Decidable (_ ∧ _))

/-- The digits, lowest first. -/
def digits (bs : List UInt8) : List Nat := bs.flatMap fun b => [lo b, hi b]

def ofBytes (bs : List UInt8) : Nat := Nat.ofDigits 10 (digits bs)

variable {b : UInt8} {bs : List UInt8}

@[simp] theorem ofBytes_nil : ofBytes [] = 0 := rfl

@[simp] theorem ofBytes_cons : ofBytes (b :: bs) = hi b * 10 + lo b + 100 * ofBytes bs := by
  have hcons : digits (b :: bs) = lo b :: hi b :: digits bs := rfl
  simp only [ofBytes, hcons, Nat.ofDigits_cons]
  ring

theorem ofBytes_concat : ofBytes (bs ++ [b]) = ofBytes bs + 100 ^ bs.length * (hi b * 10 + lo b) := by
  induction bs with
  | nil => simp
  | cons c bs ih =>
    rw [List.cons_append, ofBytes_cons, ofBytes_cons, ih, List.length_cons]
    ring

/-- Valid bytes have decimal digits. -/
theorem digits_lt (h : ∀ b ∈ bs, Valid b) : ∀ d ∈ digits bs, d < 10 := by
  intro d hd
  obtain ⟨b, hb, hd⟩ := List.mem_flatMap.1 hd
  obtain ⟨hhi, hlo⟩ := h b hb
  rcases List.mem_pair.1 hd with rfl | rfl
  · exact Nat.lt_succ_of_le hlo
  · exact Nat.lt_succ_of_le hhi

theorem ofBytes_lt (h : ∀ b ∈ bs, Valid b) : ofBytes bs < 100 ^ bs.length := by
  have hlen : (digits bs).length = 2 * bs.length := by
    simp [digits, List.length_flatMap, mul_comm]
  have hpow : 10 ^ (2 * bs.length) = 100 ^ bs.length := pow_mul 10 2 bs.length
  rw [← hpow, ← hlen]
  exact Nat.ofDigits_lt_base_pow_length (by decide) (digits_lt h)

end Bcd
