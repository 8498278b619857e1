import Mathlib

/-!
# Words in a block of bytes

`get` reads `n` bytes of a block as a number, the least significant first, `put` writes those of an integer. A value
that fits is read back, the other bytes keep their values.
-/

namespace LittleEndian

/-- The `n` bytes from `i` on. -/
def get (s : List UInt8) (i : Nat) : Nat → Nat
  | 0 => 0
  | n + 1 => (s.getD i 0).toNat + 256 * get s (i + 1) n

/-- The low bytes of an integer are put there. -/
def put (s : List UInt8) (i : Nat) (z : Int) : Nat → List UInt8
  | 0 => s
  | n + 1 => put (s.set i (UInt8.ofInt z)) (i + 1) (z / 256) n

variable {s s' : List UInt8} {i k v : Nat} {z : Int}

@[simp] theorem length_put (s : List UInt8) (i : Nat) (z : Int) (n : Nat) : (put s i z n).length = s.length := by
  induction n generalizing s i z with
  | zero => rfl
  | succ n ih => rw [put, ih, List.length_set]

theorem getD_put_of_out {n : Nat} (h : k < i ∨ i + n ≤ k) : (put s i z n).getD k 0 = s.getD k 0 := by
  induction n generalizing s i z with
  | zero => rfl
  | succ n ih =>
    rw [put, ih (by omega), List.getD_eq_getElem?_getD, List.getElem?_set_ne (by omega), ← List.getD_eq_getElem?_getD]

/-- A word is its bytes. -/
theorem get_congr {n : Nat} (h : ∀ k, i ≤ k → k < i + n → s'.getD k 0 = s.getD k 0) : get s' i n = get s i n := by
  induction n generalizing i with
  | zero => rfl
  | succ n ih => rw [get, get, h i (by omega) (by omega), ih fun k h1 h2 => h k (by omega) (by omega)]

theorem get_put {n : Nat} (h : i + n ≤ s.length) (hv : v < 256 ^ n) : get (put s i (v : Int) n) i n = v := by
  induction n generalizing s i v with
  | zero =>
    rw [Nat.pow_zero] at hv
    show 0 = v
    omega
  | succ n ih =>
    have hdiv : (v : Int) / 256 = ((v / 256 : Nat) : Int) := by omega
    have hbyte : ((put (s.set i (UInt8.ofInt v)) (i + 1) ((v / 256 : Nat) : Int) n).getD i 0).toNat = v % 256 := by
      rw [getD_put_of_out (by omega), List.getD_eq_getElem?_getD, List.getElem?_set_self (by omega)]
      simp only [Option.getD_some, UInt8.ofInt, UInt8.toNat_ofNat']
      omega
    rw [put, hdiv, get, hbyte, ih (by rw [List.length_set]; omega) ?_]
    · omega
    · rw [Nat.pow_succ] at hv
      omega

end LittleEndian
