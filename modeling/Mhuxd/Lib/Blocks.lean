import Mathlib

/-!
# Functions of a stream that work block by block

`digest` folds `f` over the blocks of `n` symbols a text is made of and keeps the rest. `absorb` does so for a text
that comes in pieces, with a buffer for the block that is not complete yet; the pieces do not matter (`foldl_absorb`).
-/

namespace Blocks

variable {σ α : Type*} (n : Nat) (f : σ → List α → σ)

/-- The first `k` blocks. -/
def chain : Nat → σ → List α → σ
  | 0, s, _ => s
  | k + 1, s, xs => chain k (f s (xs.take n)) (xs.drop n)

/-- All whole blocks, and what is left. -/
def digest (s : σ) (xs : List α) : σ × List α :=
  (chain n f (xs.length / n) s xs, xs.drop (n * (xs.length / n)))

/-- The buffer is filled, and taken when it is full, as long as there is something to read. -/
def absorbLoop : Nat → σ × List α → List α → σ × List α
  | 0, p, _ => p
  | fuel + 1, p, xs =>
    if xs = [] then p
    else
      let block := p.2 ++ xs.take (n - p.2.length)
      let rest := xs.drop (n - p.2.length)
      if block.length = n then absorbLoop fuel (f p.1 block, []) rest else absorbLoop fuel (p.1, block) rest

def absorb (p : σ × List α) (xs : List α) : σ × List α := absorbLoop n f xs.length p xs

variable {n f} {s : σ} {xs ys : List α}

theorem digest_of_lt (h : xs.length < n) : digest n f s xs = (s, xs) := by
  simp [digest, Nat.div_eq_of_lt h, chain]

theorem digest_block {b : List α} (hn : 0 < n) (hb : b.length = n) : digest n f s (b ++ xs) = digest n f (f s b) xs := by
  have hcount : (b ++ xs).length / n = xs.length / n + 1 := by
    rw [List.length_append, hb, Nat.add_comm, Nat.add_div_right _ hn]
  have hrest : n * (xs.length / n + 1) = b.length + n * (xs.length / n) := by rw [hb, Nat.mul_succ, Nat.add_comm]
  rw [digest, hcount, chain, List.take_left' hb, List.drop_left' hb, hrest, List.drop_append]
  simp [digest]

theorem digest_one {b : List α} (hn : 0 < n) (hb : b.length = n) : digest n f s b = (f s b, []) := by
  have hblock : digest n f s (b ++ []) = digest n f (f s b) [] := digest_block hn hb
  rw [← List.append_nil b, hblock, List.append_nil]
  exact digest_of_lt hn

theorem length_digest (hn : 0 < n) : (digest n f s xs).2.length < n := by
  have := Nat.mod_lt xs.length hn
  rw [digest, List.length_drop, ← Nat.mod_eq_sub]
  exact this

/-- The whole blocks of a text, and then those of what is left with more of it. -/
theorem digest_append (hn : 0 < n) (s : σ) (xs ys : List α) :
    digest n f s (xs ++ ys) = digest n f (digest n f s xs).1 ((digest n f s xs).2 ++ ys) := by
  induction h : xs.length using Nat.strong_induction_on generalizing xs s with
  | _ len ih =>
    subst h
    rcases Nat.lt_or_ge xs.length n with hlt | hge
    · rw [digest_of_lt hlt]
    · have hb : (xs.take n).length = n := List.length_take_of_le hge
      rw [← List.take_append_drop n xs, List.append_assoc, digest_block hn hb, digest_block hn hb]
      exact ih (xs.drop n).length (by rw [List.length_drop]; omega) _ _ rfl

theorem absorbLoop_eq (hn : 0 < n) {fuel : Nat} {p : σ × List α} (hp : p.2.length < n) (hfuel : xs.length ≤ fuel) :
    absorbLoop n f fuel p xs = digest n f p.1 (p.2 ++ xs) := by
  induction fuel generalizing p xs with
  | zero =>
    have hnil : xs = [] := by simpa using hfuel
    rw [hnil, List.append_nil, digest_of_lt hp]
    rfl
  | succ fuel ih =>
    rw [absorbLoop]
    split_ifs with hnil
    · rw [hnil, List.append_nil, digest_of_lt hp]
    · have hpos : 0 < xs.length := List.length_pos_iff.mpr hnil
      have hrest : (xs.drop (n - p.2.length)).length ≤ fuel := by
        rw [List.length_drop]
        omega
      have hcut : p.2 ++ xs = p.2 ++ xs.take (n - p.2.length) ++ xs.drop (n - p.2.length) := by simp
      dsimp only
      split_ifs with hfull
      · rw [ih (p := (f p.1 _, [])) hn hrest, hcut, digest_block hn hfull, List.nil_append]
      · have hlen : (p.2 ++ xs.take (n - p.2.length)).length < n := by
          simp only [List.length_append, List.length_take] at hfull ⊢
          omega
        rw [ih hlen hrest, hcut]

theorem absorb_eq (hn : 0 < n) {p : σ × List α} (hp : p.2.length < n) (xs : List α) :
    absorb n f p xs = digest n f p.1 (p.2 ++ xs) :=
  absorbLoop_eq hn hp le_rfl

/-- Only the whole text counts, not its pieces. -/
theorem foldl_absorb (hn : 0 < n) (s : σ) (pieces : List (List α)) :
    pieces.foldl (absorb n f) (s, []) = digest n f s pieces.flatten := by
  have hrun : ∀ p : σ × List α, p.2.length < n → pieces.foldl (absorb n f) p = digest n f p.1 (p.2 ++ pieces.flatten) := by
    induction pieces with
    | nil =>
      intro p hp
      rw [List.flatten_nil, List.append_nil, digest_of_lt hp]
      rfl
    | cons x pieces ih =>
      intro p hp
      have hx := absorb_eq (f := f) hn hp x
      rw [List.foldl_cons, ih _ (hx ▸ length_digest hn), hx, ← digest_append hn, List.flatten_cons, List.append_assoc]
  exact hrun (s, []) hn

end Blocks
