import Mhuxd.Lib.Mealy

/-!
# Buffers that take what fits

A buffer of `n` symbols keeps the beginning of what is written to it; a write that does not fit leaves the mark `c`.
What the buffer holds in the end does not depend on how the text was cut into writes (`foldl_push`).
-/

namespace Clip

variable {α κ : Type*} {n : Nat} {c : κ}

/-- The buffer and its mark after a write. -/
def push (n : Nat) (c : κ) (p : List α × κ) (ys : List α) : List α × κ :=
  (p.1 ++ ys.take (n - p.1.length), if n - p.1.length < ys.length then c else p.2)

@[simp] theorem push_nil_right (p : List α × κ) : push n c p [] = p := by simp [push]

theorem push_nil_left (k : κ) (ys : List α) : push n c ([], k) ys = (ys.take n, if n < ys.length then c else k) := by
  simp [push]

theorem push_push (p : List α × κ) (xs ys : List α) : push n c (push n c p xs) ys = push n c p (xs ++ ys) := by
  have hlen : (p.1 ++ xs.take (n - p.1.length)).length = p.1.length + min (n - p.1.length) xs.length := by
    simp
  refine Prod.ext ?_ ?_
  · simp only [push, hlen, List.append_assoc, List.take_append, Nat.sub_add_eq]
    congr 3
    omega
  · simp only [push, hlen, List.length_append]
    split_ifs <;> first | rfl | omega

/-- Only the whole text counts, not its pieces. -/
theorem foldl_push (p : List α × κ) (pieces : List (List α)) :
    pieces.foldl (push n c) p = push n c p pieces.flatten := by
  induction pieces generalizing p with
  | nil => simp
  | cons x pieces ih => rw [List.foldl_cons, ih, push_push, List.flatten_cons]

/-- A machine with such a buffer in its state, `f p`, which the symbols `g ys` write to. -/
theorem next_push {σ ε β : Type*} {step : σ → ε → σ × Option β} {f : List α × κ → σ} {g : List α → ε}
    (h : ∀ p ys, (step (f p) (g ys)).1 = f (push n c p ys)) (p : List α × κ) (pieces : List (List α)) :
    Mealy.next step (f p) (pieces.map g) = f (push n c p pieces.flatten) := by
  rw [← foldl_push]
  induction pieces generalizing p with
  | nil => rfl
  | cons ys pieces ih => rw [List.map_cons, Mealy.next_cons, h, ih, List.foldl_cons]

end Clip
