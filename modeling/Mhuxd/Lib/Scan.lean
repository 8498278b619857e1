import Mathlib

/-!
# Scans of a list that changes meanwhile

A list is kept in the order of the keys of its elements. A scan visits one element after another; between two visits,
elements with greater keys are added at the end and others are removed, but not the one the scan is at. What it has
visited at its end are all elements that are there then, each of them once and in their order.
-/

namespace Scan

variable {α β : Type*} [LinearOrder β] (key : α → β)

/-- In the order of the keys, none of them twice. -/
abbrev Increasing (xs : List α) : Prop := xs.Pairwise (key · < key ·)

/-- The element after `x`. -/
def after (x : α) (xs : List α) : Option α := xs.find? (key x < key ·)

/-- A scan of `xs` that is at `x` and has visited `seen`, with `x`. -/
structure At (xs seen : List α) (x : α) : Prop where
  mem : x ∈ xs
  increasing : Increasing key seen
  le : ∀ y ∈ seen, key y ≤ key x
  all : ∀ y ∈ xs, key y ≤ key x → y ∈ seen

variable {key} {xs ys seen : List α} {x y : α}

theorem after_split (h : Increasing key (xs ++ x :: ys)) : after key x (xs ++ x :: ys) = ys.head? := by
  rw [Increasing, List.pairwise_append, List.pairwise_cons] at h
  obtain ⟨-, ⟨hys, -⟩, hxs⟩ := h
  have hnone : xs.find? (key x < key ·) = none := by
    refine List.find?_eq_none.mpr fun y hy => ?_
    simpa using (hxs y hy x List.mem_cons_self).le
  rw [after, List.find?_append, hnone, Option.none_or, List.find?_cons, decide_eq_false (lt_irrefl _)]
  cases ys with
  | nil => rfl
  | cons y ys =>
    have hy : key x < key y := hys y List.mem_cons_self
    rw [List.find?_cons, decide_eq_true hy]
    rfl

namespace At

/-- A scan begins at the first element. -/
theorem first (h : Increasing key (x :: xs)) : At key (x :: xs) [x] x where
  mem := List.mem_cons_self
  increasing := List.pairwise_singleton ..
  le := by simp
  all := by
    intro y hy hle
    rcases List.mem_cons.mp hy with rfl | hy
    · exact List.mem_singleton_self _
    · exact absurd hle (not_le.mpr ((List.pairwise_cons.mp h).1 y hy))

theorem add (h : At key xs seen x) (hy : ∀ z ∈ xs, key z < key y) : At key (xs ++ [y]) seen x where
  mem := List.mem_append_left _ h.mem
  increasing := h.increasing
  le := h.le
  all := by
    intro z hz hle
    rcases List.mem_append.mp hz with hz | hz
    · exact h.all z hz hle
    · rw [List.mem_singleton.mp hz] at hle
      exact absurd hle (not_le.mpr (hy x h.mem))

theorem remove (h : At key xs seen x) {p : α → Bool} (hx : p x = true) : At key (xs.filter p) seen x where
  mem := List.mem_filter.mpr ⟨h.mem, hx⟩
  increasing := h.increasing
  le := h.le
  all := fun y hy hle => h.all y (List.mem_of_mem_filter hy) hle

/-- The scan moves on. -/
theorem next (h : At key xs seen x) (hxs : Increasing key xs) (hy : after key x xs = some y) :
    At key xs (seen ++ [y]) y := by
  obtain ⟨before, later, hsplit⟩ := List.append_of_mem h.mem
  subst hsplit
  rw [after_split hxs] at hy
  cases later with
  | nil => exact nomatch hy
  | cons z later =>
    obtain rfl : z = y := Option.some.inj hy
    rw [Increasing, List.pairwise_append, List.pairwise_cons, List.pairwise_cons] at hxs
    obtain ⟨-, ⟨hlater, hrest, -⟩, hbefore⟩ := hxs
    have hxz : key x < key z := hlater z List.mem_cons_self
    refine ⟨by simp, ?_, ?_, ?_⟩
    · refine List.pairwise_append.mpr ⟨h.increasing, List.pairwise_singleton .., fun a ha b hb => ?_⟩
      rw [List.mem_singleton.mp hb]
      exact (h.le a ha).trans_lt hxz
    · intro a ha
      rcases List.mem_append.mp ha with ha | ha
      · exact ((h.le a ha).trans_lt hxz).le
      · rw [List.mem_singleton.mp ha]
    · intro a ha hle
      rcases List.mem_append.mp ha with ha' | ha'
      · exact List.mem_append_left _ (h.all a ha (hbefore a ha' x List.mem_cons_self).le)
      · rcases List.mem_cons.mp ha' with rfl | ha'
        · exact List.mem_append_left _ (h.all a ha le_rfl)
        · rcases List.mem_cons.mp ha' with rfl | ha'
          · exact List.mem_append_right _ (List.mem_singleton_self _)
          · exact absurd hle (not_le.mpr (hrest a ha'))

/-- At the end of the scan all that is there was visited. -/
theorem finish (h : At key xs seen x) (hnone : after key x xs = none) : ∀ y ∈ xs, y ∈ seen := by
  intro y hy
  have hle := List.find?_eq_none.mp hnone y hy
  exact h.all y hy (by simpa using hle)

end At

end Scan
