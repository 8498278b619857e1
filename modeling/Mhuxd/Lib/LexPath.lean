import Mathlib

/-!
# Paths, resolved lexically

A path is walked from a directory, which is the list of names from the root. `norm` is the walk without a directory:
how many levels it climbs, and the names it goes down from there.
-/

namespace LexPath

variable {α : Type*} {dir : List α}

/-- What a component of a path says. -/
inductive Step (α : Type*)
  | stay
  | up
  | into (a : α)

/-- One component. The root is its own parent. -/
def enter (dir : List α) : Step α → List α
  | .stay => dir
  | .up => dir.dropLast
  | .into a => dir ++ [a]

def walk (dir : List α) (path : List (Step α)) : List α := path.foldl enter dir

/-- One component, from a place that is some levels up and some names down. -/
def climb (p : Nat × List α) : Step α → Nat × List α
  | .stay => p
  | .up => if p.2.isEmpty then (p.1 + 1, []) else (p.1, p.2.dropLast)
  | .into a => (p.1, p.2 ++ [a])

def norm (path : List (Step α)) : Nat × List α := path.foldl climb (0, [])

/-- The directory at a place. -/
def place (dir : List α) (p : Nat × List α) : List α := dir.take (dir.length - p.1) ++ p.2

theorem enter_place (p : Nat × List α) (s : Step α) : enter (place dir p) s = place dir (climb p s) := by
  obtain ⟨ups, names⟩ := p
  cases s with
  | stay => rfl
  | into a => simp [enter, place, climb]
  | up =>
    rcases names.eq_nil_or_concat with rfl | ⟨names, a, rfl⟩
    · have htake : (dir.take (dir.length - ups)).dropLast = dir.take (dir.length - (ups + 1)) := by
        rw [List.dropLast_eq_take, List.take_take, List.length_take]
        congr 1
        omega
      simpa [enter, place, climb] using htake
    · simp [enter, place, climb, List.dropLast_append_of_ne_nil]

/-- Where a walk ends: its last names below a directory that is so many levels up. -/
theorem walk_eq (dir : List α) (path : List (Step α)) : walk dir path = place dir (norm path) := by
  have hfold (p : Nat × List α) : path.foldl enter (place dir p) = place dir (path.foldl climb p) := by
    induction path generalizing p with
    | nil => rfl
    | cons s path ih => rw [List.foldl_cons, List.foldl_cons, enter_place, ih]
  have hstart : place dir (0, []) = dir := by simp [place]
  rw [walk, norm, ← hfold, hstart]

/-- A walk ends below its directory exactly if it comes down again the way it went up. -/
theorem prefix_walk_iff (dir : List α) (path : List (Step α)) :
    dir <+: walk dir path ↔ dir.drop (dir.length - (norm path).1) <+: (norm path).2 := by
  have hcut : dir.take (dir.length - (norm path).1) ++ dir.drop (dir.length - (norm path).1) <+:
      dir.take (dir.length - (norm path).1) ++ (norm path).2 ↔ _ := List.prefix_append_right_inj _
  rwa [List.take_append_drop, ← place, ← walk_eq] at hcut

end LexPath
