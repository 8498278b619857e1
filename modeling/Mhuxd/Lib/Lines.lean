import Mhuxd.Lib.Mealy

/-!
# Lines of a stream

`ended` are the lines that a stream has ended. A collector keeps a line of up to `max` symbols, and drops one that is
longer up to its end: it gives the lines that are not empty and have room, however the stream came (`out_collect`).
-/

namespace Lines

variable {α : Type*} {eol : α → Bool} {max : Nat} {l l' xs ys : List α} {e : α}

/-- The lines that are ended, without their ends. -/
def ended (eol : α → Bool) (xs : List α) : List (List α) := (xs.splitOnP eol).dropLast

theorem ended_open (h : ∀ x ∈ l, eol x = false) : ended eol l = [] := by
  rw [ended, List.splitOnP_eq_singleton h]
  rfl

@[simp] theorem ended_nil : ended eol [] = [] := rfl

theorem ended_line (h : ∀ x ∈ l, eol x = false) (he : eol e = true) (xs : List α) :
    ended eol (l ++ e :: xs) = l :: ended eol xs := by
  rw [ended, List.splitOnP_append_cons_of_forall_mem h e he,
    List.dropLast_cons_of_ne_nil (List.splitOnP_ne_nil eol xs)]
  rfl

/-- Ends alone are empty lines. -/
theorem ended_ends (h : ∀ x ∈ ys, eol x = true) (xs : List α) :
    ended eol (ys ++ xs) = List.replicate ys.length [] ++ ended eol xs := by
  induction ys with
  | nil => rfl
  | cons y ys ih =>
    have hline := ended_line (l := []) nofun (h y List.mem_cons_self) (ys ++ xs)
    rw [List.nil_append] at hline
    rw [List.cons_append, hline, ih fun x hx => h x (List.mem_cons_of_mem _ hx)]
    rfl

/-- The line as it was collected, and whether the rest of it is dropped. -/
structure Collected (α : Type*) where
  line : List α
  full : Bool

/-- A symbol is read, with the line that it ends. -/
def collect (eol : α → Bool) (max : Nat) (c : Collected α) (x : α) : Collected α × Option (List α) :=
  if c.full then (if eol x then ⟨[], false⟩ else c, none)
  else if eol x then (if c.line.isEmpty then (c, none) else (⟨[], false⟩, some c.line))
  else if max ≤ c.line.length then ({ c with full := true }, none)
  else ({ c with line := c.line ++ [x] }, none)

/-- The collector when `l` has come since the last end. -/
def after (max : Nat) (l : List α) : Collected α := ⟨l.take max, decide (max < l.length)⟩

/-- A line that is given out. -/
def fits (max : Nat) (l : List α) : Bool := !l.isEmpty && decide (l.length ≤ max)

theorem collect_end (he : eol e = true) (l : List α) : collect eol max (after max l) e =
    (after max [], if fits max l then some l else none) := by
  unfold collect after fits
  by_cases hmax : max < l.length
  · simp [hmax, he, hmax.not_ge]
  · rw [List.take_of_length_le (Nat.le_of_not_lt hmax)]
    cases l with
    | nil => simp [he]
    | cons x l =>
      have hlen : l.length < max := Nat.lt_of_succ_le (Nat.le_of_not_lt hmax)
      simp [he, hlen, hlen.not_ge]

theorem collect_open (he : eol e = false) (l : List α) : collect eol max (after max l) e = (after max (l ++ [e]), none) := by
  unfold collect after
  rcases Nat.lt_trichotomy l.length max with hlt | heq | hgt
  · have htake : (l ++ [e]).take max = l ++ [e] := List.take_of_length_le (by simp; omega)
    rw [List.take_of_length_le hlt.le, htake]
    simp [he, hlt.not_ge, hlt.le.not_gt]
  · rw [List.take_append_of_le_length heq.ge, List.take_of_length_le heq.le]
    simp [he, heq]
  · rw [List.take_append_of_le_length hgt.le]
    simp [he, hgt, Nat.lt_succ_of_lt hgt]

/-- The lines given out are those that fit. -/
theorem out_collect (hl : ∀ x ∈ l, eol x = false) (xs : List α) :
    Mealy.out (collect eol max) (after max l) xs = (ended eol (l ++ xs)).filter (fits max) := by
  induction xs generalizing l with
  | nil => rw [List.append_nil, ended_open hl, Mealy.out_nil, List.filter_nil]
  | cons x xs ih =>
    rw [Mealy.out_cons]
    cases hx : eol x with
    | true =>
      rw [collect_end hx, ended_line hl hx, List.filter_cons, ih (fun _ h => absurd h List.not_mem_nil), List.nil_append]
      split_ifs <;> rfl
    | false =>
      have hl' : ∀ y ∈ l ++ [x], eol y = false := by
        intro y hy
        rcases List.mem_append.mp hy with hy | hy
        · exact hl y hy
        · exact List.mem_singleton.mp hy ▸ hx
      rw [collect_open hx, ih hl', List.append_assoc]
      rfl

end Lines
