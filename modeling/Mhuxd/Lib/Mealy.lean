import Mathlib

/-!
# Stream decoders

A decoder reads one symbol at a time and may give an output: `step : σ → α → σ × Option β`.
`out` collects the outputs of a stream and `next` is the state after it. Cutting a stream into
pieces cuts the outputs (`out_append`); a stream that brings every state to the same one, with the
same outputs, is decoded the same way whatever came before (`Sync`).
-/

namespace Mealy

variable {σ α β : Type*} (step : σ → α → σ × Option β)

/-- The state after the stream. -/
def next (s : σ) (xs : List α) : σ := xs.foldl (fun s x => (step s x).1) s

/-- The outputs of the stream. -/
def out : σ → List α → List β
  | _, [] => []
  | s, x :: xs => (step s x).2.toList ++ out (step s x).1 xs

@[simp] theorem next_nil (s : σ) : next step s [] = s := rfl

@[simp] theorem next_cons (s : σ) (x : α) (xs : List α) :
    next step s (x :: xs) = next step (step s x).1 xs := rfl

theorem next_append (s : σ) (xs ys : List α) : next step s (xs ++ ys) = next step (next step s xs) ys :=
  List.foldl_append ..

@[simp] theorem out_nil (s : σ) : out step s [] = [] := rfl

theorem out_cons (s : σ) (x : α) (xs : List α) :
    out step s (x :: xs) = (step s x).2.toList ++ out step (step s x).1 xs := rfl

theorem out_append (s : σ) (xs ys : List α) :
    out step s (xs ++ ys) = out step s xs ++ out step (next step s xs) ys := by
  induction xs generalizing s with
  | nil => rfl
  | cons x xs ih => simp only [List.cons_append, out_cons, next_cons, ih, List.append_assoc]

/-- The stream gives the outputs `ys` from every state. -/
def Sync (xs : List α) (ys : List β) : Prop := ∀ s, out step s xs = ys

variable {step}

theorem Sync.nil : Sync step [] [] := fun _ => rfl

theorem Sync.append {xs xs' : List α} {ys ys' : List β} (h : Sync step xs ys)
    (h' : Sync step xs' ys') : Sync step (xs ++ xs') (ys ++ ys') := by
  intro s
  rw [out_append, h s, h' _]

theorem Sync.flatMap {γ : Type*} {f : γ → List α} {g : γ → List β}
    (h : ∀ c, Sync step (f c) (g c)) (cs : List γ) : Sync step (cs.flatMap f) (cs.flatMap g) := by
  induction cs with
  | nil => exact .nil
  | cons c cs ih => exact (h c).append ih

end Mealy
