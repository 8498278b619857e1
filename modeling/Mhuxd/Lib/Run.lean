import Mathlib

/-!
# Runs of a state machine

A machine is a step function `step : σ → ε → σ`; a run feeds it the events of a list, in order.
`StepsOk` says that every step of a run meets a condition on the state before it and its event.
The rules turn a one-step fact into a fact about runs: `run_inv` for an invariant of every step,
`run_inv_of_ok` for one that needs the condition. `ghost` notes along a run what a statement about it needs.
-/

namespace Run

variable {σ ε : Type*} {step : σ → ε → σ}

/-- The state after the events `evs`. -/
def run (step : σ → ε → σ) (s : σ) (evs : List ε) : σ := evs.foldl step s

@[simp] theorem run_nil (s : σ) : run step s [] = s := rfl

@[simp] theorem run_cons (s : σ) (e : ε) (evs : List ε) :
    run step s (e :: evs) = run step (step s e) evs := rfl

theorem run_append (s : σ) (evs evs' : List ε) :
    run step s (evs ++ evs') = run step (run step s evs) evs' := List.foldl_append ..

/-- Every step of the run meets `ok`. -/
def StepsOk (step : σ → ε → σ) (ok : σ → ε → Prop) : σ → List ε → Prop
  | _, [] => True
  | s, e :: evs => ok s e ∧ StepsOk step ok (step s e) evs

instance StepsOk.decidable {ok : σ → ε → Prop} [∀ s e, Decidable (ok s e)] :
    ∀ (s : σ) (evs : List ε), Decidable (StepsOk step ok s evs)
  | _, [] => isTrue trivial
  | s, e :: evs =>
    have : Decidable (StepsOk step ok (step s e) evs) := StepsOk.decidable (step s e) evs
    inferInstanceAs (Decidable (ok s e ∧ StepsOk step ok (step s e) evs))

theorem StepsOk.append {ok : σ → ε → Prop} {s : σ} {as bs : List ε} (h : StepsOk step ok s as)
    (h' : StepsOk step ok (run step s as) bs) : StepsOk step ok s (as ++ bs) := by
  induction as generalizing s with
  | nil => exact h'
  | cons a as ih => exact ⟨h.1, ih h.2 h'⟩

theorem StepsOk.left {ok : σ → ε → Prop} {s : σ} {as bs : List ε} (h : StepsOk step ok s (as ++ bs)) :
    StepsOk step ok s as := by
  induction as generalizing s with
  | nil => exact trivial
  | cons a as ih => exact ⟨h.1, ih h.2⟩

theorem StepsOk.right {ok : σ → ε → Prop} {s : σ} {as bs : List ε} (h : StepsOk step ok s (as ++ bs)) :
    StepsOk step ok (run step s as) bs := by
  induction as generalizing s with
  | nil => exact h
  | cons a as ih => exact ih h.2

theorem StepsOk.mono {ok ok' : σ → ε → Prop} (himp : ∀ s e, ok s e → ok' s e) {s : σ} {evs : List ε}
    (h : StepsOk step ok s evs) : StepsOk step ok' s evs := by
  induction evs generalizing s with
  | nil => exact trivial
  | cons e evs ih => exact ⟨himp s e h.1, ih h.2⟩

theorem StepsOk.and {ok ok' : σ → ε → Prop} {s : σ} {evs : List ε} (h : StepsOk step ok s evs)
    (h' : StepsOk step ok' s evs) : StepsOk step (fun s e => ok s e ∧ ok' s e) s evs := by
  induction evs generalizing s with
  | nil => exact trivial
  | cons e evs ih => exact ⟨⟨h.1, h'.1⟩, ih h.2 h'.2⟩

theorem StepsOk.of_forall {ok : σ → ε → Prop} (h : ∀ s e, ok s e) (s : σ) (evs : List ε) :
    StepsOk step ok s evs := by
  induction evs generalizing s with
  | nil => exact trivial
  | cons e evs ih => exact ⟨h s e, ih _⟩

/-- A condition on the events alone. -/
theorem stepsOk_const_iff {P : ε → Prop} {s : σ} {evs : List ε} :
    StepsOk step (fun _ e => P e) s evs ↔ ∀ e ∈ evs, P e := by
  induction evs generalizing s with
  | nil => exact iff_of_true trivial fun e he => absurd he List.not_mem_nil
  | cons e evs ih => rw [List.forall_mem_cons, StepsOk, ih]

/-- What holds in every state of a run holds before and after every step of it. -/
theorem stepsOk_of_prefix {P : σ → Prop} {s : σ} {evs : List ε} (h : ∀ as, as <+: evs → P (run step s as)) :
    StepsOk step (fun s e => P s ∧ P (step s e)) s evs := by
  induction evs generalizing s with
  | nil => exact trivial
  | cons e evs ih =>
    refine ⟨⟨h [] List.nil_prefix, h [e] (List.cons_prefix_cons.2 ⟨rfl, List.nil_prefix⟩)⟩, ih fun as has => ?_⟩
    exact h (e :: as) (List.cons_prefix_cons.2 ⟨rfl, has⟩)

/-- An invariant of the steps that meet `ok` holds after every run of such steps. -/
theorem run_inv_of_ok {ok : σ → ε → Prop} {I : σ → Prop}
    (hstep : ∀ s e, I s → ok s e → I (step s e)) {s : σ} {evs : List ε} (h : I s)
    (hok : StepsOk step ok s evs) : I (run step s evs) := by
  induction evs generalizing s with
  | nil => exact h
  | cons e evs ih => exact ih (hstep s e h hok.1) hok.2

/-- What an invariant says of the steps that meet `ok` holds of every step of such a run. -/
theorem StepsOk.of_inv {ok P : σ → ε → Prop} {I : σ → Prop}
    (hstep : ∀ s e, I s → ok s e → I (step s e) ∧ P s e) {s : σ} {evs : List ε} (h : I s)
    (hok : StepsOk step ok s evs) : StepsOk step P s evs := by
  induction evs generalizing s with
  | nil => exact trivial
  | cons e evs ih => exact ⟨(hstep s e h hok.1).2, ih (hstep s e h hok.1).1 hok.2⟩

/-- An invariant of every step holds after every run. -/
theorem run_inv {I : σ → Prop} (hstep : ∀ s e, I s → I (step s e)) {s : σ} (h : I s)
    (evs : List ε) : I (run step s evs) := by
  induction evs generalizing s with
  | nil => exact h
  | cons e evs ih => exact ih (hstep s e h)

/-- A ghost of the run: no step reads it, and each changes it by its own state and event. -/
def ghost {γ : Type*} (step : σ → ε → σ) (note : σ → γ → ε → γ) : σ → γ → List ε → γ
  | _, g, [] => g
  | s, g, e :: evs => ghost step note (step s e) (note s g e) evs

/-- What is preserved of a state and its ghost. -/
theorem ghost_inv_of_ok {γ : Type*} {note : σ → γ → ε → γ} {ok : σ → ε → Prop} {I : σ → γ → Prop}
    (hstep : ∀ s g e, I s g → ok s e → I (step s e) (note s g e)) {s : σ} {g : γ} {evs : List ε} (h : I s g)
    (hok : StepsOk step ok s evs) : I (run step s evs) (ghost step note s g evs) := by
  induction evs generalizing s g with
  | nil => exact h
  | cons e evs ih => exact ih (hstep s g e h hok.1) hok.2

/-- Conditions that are the same in the states of an invariant are the same in runs. -/
theorem stepsOk_congr_of_inv {ok ok' : σ → ε → Prop} {I : σ → Prop} (hstep : ∀ s e, I s → I (step s e))
    (hok : ∀ s e, I s → (ok s e ↔ ok' s e)) {s : σ} (h : I s) (evs : List ε) :
    StepsOk step ok s evs ↔ StepsOk step ok' s evs := by
  induction evs generalizing s with
  | nil => exact Iff.rfl
  | cons e evs ih => exact and_congr (hok s e h) (ih (hstep s e h))

/-- Where each step from a good state leads to a good one exactly if it meets `ok`, a run stays in good states
exactly if every step of it does. -/
theorem forall_prefix_iff {ok : σ → ε → Prop} {I P : σ → Prop}
    (hstep : ∀ s e, I s → P s → I (step s e) ∧ (P (step s e) ↔ ok s e)) {s : σ} (hI : I s) (hP : P s) (evs : List ε) :
    (∀ as, as <+: evs → P (run step s as)) ↔ StepsOk step ok s evs := by
  induction evs generalizing s with
  | nil =>
    refine ⟨fun _ => trivial, fun _ as has => ?_⟩
    rw [List.prefix_nil.1 has]
    exact hP
  | cons e evs ih =>
    obtain ⟨hI', hiff⟩ := hstep s e hI hP
    constructor
    · intro h
      have hgood : P (step s e) := h [e] (List.cons_prefix_cons.2 ⟨rfl, List.nil_prefix⟩)
      exact ⟨hiff.1 hgood, (ih hI' hgood).1 fun as has => h (e :: as) (List.cons_prefix_cons.2 ⟨rfl, has⟩)⟩
    · rintro ⟨hok, hrest⟩ as has
      cases as with
      | nil => exact hP
      | cons e' as =>
        obtain ⟨rfl, htail⟩ := List.cons_prefix_cons.1 has
        exact (ih hI' (hiff.2 hok)).2 hrest as htail

end Run
