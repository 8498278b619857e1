import Mhuxd.Lib.Run

/-!
# Amounts over a run

`total` adds up what each step of a run does. Where no step does more than it takes from a level or puts into it, a
whole run doesn't.
-/

namespace Run

variable {σ ε : Type*} {step : σ → ε → σ}

/-- The sum of `f` over the steps of a run. -/
def total (step : σ → ε → σ) (f : σ → ε → Nat) : σ → List ε → Nat
  | _, [] => 0
  | s, e :: evs => f s e + total step f (step s e) evs

theorem total_mul (c : Nat) (f : σ → ε → Nat) (s : σ) (evs : List ε) :
    total step (fun s e => c * f s e) s evs = c * total step f s evs := by
  induction evs generalizing s with
  | nil => rfl
  | cons e evs ih => rw [total, total, ih, Nat.mul_add]

/-- What is taken comes from the level at the start or was put in. -/
theorem level_add_total_le {ok : σ → ε → Prop} {I : σ → Prop} {level : σ → Int} {taken put : σ → ε → Nat}
    (hstep : ∀ s e, I s → ok s e → I (step s e) ∧ level (step s e) + taken s e ≤ level s + put s e) {s : σ} {evs : List ε}
    (h : I s) (hok : StepsOk step ok s evs) :
    level (run step s evs) + total step taken s evs ≤ level s + total step put s evs := by
  induction evs generalizing s with
  | nil => simp [total]
  | cons e evs ih =>
    obtain ⟨hI, hlevel⟩ := hstep s e h hok.1
    have hrest := ih hI hok.2
    rw [run_cons, total, total]
    omega

/-- What grows by no more than is put in. -/
theorem le_add_total {ok : σ → ε → Prop} {I : σ → Prop} {f : σ → Nat} {g : σ → ε → Nat}
    (hstep : ∀ s e, I s → ok s e → I (step s e) ∧ f (step s e) ≤ f s + g s e) {s : σ} {evs : List ε}
    (h : I s) (hok : StepsOk step ok s evs) : f (run step s evs) ≤ f s + total step g s evs := by
  induction evs generalizing s with
  | nil => exact Nat.le_add_right ..
  | cons e evs ih =>
    obtain ⟨hI, hle⟩ := hstep s e h hok.1
    have hrest := ih hI hok.2
    rw [run_cons, total]
    omega

end Run
