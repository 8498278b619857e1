import Mathlib

/-!
# Replays

A machine records outputs, and a fresh machine can be fed with them. `Replayed` says that the machine and
the fresh one fed with all of its record are related; a step keeps it if what the step records leads the
fresh machine along. Where the relation implies that the fresh machine records the same, the record is
reproduced.
-/

namespace Replay

variable {σ ω : Type*} {out : σ → List ω} {refeed : σ → ω → σ} {R : σ → σ → Prop} {r₀ s s' : σ} {ws : List ω}

/-- The machine after it is fed with a record. -/
def replay (refeed : σ → ω → σ) (r : σ) (ws : List ω) : σ := ws.foldl refeed r

@[simp] theorem replay_nil (r : σ) : replay refeed r [] = r := rfl

@[simp] theorem replay_cons (r : σ) (w : ω) : replay refeed r (w :: ws) = replay refeed (refeed r w) ws := rfl

theorem replay_append (r : σ) (ws ws' : List ω) :
    replay refeed r (ws ++ ws') = replay refeed (replay refeed r ws) ws' := List.foldl_append ..

/-- The fresh machine `r₀` comes along with what `s` has recorded. -/
def Replayed (out : σ → List ω) (refeed : σ → ω → σ) (R : σ → σ → Prop) (r₀ s : σ) : Prop :=
  R s (replay refeed r₀ (out s))

theorem Replayed.start (h : R s r₀) (hout : out s = []) : Replayed out refeed R r₀ s := by
  rw [Replayed, hout]
  exact h

/-- A step that records `ws`. -/
theorem Replayed.step (h : Replayed out refeed R r₀ s) (hout : out s' = out s ++ ws)
    (hR : ∀ r, R s r → R s' (replay refeed r ws)) : Replayed out refeed R r₀ s' := by
  rw [Replayed, hout, replay_append]
  exact hR _ h

end Replay
