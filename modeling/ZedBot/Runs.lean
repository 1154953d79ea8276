import Mathlib.Order.Basic

/-! # Runs of a system

    A system takes one step for each event that is enabled. What holds at the start and is kept by
    every step holds in every state that is reached; what every step leaves between the states
    before and after it, every run leaves between its ends.

        s₀ ──e₁──▶ s₁ ──e₂──▶ … ──eₙ──▶ s -/

namespace Runs

variable {σ ε : Type} {step : σ → ε → Option σ} {s₀ s t u : σ} {e : ε}

/-- The states that a run from `s₀` comes to. -/
inductive Reaches (step : σ → ε → Option σ) (s₀ : σ) : σ → Prop
  | start : Reaches step s₀ s₀
  | step {s t : σ} {e : ε} : Reaches step s₀ s → step s e = some t → Reaches step s₀ t

theorem Reaches.one (h : step s e = some t) : Reaches step s t := .step .start h

theorem Reaches.trans (h : Reaches step s t) (h' : Reaches step t u) : Reaches step s u := by
  induction h' with
  | start => exact h
  | step _ hstep ih => exact ih.step hstep

/-- An invariant that the steps keep. -/
theorem Reaches.invariant {P : σ → Prop} (h : Reaches step s₀ s) (hstart : P s₀)
    (hstep : ∀ s t e, P s → step s e = some t → P t) : P s := by
  induction h with
  | start => exact hstart
  | step _ hs ih => exact hstep _ _ _ ih hs

/-- A reflexive and transitive relation that the steps from good states are in. -/
theorem Reaches.related {P : σ → Prop} {R : σ → σ → Prop} (h : Reaches step s₀ s) (hstart : P s₀)
    (hstep : ∀ s t e, P s → step s e = some t → P t) (hrefl : ∀ s, R s s)
    (htrans : ∀ s t u, R s t → R t u → R s u)
    (hmove : ∀ s t e, P s → step s e = some t → R s t) : R s₀ s := by
  induction h with
  | start => exact hrefl s₀
  | step hreach hs ih =>
    exact htrans _ _ _ ih (hmove _ _ _ (hreach.invariant hstart hstep) hs)

/-- The state after a list of events, if all are enabled in turn. -/
def exec (step : σ → ε → Option σ) (s : σ) : List ε → Option σ
  | [] => some s
  | e :: es => (step s e).bind fun t => exec step t es

theorem reaches_of_exec {es : List ε} (h : exec step s es = some t) : Reaches step s t := by
  induction es generalizing s with
  | nil => exact Option.some.inj h ▸ .start
  | cons e es ih =>
    obtain ⟨u, hu, hrest⟩ := Option.bind_eq_some_iff.mp h
    exact (Reaches.one hu).trans (ih hrest)

end Runs
