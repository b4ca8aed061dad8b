import Mathlib.Logic.Basic

/-! Two runs of one machine, one of which leaves some operations out. If those
operations keep the states alike, and alike states answer alike, the rest of the run
cannot tell that they are missing. -/

namespace Unwinding

variable {σ α ρ : Type*} {step : σ → α → ρ → σ → Prop} {silent : α → ρ → Prop}

/-- A run with its history: each operation with what it answered. -/
inductive Run (step : σ → α → ρ → σ → Prop) : σ → List (α × ρ) → σ → Prop where
  | nil {s} : Run step s [] s
  | cons {s s' s'' a r history} : step s a r s' → Run step s' history s'' →
      Run step s ((a, r) :: history) s''

/-- The second history is the first one without some of its silent entries. -/
inductive Purged (silent : α → ρ → Prop) : List (α × ρ) → List (α × ρ) → Prop where
  | nil : Purged silent [] []
  | keep {a r history kept} : Purged silent history kept →
      Purged silent ((a, r) :: history) ((a, r) :: kept)
  | delete {a r history kept} : silent a r → Purged silent history kept →
      Purged silent ((a, r) :: history) kept

/-- The unwinding conditions of `alike`. -/
structure Unwinds (step : σ → α → ρ → σ → Prop) (silent : α → ρ → Prop)
    (alike : σ → σ → Prop) : Prop where
  consistent : ∀ {s t a r s'}, alike s t → step s a r s' → ∃ t', step t a r t' ∧ alike s' t'
  hidden : ∀ {s t a r s'}, alike s t → silent a r → step s a r s' → alike s' t

variable {alike : σ → σ → Prop}

theorem Unwinds.run (h : Unwinds step silent alike) {s s' t : σ} {history kept : List (α × ρ)}
    (hst : alike s t) (hrun : Run step s history s') (hp : Purged silent history kept) :
    ∃ t', Run step t kept t' ∧ alike s' t' := by
  induction hp generalizing s t with
  | nil =>
    cases hrun
    exact ⟨t, .nil, hst⟩
  | keep _ ih =>
    cases hrun with
    | cons hs hrest =>
      obtain ⟨t₁, ht, hst₁⟩ := h.consistent hst hs
      obtain ⟨t', hrun', hst'⟩ := ih hst₁ hrest
      exact ⟨t', .cons ht hrun', hst'⟩
  | delete hsilent _ ih =>
    cases hrun with
    | cons hs hrest => exact ih (h.hidden hst hsilent hs) hrest

end Unwinding
