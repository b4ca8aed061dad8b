import GameLift.Framing
import GameLift.Loop

/-! A loop that takes the frames of a stream off the front of what a state holds, one a
round, and comes back when the next frame is not all there. -/

namespace Framing

open Loop (Iter Returns)

variable {σ ρ π α : Type*}

/-- `Taken frames s` holds of a state that has taken `frames` so far. -/
structure Takes (body : σ → Iter σ ρ) (bytes : π → List α) (held : σ → List α)
    (answer : σ → ρ) (Taken : List π → σ → Prop) : Prop where
  waits : ∀ {frames pending more s}, Taken frames s → held s ++ more = stream bytes pending →
    Incomplete bytes (held s) pending → body s = .done (answer s)
  takes : ∀ {frames p tail s}, Taken frames s → held s = bytes p ++ tail →
    ∃ s', body s = .next s' ∧ held s' = tail ∧ Taken (frames ++ [p]) s'

variable {body : σ → Iter σ ρ} {bytes : π → List α} {held : σ → List α} {answer : σ → ρ}
  {Taken : List π → σ → Prop} {frames pending : List π} {more : List α} {s : σ}

theorem Takes.returns (h : Takes body bytes held answer Taken) (hs : Taken frames s)
    (hq : held s ++ more = stream bytes pending) :
    ∃ new later s', pending = new ++ later ∧ Returns body s (answer s') ∧
      Taken (frames ++ new) s' ∧ held s' ++ more = stream bytes later ∧
      Incomplete bytes (held s') later := by
  induction pending generalizing frames s with
  | nil =>
    have hi : Incomplete bytes (held s) [] := by
      simp only [stream, List.map_nil, List.flatten_nil, List.append_eq_nil_iff] at hq
      exact hq.1
    exact ⟨[], [], s, rfl, .of_done (h.waits hs hq hi), by simpa using hs, hq, hi⟩
  | cons p ps ih =>
    rcases front_cases (stream_cons p ps ▸ hq) with hlt | ⟨tail, htail, hmore⟩
    · exact ⟨[], p :: ps, s, rfl, .of_done (h.waits hs hq hlt), by simpa using hs, hq, hlt⟩
    · obtain ⟨s₁, hnext, rfl, h₁⟩ := h.takes hs htail
      obtain ⟨new, later, s', rfl, hret, hs', hq', hi⟩ := ih h₁ hmore
      exact ⟨p :: new, later, s', rfl, .of_next hnext hret, by simpa using hs', hq', hi⟩

end Framing
