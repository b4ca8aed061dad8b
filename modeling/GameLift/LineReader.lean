import Mathlib.Tactic.SplitIfs
import GameLift.Loop

/-! Streams that are read item by item, and texts that are read line by line into a buffer
of bounded size. -/

namespace Loop

variable {S α σ : Type*}

/-- A loop that reads items until the stream has no more. -/
def readBody (next : S → Option (α × S)) (step : σ → α → σ) (p : S × σ) : Iter (S × σ) σ :=
  match next p.1 with
  | none => .done p.2
  | some (a, s) => .next (s, step p.2 a)

/-- The items that a stream gives. -/
inductive Supplies (next : S → Option (α × S)) : S → List α → Prop where
  | nil {s} : next s = none → Supplies next s []
  | cons {s t a as} : next s = some (a, t) → Supplies next t as → Supplies next s (a :: as)

variable {next : S → Option (α × S)} {step : σ → α → σ} {s : S} {as : List α}

/-- Reading to the end of the stream needs one round for each item and one to see the end. -/
theorem Supplies.loop (h : Supplies next s as) (x : σ) {fuel : Nat} (hf : as.length < fuel) :
    loop (readBody next step) fuel (s, x) = some (as.foldl step x) := by
  induction h generalizing x fuel with
  | nil hs =>
    obtain ⟨n, rfl⟩ := Nat.exists_eq_succ_of_ne_zero (Nat.ne_of_gt hf)
    exact loop_of_done (by simp [readBody, hs]) n
  | @cons s t a as hs _ ih =>
    obtain ⟨n, rfl⟩ := Nat.exists_eq_succ_of_ne_zero (Nat.ne_of_gt (Nat.zero_lt_of_lt hf))
    rw [List.length_cons] at hf
    have hnext : readBody next step (s, x) = .next (t, step x a) := by simp [readBody, hs]
    rw [loop_of_next hnext]
    exact ih (step x a) (by omega)

end Loop

namespace Lines

variable {α : Type*} [DecidableEq α] {sep : α}

/-- A line with its separator, or as much of it as there is room for, and what follows. -/
def takeLine (sep : α) : Nat → List α → List α × List α
  | 0, s => ([], s)
  | _ + 1, [] => ([], [])
  | n + 1, b :: s =>
    if b = sep then ([b], s) else (b :: (takeLine sep n s).1, (takeLine sep n s).2)

end Lines
