import Mathlib.Data.Nat.Find
import Mathlib.Tactic.ByContra
import GameLift.Loop

/-! A loop that asks the same question until it gets an answer it reacts to, with a pause
before it asks again; and when such a loop, watching for one status of an object that
settles, comes to the right end. -/

namespace Polling

open Loop (Iter)

variable {ε ρ β : Type*}

/-- `react` is `none` on the answers that are waited through. -/
structure Poll (ε ρ β : Type*) where
  ask : ε → ρ × ε
  pause : ε → ε
  react : ρ → ε → Option β

namespace Poll

def body (P : Poll ε ρ β) (e : ε) : Iter ε β :=
  match P.react (P.ask e).1 (P.ask e).2 with
  | some b => .done b
  | none => .next (P.pause (P.ask e).2)

/-- The environment that the n-th question meets, had all before it been waited through. -/
def before (P : Poll ε ρ β) (e : ε) : Nat → ε
  | 0 => e
  | n + 1 => P.pause (P.ask (P.before e n)).2

def answer (P : Poll ε ρ β) (e : ε) (n : Nat) : ρ := (P.ask (P.before e n)).1

def reaction (P : Poll ε ρ β) (e : ε) (n : Nat) : Option β :=
  P.react (P.answer e n) (P.ask (P.before e n)).2

variable {P : Poll ε ρ β} {e : ε}

theorem body_of_none {n : Nat} (h : P.reaction e n = none) :
    P.body (P.before e n) = .next (P.before e (n + 1)) := by
  rw [reaction, answer] at h
  rw [body, h]
  rfl

theorem body_of_some {n : Nat} {b : β} (h : P.reaction e n = some b) :
    P.body (P.before e n) = .done b := by
  rw [reaction, answer] at h
  rw [body, h]

theorem reaches {n : Nat} (h : ∀ i < n, P.reaction e i = none) :
    Relation.ReflTransGen (Loop.Next P.body) e (P.before e n) := by
  induction n with
  | zero => exact .refl
  | succ n ih =>
    have hn := ih fun i hi => h i (Nat.lt_succ_of_lt hi)
    exact hn.tail (body_of_none (h n (Nat.lt_succ_self n)))

theorem returns_first {n : Nat} {b : β} (h : ∀ i < n, P.reaction e i = none)
    (hn : P.reaction e n = some b) : Loop.Returns P.body e b :=
  .of_reaches (reaches h) (.of_done (body_of_some hn))

theorem not_terminates (h : ∀ i, P.reaction e i = none) : ¬Loop.Terminates P.body e := by
  refine Loop.not_terminates_of_trap (fun s => ∃ n, s = P.before e n) ?_ ⟨0, rfl⟩
  rintro s ⟨n, rfl⟩
  exact ⟨_, body_of_none (h n), n + 1, rfl⟩

/-- What the loop returns is its reaction to some answer. -/
theorem exists_react {b : β} (h : Loop.Returns P.body e b) : ∃ a e', P.react a e' = some b := by
  apply h.invariant (fun _ => True) (fun b => ∃ a e', P.react a e' = some b) trivial
  intro e' _
  rw [body]
  cases hr : P.react (P.ask e').1 (P.ask e').2 with
  | some b => exact ⟨_, _, hr⟩
  | none => exact trivial

theorem exists_first {p : Nat → Prop} (h : ∃ n, p n) : ∃ n, p n ∧ ∀ i < n, ¬p i := by
  classical exact ⟨Nat.find h, Nat.find_spec h, fun _ hi => Nat.find_min h hi⟩

end Poll

variable {σ : Type*}

/-- `none` is a question that got no status. -/
def Event (final : σ → Prop) : Option σ → Prop
  | none => True
  | some status => final status

/-- What is asked about reaches a final status and stays in it, or a question fails. -/
structure Settles (final : σ → Prop) (seen : Nat → Option σ) : Prop where
  event : ∃ n, Event final (seen n)
  stays : ∀ m n status, m ≤ n → seen m = some status → final status →
    seen n = some status ∨ seen n = none

/-- The first event that is seen is the status `goal`. -/
def Succeeds (final : σ → Prop) (goal : σ) (seen : Nat → Option σ) : Prop :=
  ∃ n, seen n = some goal ∧ ∀ i < n, ¬Event final (seen i)

/-- The loop reacts to failures and to the status `goal`, and to nothing else; `means` is
what its results mean. -/
def Watches (P : Poll ε ρ β) (e : ε) (seen : Nat → Option σ) (goal : σ)
    (means : β → Bool → Prop) : Prop :=
  ∀ n, (seen n = none ∧ ∃ b, P.reaction e n = some b ∧ means b false) ∨
    (seen n = some goal ∧ ∃ b, P.reaction e n = some b ∧ means b true) ∨
    ∃ status, seen n = some status ∧ status ≠ goal ∧ P.reaction e n = none

section

variable {P : Poll ε ρ β} {e : ε} {seen : Nat → Option σ} {goal : σ} {means : β → Bool → Prop}

theorem Watches.none_of_not (h : Watches P e seen goal means) {n : Nat}
    (hn : ¬(seen n = none ∨ seen n = some goal)) : P.reaction e n = none := by
  rw [not_or] at hn
  rcases h n with ⟨hfail, -⟩ | ⟨hgoal, -⟩ | ⟨-, -, -, hnone⟩
  · exact absurd hfail hn.1
  · exact absurd hgoal hn.2
  · exact hnone

theorem Watches.not_terminates (h : Watches P e seen goal means)
    (hnone : ¬∃ n, seen n = none ∨ seen n = some goal) : ¬Loop.Terminates P.body e :=
  Poll.not_terminates fun n => h.none_of_not fun hn => hnone ⟨n, hn⟩

/-- At the first poll that the loop reacts to, its answer is the right one. -/
theorem Watches.right (h : Watches P e seen goal means) {final : σ → Prop}
    (hsettles : Settles final seen) {n : Nat} (hn : seen n = none ∨ seen n = some goal)
    (hbefore : ∀ i < n, ¬(seen i = none ∨ seen i = some goal)) :
    ∃ b ok, P.reaction e n = some b ∧ means b ok ∧ (ok = true ↔ Succeeds final goal seen) := by
  rcases h n with ⟨hfail, b, hb, hmeans⟩ | ⟨hgoal, b, hb, hmeans⟩ | ⟨status, hstatus, hne, -⟩
  · refine ⟨b, false, hb, hmeans, iff_of_false Bool.false_ne_true ?_⟩
    rintro ⟨m, hm, hfirst⟩
    rcases Nat.lt_trichotomy m n with hlt | rfl | hlt
    · exact hbefore m hlt (Or.inr hm)
    · cases hfail.symm.trans hm
    · exact hfirst n hlt (hfail ▸ trivial)
  · refine ⟨b, true, hb, hmeans, iff_of_true rfl ⟨n, hgoal, fun i hi hevent => ?_⟩⟩
    cases hseen : seen i with
    | none => exact hbefore i hi (Or.inl hseen)
    | some status =>
      rw [hseen] at hevent
      -- A final status that is not the goal would still be there at the n-th poll.
      rcases hsettles.stays i n status (Nat.le_of_lt hi) hseen hevent with hsame | hnone
      · exact hbefore i hi (Or.inr (hseen.trans (hsame.symm.trans hgoal)))
      · cases hnone.symm.trans hgoal
  · rcases hn with hfail | hgoal
    · cases hfail.symm.trans hstatus
    · exact absurd (Option.some.inj (hstatus.symm.trans hgoal)) hne

/-- The loop comes to the right end exactly if a question fails or the goal is seen. -/
theorem Watches.returns_iff (h : Watches P e seen goal means) {final : σ → Prop}
    (hsettles : Settles final seen) :
    (∃ b ok, Loop.Returns P.body e b ∧ means b ok ∧ (ok = true ↔ Succeeds final goal seen)) ↔
      ∃ n, seen n = none ∨ seen n = some goal := by
  constructor
  · rintro ⟨b, -, hb, -⟩
    by_contra hnone
    exact h.not_terminates hnone ⟨b, hb⟩
  · intro hex
    obtain ⟨n, hn, hbefore⟩ := Poll.exists_first hex
    obtain ⟨b, ok, hb, hright⟩ := h.right hsettles hn hbefore
    exact ⟨b, ok, Poll.returns_first (fun i hi => h.none_of_not (hbefore i hi)) hb, hright⟩

end

end Polling
