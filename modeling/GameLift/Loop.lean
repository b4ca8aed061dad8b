import Mathlib.Logic.Relation

/-! Unbounded loops run on fuel. A body either leaves the loop, asks for
another round, or never comes back from a call inside it. -/

namespace Loop

variable {σ ρ : Type*}

inductive Iter (σ ρ : Type*) where
  | done (result : ρ)
  | next (state : σ)
  | hang

/-- `P` of the state it goes on with, `Q` of the result it leaves with. -/
def Iter.Holds (P : σ → Prop) (Q : ρ → Prop) : Iter σ ρ → Prop
  | .done r => Q r
  | .next s => P s
  | .hang => True

theorem Iter.Holds.imp {P P' : σ → Prop} {Q Q' : ρ → Prop} {i : Iter σ ρ} (h : i.Holds P Q)
    (hP : ∀ s, P s → P' s) (hQ : ∀ r, Q r → Q' r) : i.Holds P' Q' := by
  cases i with
  | done r => exact hQ r h
  | next s => exact hP s h
  | hang => trivial

/-- `none` is running out of fuel, or hanging inside the body. -/
def loop (body : σ → Iter σ ρ) : Nat → σ → Option ρ
  | 0, _ => none
  | fuel + 1, s =>
    match body s with
    | .done r => some r
    | .next s' => loop body fuel s'
    | .hang => none

def Returns (body : σ → Iter σ ρ) (s : σ) (r : ρ) : Prop := ∃ fuel, loop body fuel s = some r

def Terminates (body : σ → Iter σ ρ) (s : σ) : Prop := ∃ r, Returns body s r

def Next (body : σ → Iter σ ρ) (s t : σ) : Prop := body s = .next t

def rounds (body : σ → Iter σ ρ) : Nat → σ → Option σ
  | 0, s => some s
  | n + 1, s =>
    match body s with
    | .done _ => none
    | .next s' => rounds body n s'
    | .hang => none

theorem rounds_of_next {body : σ → Iter σ ρ} {s t : σ} (h : body s = .next t) (n : Nat) :
    rounds body (n + 1) s = rounds body n t := by simp [rounds, h]

theorem loop_of_done {body : σ → Iter σ ρ} {s : σ} {r : ρ} (h : body s = .done r) (fuel : Nat) :
    loop body (fuel + 1) s = some r := by simp [loop, h]

theorem loop_of_next {body : σ → Iter σ ρ} {s t : σ} (h : body s = .next t) (fuel : Nat) :
    loop body (fuel + 1) s = loop body fuel t := by simp [loop, h]

theorem loop_succ {body : σ → Iter σ ρ} {fuel : Nat} {s : σ} {r : ρ}
    (h : loop body fuel s = some r) : loop body (fuel + 1) s = some r := by
  induction fuel generalizing s with
  | zero => simp [loop] at h
  | succ fuel ih =>
    rw [loop] at h ⊢
    cases hb : body s with
    | done r' => simpa [hb] using h
    | next t => simp only [hb] at h ⊢; exact ih h
    | hang => simp [hb] at h

theorem loop_mono {body : σ → Iter σ ρ} {fuel fuel' : Nat} {s : σ} {r : ρ}
    (h : loop body fuel s = some r) (hle : fuel ≤ fuel') : loop body fuel' s = some r := by
  induction hle with
  | refl => exact h
  | step _ ih => exact loop_succ ih

theorem Returns.of_done {body : σ → Iter σ ρ} {s : σ} {r : ρ} (h : body s = .done r) :
    Returns body s r := ⟨1, loop_of_done h 0⟩

theorem Returns.of_next {body : σ → Iter σ ρ} {s t : σ} {r : ρ} (h : body s = .next t)
    (ht : Returns body t r) : Returns body s r := by
  obtain ⟨fuel, hf⟩ := ht
  exact ⟨fuel + 1, (loop_of_next h fuel).trans hf⟩

theorem Returns.unique {body : σ → Iter σ ρ} {s : σ} {r r' : ρ}
    (h : Returns body s r) (h' : Returns body s r') : r = r' := by
  obtain ⟨f, hf⟩ := h
  obtain ⟨f', hf'⟩ := h'
  have h1 := loop_mono hf (Nat.le_max_left f f')
  have h2 := loop_mono hf' (Nat.le_max_right f f')
  exact Option.some.inj (h1.symm.trans h2)

theorem Returns.invariant {body : σ → Iter σ ρ} {s : σ} {r : ρ} (h : Returns body s r)
    (P : σ → Prop) (Q : ρ → Prop) (hs : P s) (hbody : ∀ s, P s → (body s).Holds P Q) : Q r := by
  obtain ⟨fuel, hf⟩ := h
  induction fuel generalizing s with
  | zero => simp [loop] at hf
  | succ fuel ih =>
    have hb := hbody s hs
    rw [loop] at hf
    cases he : body s with
    | done r' =>
      simp only [he, Option.some.injEq] at hf hb
      exact hf ▸ hb
    | next t =>
      simp only [he] at hf hb
      exact ih hb hf
    | hang => simp [he] at hf

theorem terminates_of_measure {body : σ → Iter σ ρ} (m : σ → Nat) (P : σ → Prop)
    (hnext : ∀ s t, P s → body s = .next t → P t ∧ m t < m s)
    (hhang : ∀ s, P s → body s ≠ .hang) (s : σ) (hs : P s) : Terminates body s := by
  -- Induction on the measure; `P` is what makes it drop.
  induction hm : m s using Nat.strongRecOn generalizing s with
  | _ n ih =>
    cases hb : body s with
    | done r => exact ⟨r, .of_done hb⟩
    | next t =>
      obtain ⟨ht, hlt⟩ := hnext s t hs hb
      obtain ⟨r, hr⟩ := ih (m t) (hm ▸ hlt) t ht rfl
      exact ⟨r, .of_next hb hr⟩
    | hang => exact absurd hb (hhang s hs)

theorem terminates_iff_of_next {body : σ → Iter σ ρ} {s t : σ} (h : body s = .next t) :
    Terminates body s ↔ Terminates body t := by
  constructor
  · rintro ⟨r, fuel, hf⟩
    cases fuel with
    | zero => simp [loop] at hf
    | succ fuel => exact ⟨r, fuel, (loop_of_next h fuel).symm.trans hf⟩
  · rintro ⟨r, hr⟩
    exact ⟨r, .of_next h hr⟩

theorem Returns.of_reaches {body : σ → Iter σ ρ} {s t : σ} {r : ρ}
    (h : Relation.ReflTransGen (Next body) s t) (ht : Returns body t r) : Returns body s r := by
  induction h with
  | refl => exact ht
  | tail _ hstep ih => exact ih (.of_next hstep ht)

theorem terminates_iff_of_reaches {body : σ → Iter σ ρ} {s t : σ}
    (h : Relation.ReflTransGen (Next body) s t) : Terminates body s ↔ Terminates body t := by
  induction h with
  | refl => exact Iff.rfl
  | tail _ hstep ih => exact ih.trans (terminates_iff_of_next hstep)

theorem not_terminates_of_trap {body : σ → Iter σ ρ} (P : σ → Prop)
    (htrap : ∀ s, P s → ∃ t, body s = .next t ∧ P t) {s : σ} (hs : P s) : ¬ Terminates body s := by
  rintro ⟨r, h⟩
  refine h.invariant P (fun _ => False) hs fun s hs => ?_
  obtain ⟨t, hb, ht⟩ := htrap s hs
  rw [hb]
  exact ht

end Loop
