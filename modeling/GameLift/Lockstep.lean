import Mathlib.Data.List.Basic

/-! A loop over one list with an iterator over another that nothing compares to its end. -/

namespace Lockstep

variable {α β σ ρ : Type*}

/-- `past` is what comes of reading the iterator at the end of its list. A step leaves the loop
with `some` result. -/
def walk (step : α → β → σ → Option ρ × σ) (past : ρ) : List α → List β → σ → Option ρ × σ
  | [], _, s => (none, s)
  | _ :: _, [], s => (some past, s)
  | a :: as, b :: bs, s =>
    match step a b s with
    | (none, s) => walk step past as bs s
    | (some r, s) => (some r, s)

variable {step : α → β → σ → Option ρ × σ} {past : ρ}

/-- What every step on a cell of the second list keeps, the loop keeps. -/
theorem walk_keeps {Q : σ → Prop} {as : List α} {bs : List β} {s : σ}
    (hstep : ∀ a, ∀ b ∈ bs, ∀ s, Q s → Q (step a b s).2) (hs : Q s) :
    Q (walk step past as bs s).2 := by
  induction as generalizing bs s with
  | nil => exact hs
  | cons a as ih =>
    cases bs with
    | nil => exact hs
    | cons b bs =>
      have hnext := hstep a b List.mem_cons_self s hs
      rw [walk]
      rcases hr : step a b s with ⟨r, t⟩
      rw [hr] at hnext
      cases r with
      | none => exact ih (fun a b hb => hstep a b (List.mem_cons_of_mem _ hb)) hnext
      | some r => exact hnext

/-- `P` holds of the pairs done so far. If no step leaves the loop, then the lengths decide
whether the iterator is read past the end. -/
theorem walk_spec {P : List (α × β) → σ → Prop} {as : List α} {bs : List β} {s : σ}
    (hstep : ∀ pairs a b s, pairs ++ [(a, b)] <+: as.zip bs → P pairs s →
      (step a b s).1 = none ∧ P (pairs ++ [(a, b)]) (step a b s).2)
    (hs : P [] s) :
    (walk step past as bs s).1 = (if as.length ≤ bs.length then none else some past) ∧
      P (as.zip bs) (walk step past as bs s).2 := by
  induction as generalizing bs s P with
  | nil => exact ⟨(if_pos (Nat.zero_le _)).symm, hs⟩
  | cons a as ih =>
    cases bs with
    | nil => exact ⟨(if_neg (Nat.not_succ_le_zero _)).symm, hs⟩
    | cons b bs =>
      obtain ⟨hgo, hnext⟩ := hstep [] a b s ⟨as.zip bs, rfl⟩ hs
      have hrest := ih (P := fun pairs => P ((a, b) :: pairs)) (fun pairs a' b' t hpre ht =>
        hstep ((a, b) :: pairs) a' b' t (List.cons_prefix_cons.mpr ⟨rfl, hpre⟩) ht) hnext
      rw [walk]
      rcases hr : step a b s with ⟨r, t⟩
      rw [hr] at hgo hrest
      cases hgo
      simp only [List.length_cons, Nat.add_le_add_iff_right]
      exact hrest

theorem map_snd_zip_prefix (as : List α) (bs : List β) : (as.zip bs).map Prod.snd <+: bs := by
  rw [List.zip_eq_zip_take_min, List.map_snd_zip]
  · exact List.take_prefix _ _
  · simp only [List.length_take]
    omega

end Lockstep
