import Mathlib.Algebra.GroupWithZero.Nat
import Mathlib.Algebra.Order.BigOperators.Group.Finset
import Mathlib.Algebra.Order.BigOperators.Group.List
import Mathlib.Data.Fintype.Basic
import Mathlib.Logic.Relation

/-! Threads over a shared state. Each thread has a stack of instructions; one step
takes the top one of some thread, changes the shared state and pushes what comes
next in its place, so that any number of threads interleave in any order. -/

namespace Threads

variable {T σ ι : Type*}

/-- What an idle thread may begin, and what an instruction may do. -/
structure Machine (T σ ι : Type*) where
  start : T → σ → σ → List ι → Prop
  exec : T → ι → σ → σ → List ι → Prop

structure State (T σ ι : Type*) where
  shared : σ
  stack : T → List ι

section
variable [DecidableEq T]

def State.move (s : State T σ ι) (t : T) (x : σ) (stack : List ι) : State T σ ι :=
  ⟨x, Function.update s.stack t stack⟩

@[simp] theorem State.move_shared (s : State T σ ι) (t : T) (x : σ) (stack : List ι) :
    (s.move t x stack).shared = x := rfl

@[simp] theorem State.move_stack_self (s : State T σ ι) (t : T) (x : σ) (stack : List ι) :
    (s.move t x stack).stack t = stack := Function.update_self ..

theorem State.move_stack_of_ne (s : State T σ ι) {t u : T} (h : u ≠ t) (x : σ)
    (stack : List ι) : (s.move t x stack).stack u = s.stack u := Function.update_of_ne h ..

inductive Step (M : Machine T σ ι) (s : State T σ ι) (t : T) : State T σ ι → Prop where
  | start {x push} : s.stack t = [] → M.start t s.shared x push → Step M s t (s.move t x push)
  | exec {i rest x push} : s.stack t = i :: rest → M.exec t i s.shared x push →
      Step M s t (s.move t x (push ++ rest))

/-- The states of the runs from an initial shared state, all threads idle, whose
steps satisfy `ok`. -/
inductive Reachable (M : Machine T σ ι) (init : σ → Prop) (ok : State T σ ι → T → Prop) :
    State T σ ι → Prop where
  | init {x} : init x → Reachable M init ok ⟨x, fun _ => []⟩
  | step {s s' t} : Reachable M init ok s → Step M s t s' → ok s t → Reachable M init ok s'

theorem Reachable.invariant {M : Machine T σ ι} {init : σ → Prop} {ok : State T σ ι → T → Prop}
    {I : State T σ ι → Prop} (hinit : ∀ x, init x → I ⟨x, fun _ => []⟩)
    (hstep : ∀ s t s', I s → Step M s t s' → ok s t → I s') {s : State T σ ι}
    (h : Reachable M init ok s) : I s := by
  induction h with
  | init hx => exact hinit _ hx
  | step _ hs hok ih => exact hstep _ _ _ ih hs hok

theorem Reachable.mono {M : Machine T σ ι} {init : σ → Prop} {ok ok' : State T σ ι → T → Prop}
    (hok : ∀ s t, ok s t → ok' s t) {s : State T σ ι} (h : Reachable M init ok s) :
    Reachable M init ok' s := by
  induction h with
  | init hx => exact .init hx
  | step _ hs ho ih => exact ih.step hs (hok _ _ ho)

theorem mem_push_or_mem {s : State T σ ι} {t u : T} {j : ι} {x : σ}
    {push : List ι} (hj : j ∈ (s.move t x push).stack u) : j ∈ push ∨ j ∈ s.stack u := by
  by_cases hu : u = t
  · rw [hu, State.move_stack_self] at hj
    exact Or.inl hj
  · rw [State.move_stack_of_ne _ hu] at hj
    exact Or.inr hj

theorem forall_of_exec {P : ι → Prop} {s : State T σ ι} {t : T} {i : ι} {x : σ}
    {push rest : List ι} (hs : s.stack t = i :: rest) (hi : P i)
    (h : ∀ u, ∀ j ∈ (s.move t x (push ++ rest)).stack u, P j) : ∀ u, ∀ j ∈ s.stack u, P j := by
  intro u j hj
  by_cases hu : u = t
  · rw [hu, hs] at hj
    rcases List.mem_cons.mp hj with rfl | hrest
    · exact hi
    · refine h t j ?_
      rw [State.move_stack_self]
      exact List.mem_append_right _ hrest
  · refine h u j ?_
    rwa [State.move_stack_of_ne _ hu]

theorem forall_of_start {P : ι → Prop} {s : State T σ ι} {t : T} {x : σ} {push : List ι}
    (hs : s.stack t = []) (h : ∀ u, ∀ j ∈ (s.move t x push).stack u, P j) :
    ∀ u, ∀ j ∈ s.stack u, P j := by
  intro u j hj
  by_cases hu : u = t
  · rw [hu, hs] at hj
    cases hj
  · refine h u j ?_
    rwa [State.move_stack_of_ne _ hu]

end

section Solo
variable {M : Machine Unit σ ι} {init : σ → Prop} {ok : State Unit σ ι → Unit → Prop} {x x' : σ}
  {i : ι} {push rest : List ι}

theorem State.move_solo (s : State Unit σ ι) (x : σ) (stack : List ι) :
    s.move () x stack = ⟨x, fun _ => stack⟩ := by
  have hstack : (s.move () x stack).stack = fun _ => stack :=
    funext fun _ => State.move_stack_self ..
  rw [← hstack]
  rfl

theorem Reachable.begin (h : Reachable M init ok ⟨x, fun _ => []⟩)
    (hok : ok ⟨x, fun _ => []⟩ ()) (hs : M.start () x x' push) :
    Reachable M init ok ⟨x', fun _ => push⟩ := by
  have hstep := Step.start (M := M) (s := ⟨x, fun _ => []⟩) (t := ()) rfl hs
  rw [State.move_solo] at hstep
  exact h.step hstep hok

theorem Reachable.exec (h : Reachable M init ok ⟨x, fun _ => i :: rest⟩)
    (hok : ok ⟨x, fun _ => i :: rest⟩ ()) (he : M.exec () i x x' push) :
    Reachable M init ok ⟨x', fun _ => push ++ rest⟩ := by
  have hstep := Step.exec (M := M) (s := ⟨x, fun _ => i :: rest⟩) (t := ()) rfl he
  rw [State.move_solo] at hstep
  exact h.step hstep hok

/-- One thread alone: it starts a call, or goes on with an answer of the outside. -/
def alone {α β : Type*} (call : σ → α → Option (List ι)) (goOn : σ → ι → β → Option (σ × List ι)) :
    σ × List ι → α ⊕ β → Option (σ × List ι)
  | (x, []), .inl a => (call x a).map (x, ·)
  | (x, i :: rest), .inr b => (goOn x i b).map fun r => (r.1, r.2 ++ rest)
  | _, _ => none

theorem Reachable.alone {α β : Type*} {call : σ → α → Option (List ι)}
    {goOn : σ → ι → β → Option (σ × List ι)}
    (hcall : ∀ x a push, call x a = some push →
      ok ⟨x, fun _ => []⟩ () ∧ M.start () x x push)
    (hgoOn : ∀ x i rest b x' push, goOn x i b = some (x', push) →
      ok ⟨x, fun _ => i :: rest⟩ () ∧ M.exec () i x x' push)
    (acts : List (α ⊕ β)) {x x' : σ} {stack stack' : List ι}
    (h : Reachable M init ok ⟨x, fun _ => stack⟩)
    (hs : acts.foldlM (Threads.alone call goOn) (x, stack) = some (x', stack')) :
    Reachable M init ok ⟨x', fun _ => stack'⟩ := by
  induction acts generalizing x stack with
  | nil =>
    cases hs
    exact h
  | cons a acts ih =>
    rw [List.foldlM_cons, Option.bind_eq_bind, Option.bind_eq_some_iff] at hs
    obtain ⟨⟨y, next⟩, ha, hs⟩ := hs
    refine ih ?_ hs
    cases stack with
    | nil =>
      cases a with
      | inl a =>
        obtain ⟨push, hpush, hy⟩ := Option.map_eq_some_iff.mp ha
        cases hy
        obtain ⟨hok, hstart⟩ := hcall _ _ _ hpush
        exact h.begin hok hstart
      | inr b => cases ha
    | cons i rest =>
      cases a with
      | inl a => cases ha
      | inr b =>
        obtain ⟨⟨z, push⟩, hpush, hy⟩ := Option.map_eq_some_iff.mp ha
        cases hy
        obtain ⟨hok, hexec⟩ := hgoOn _ _ rest _ _ _ hpush
        exact h.exec hok hexec

end Solo

theorem exists_next_of_cycle {R : T → T → Prop} {t : T} (h : Relation.TransGen R t t) :
    ∃ u, R t u ∧ Relation.TransGen R u u := by
  obtain ⟨u, htu, hut⟩ := Relation.TransGen.head'_iff.mp h
  exact ⟨u, htu, Relation.TransGen.tail' hut htu⟩

section
variable [Fintype T]

/-- The weight of all instructions of all threads. -/
def total (w : ι → ℕ) (stack : T → List ι) : ℕ := ∑ t, ((stack t).map w).sum

theorem total_idle (w : ι → ℕ) : total w (fun _ : T => ([] : List ι)) = 0 := by
  simp [total]

theorem total_update [DecidableEq T] (w : ι → ℕ) (stack : T → List ι) (t : T) (new : List ι) :
    total w (Function.update stack t new) + ((stack t).map w).sum =
      total w stack + (new.map w).sum := by
  have hsum : ∀ f : T → List ι, total w f =
      ((f t).map w).sum + ∑ u ∈ Finset.univ.erase t, ((f u).map w).sum := fun f =>
    (Finset.add_sum_erase Finset.univ _ (Finset.mem_univ t)).symm
  have hrest : ∑ u ∈ Finset.univ.erase t, ((Function.update stack t new u).map w).sum =
      ∑ u ∈ Finset.univ.erase t, ((stack u).map w).sum := by
    refine Finset.sum_congr rfl fun u hu => ?_
    rw [Function.update_of_ne (Finset.ne_of_mem_erase hu)]
  rw [hsum, hsum stack, hrest, Function.update_self]
  omega

theorem total_move [DecidableEq T] (w : ι → ℕ) (s : State T σ ι) (t : T) (x : σ)
    (new : List ι) : total w (s.move t x new).stack + ((s.stack t).map w).sum =
      total w s.stack + (new.map w).sum := total_update w s.stack t new

theorem total_start [DecidableEq T] (w : ι → ℕ) {s : State T σ ι} {t : T} (hs : s.stack t = [])
    (x : σ) (push : List ι) :
    total w (s.move t x push).stack = total w s.stack + (push.map w).sum := by
  have hm := total_move w s t x push
  rwa [hs, List.map_nil, List.sum_nil, Nat.add_zero] at hm

theorem total_exec [DecidableEq T] (w : ι → ℕ) {s : State T σ ι} {t : T} {i : ι} {rest : List ι}
    (hs : s.stack t = i :: rest) (x : σ) (push : List ι) :
    total w (s.move t x (push ++ rest)).stack + w i = total w s.stack + (push.map w).sum := by
  have hm := total_move w s t x (push ++ rest)
  rw [hs, List.map_cons, List.sum_cons, List.map_append, List.sum_append] at hm
  omega

theorem exists_of_total_pos {w : ι → ℕ} {stack : T → List ι} (h : 0 < total w stack) :
    ∃ t, ∃ i ∈ stack t, 0 < w i := by
  obtain ⟨t, -, ht⟩ := Finset.exists_ne_zero_of_sum_ne_zero (Nat.pos_iff_ne_zero.mp h)
  obtain ⟨n, hn, hne⟩ := List.exists_mem_ne_zero_of_sum_ne_zero ht
  obtain ⟨i, hi, rfl⟩ := List.mem_map.mp hn
  exact ⟨t, i, hi, Nat.pos_of_ne_zero hne⟩

theorem sum_le_total (w : ι → ℕ) (stack : T → List ι) (t : T) :
    ((stack t).map w).sum ≤ total w stack :=
  Finset.single_le_sum (f := fun u => ((stack u).map w).sum) (fun _ _ => Nat.zero_le _)
    (Finset.mem_univ t)

theorem le_total (w : ι → ℕ) {stack : T → List ι} {t : T} {i : ι} (h : i ∈ stack t) :
    w i ≤ total w stack := by
  have hone : w i ≤ ((stack t).map w).sum :=
    List.single_le_sum (fun _ _ => Nat.zero_le _) _ (List.mem_map_of_mem h)
  exact hone.trans (sum_le_total w stack t)

/-- The top of a stack has all the weight there is. -/
theorem mem_push_or_eq_zero [DecidableEq T] {w : ι → ℕ} {s : State T σ ι} {t u : T} {i j : ι}
    {x : σ} {push rest : List ι} (hs : s.stack t = i :: rest) (hw : total w s.stack ≤ w i)
    (hj : j ∈ (s.move t x (push ++ rest)).stack u) : j ∈ push ∨ w j = 0 := by
  have hm := total_exec w hs x []
  rw [List.map_nil, List.sum_nil, List.nil_append] at hm
  have hzero : ∀ v, ∀ k ∈ (s.move t x rest).stack v, w k = 0 := by
    intro v k hk
    have hle := le_total w hk
    omega
  by_cases hu : u = t
  · rw [hu, State.move_stack_self, List.mem_append] at hj
    refine hj.imp_right fun hrest => hzero t j ?_
    rwa [State.move_stack_self]
  · rw [State.move_stack_of_ne _ hu] at hj
    refine Or.inr (hzero u j ?_)
    rwa [State.move_stack_of_ne _ hu]

theorem add_le_total (w : ι → ℕ) {stack : T → List ι} {t u : T} (hne : t ≠ u) {i j : ι}
    (hi : i ∈ stack t) (hj : j ∈ stack u) : w i + w j ≤ total w stack := by
  classical
  have hle : ∀ {v k}, k ∈ stack v → w k ≤ ((stack v).map w).sum := fun hk =>
    List.single_le_sum (fun _ _ => Nat.zero_le _) _ (List.mem_map_of_mem hk)
  have hpair : ((stack t).map w).sum + ((stack u).map w).sum ≤ total w stack := by
    rw [← Finset.sum_pair (f := fun v => ((stack v).map w).sum) hne]
    exact Finset.sum_le_sum_of_subset (Finset.subset_univ _)
  exact (Nat.add_le_add (hle hi) (hle hj)).trans hpair

theorem total_mono {w w' : ι → ℕ} (h : ∀ i, w i ≤ w' i) (stack : T → List ι) :
    total w stack ≤ total w' stack :=
  Finset.sum_le_sum fun _ _ => List.sum_le_sum fun i _ => h i

theorem total_add (w w' : ι → ℕ) (stack : T → List ι) :
    total (fun i => w i + w' i) stack = total w stack + total w' stack := by
  simp only [total, List.sum_map_add, Finset.sum_add_distrib]

/-- Threads in one place each, worth at most one. -/
theorem total_le_card {w : ι → ℕ} (hw : ∀ i, w i ≤ 1) {stack : T → List ι}
    (hs : ∀ t, (stack t).length ≤ 1) : total w stack ≤ Fintype.card T := by
  have hone : ∀ t, ((stack t).map w).sum ≤ 1 := by
    intro t
    have hlen := hs t
    match h : stack t with
    | [] => simp
    | [i] => simpa using hw i
    | i :: j :: rest => simp [h] at hlen
  have hsum := Finset.sum_le_sum fun t (_ : t ∈ Finset.univ) => hone t
  simpa [total] using hsum

end

end Threads
