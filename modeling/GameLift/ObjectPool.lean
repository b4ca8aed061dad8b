import Mathlib.Data.Fintype.Pi
import GameLift.Threads

/-! ObjectPool.h: freed blocks are kept in a ring of slots. Both counters only grow;
nothing keeps them consistent with each other or with the slots. -/

namespace GameLift

namespace ObjectPool

open Threads (total total_start total_exec total_update)

abbrev Pos := BitVec 64

/-- The ring has `2 ^ k` slots and its mask is one less. -/
def slot (k : ℕ) (pos : Pos) : Fin (2 ^ k) :=
  ⟨(pos &&& BitVec.ofNat 64 (2 ^ k - 1)).toNat, by
    have hpos := Nat.two_pow_pos k
    rw [BitVec.toNat_and, BitVec.toNat_ofNat]
    have hand : pos.toNat &&& (2 ^ k - 1) % 2 ^ 64 ≤ (2 ^ k - 1) % 2 ^ 64 := Nat.and_le_right
    have hmod := Nat.mod_le (2 ^ k - 1) (2 ^ 64)
    exact Nat.lt_of_le_of_lt (hand.trans hmod) (Nat.sub_lt hpos Nat.one_pos)⟩

/-- `operator new` and `operator delete` past their first step. -/
inductive Point (B : Type) where
  | popExchange (popPos : Pos)
  | alignedMalloc
  | insExchange (insPos : Pos) (obj : B)
  | alignedFree (prevVal : B)

/-- `allocated` are the blocks that the system has given and not got back, `owned` the
objects that each thread holds. -/
structure Pool (k : ℕ) (T B : Type) where
  mPool : Fin (2 ^ k) → Option B
  mHeadPos : Pos
  mTailPos : Pos
  allocated : B → Bool
  owned : T → List B

variable {k : ℕ} {T B : Type}

def Pool.empty : Pool k T B where
  mPool _ := none
  mHeadPos := 0
  mTailPos := 0
  allocated _ := false
  owned _ := []

section Machine
variable [DecidableEq T] [DecidableEq B]

def Pool.setSlot (x : Pool k T B) (pos : Pos) (val : Option B) : Pool k T B :=
  { x with mPool := Function.update x.mPool (slot k pos) val }

def Pool.setOwned (x : Pool k T B) (t : T) (objs : List B) : Pool k T B :=
  { x with owned := Function.update x.owned t objs }

def Pool.setAllocated (x : Pool k T B) (obj : B) (allocated : Bool) : Pool k T B :=
  { x with allocated := Function.update x.allocated obj allocated }

def Pool.take (x : Pool k T B) (t : T) (obj : B) : Pool k T B :=
  x.setOwned t ((x.owned t).erase obj)

def Pool.give (x : Pool k T B) (t : T) (obj : B) : Pool k T B :=
  x.setOwned t (obj :: x.owned t)

/-- A call with the step that takes its position, or an object handed to a thread. -/
inductive Begin (t : T) (x : Pool k T B) : Pool k T B → List (Point B) → Prop where
  | new : Begin t x { x with mHeadPos := x.mHeadPos + 1 } [.popExchange x.mHeadPos]
  | delete {obj} : obj ∈ x.owned t →
      Begin t x { x.take t obj with mTailPos := x.mTailPos + 1 } [.insExchange x.mTailPos obj]
  | hand {obj u} : obj ∈ x.owned t → Begin t x ((x.take t obj).give u obj) []

def exec (t : T) (x : Pool k T B) : Point B → Pool k T B → List (Point B) → Prop
  | .popExchange popPos, x', next =>
    match x.mPool (slot k popPos) with
    | some popVal => x' = (x.setSlot popPos none).give t popVal ∧ next = []
    | none => x' = x.setSlot popPos none ∧ next = [.alignedMalloc]
  | .alignedMalloc, x', next => ∃ obj, x.allocated obj = false ∧
    x' = (x.setAllocated obj true).give t obj ∧ next = []
  | .insExchange insPos obj, x', next => x' = x.setSlot insPos (some obj) ∧
    next = match x.mPool (slot k insPos) with
      | some prevVal => [.alignedFree prevVal]
      | none => []
  | .alignedFree prevVal, x', next => x' = x.setAllocated prevVal false ∧ next = []

def machine (k : ℕ) : Threads.Machine T (Pool k T B) (Point B) where
  start := Begin
  exec t p x x' next := exec t x p x' next

abbrev State (k : ℕ) (T B : Type) := Threads.State T (Pool k T B) (Point B)

def Reached (s : State k T B) : Prop :=
  Threads.Reachable (machine k) (· = .empty) (fun _ _ => True) s

end Machine

section Places
variable [DecidableEq B]

def same (b obj : B) : ℕ := if obj = b then 1 else 0

def Point.hand (b : B) : Point B → ℕ
  | insExchange _ obj | alignedFree obj => same b obj
  | _ => 0

def Pool.slots (x : Pool k T B) (i : Fin (2 ^ k)) : List B := (x.mPool i).toList

/-- The places outside of the calls in progress where a block is. -/
def Pool.places [Fintype T] (x : Pool k T B) (b : B) : ℕ :=
  total (same b) x.owned + total (same b) x.slots

def Pool.live (x : Pool k T B) (b : B) : ℕ := if x.allocated b then 1 else 0

variable [Fintype T] (x : Pool k T B) (b : B) {t : T} {obj : B}

theorem places_setSlot (pos : Pos) (val : Option B) :
    (x.setSlot pos val).places b + ((x.mPool (slot k pos)).toList.map (same b)).sum =
      x.places b + (val.toList.map (same b)).sum := by
  have hupdate : (x.setSlot pos val).slots = Function.update x.slots (slot k pos) val.toList := by
    funext i
    by_cases hi : i = slot k pos
    · subst hi
      simp [Pool.slots, Pool.setSlot]
    · simp [Pool.slots, Pool.setSlot, hi]
  have hsum := total_update (same b) x.slots (slot k pos) val.toList
  rw [← hupdate, Pool.slots] at hsum
  have howned : (x.setSlot pos val).owned = x.owned := rfl
  simp only [Pool.places, howned]
  omega

variable [DecidableEq T]

theorem places_give (t : T) (obj : B) :
    (x.give t obj).places b = x.places b + same b obj := by
  have hsum := total_update (same b) x.owned t (obj :: x.owned t)
  have hslots : (x.give t obj).slots = x.slots := rfl
  have howned : (x.give t obj).owned = Function.update x.owned t (obj :: x.owned t) := rfl
  rw [List.map_cons, List.sum_cons] at hsum
  simp only [Pool.places, hslots, howned]
  omega

theorem places_take (h : obj ∈ x.owned t) :
    (x.take t obj).places b + same b obj = x.places b := by
  have hperm := ((List.perm_cons_erase h).map (same b)).sum_eq
  have hsum := total_update (same b) x.owned t ((x.owned t).erase obj)
  have hslots : (x.take t obj).slots = x.slots := rfl
  have howned : (x.take t obj).owned = Function.update x.owned t ((x.owned t).erase obj) := rfl
  rw [List.map_cons, List.sum_cons] at hperm
  simp only [Pool.places, hslots, howned]
  omega

variable {x b} {x' : Pool k T B} {next : List (Point B)}

theorem begin_places (h : Begin t x x' next) :
    x'.places b + (next.map (Point.hand b)).sum = x.places b ∧ x'.allocated = x.allocated := by
  cases h with
  | new => exact ⟨rfl, rfl⟩
  | delete hmem => exact ⟨places_take x b hmem, rfl⟩
  | @hand obj u hmem =>
    have hgive := places_give (x.take t obj) b u obj
    exact ⟨hgive.trans (places_take x b hmem), rfl⟩

theorem exec_places {p : Point B} (h : exec t x p x' next)
    (hlive : ∀ obj, p = .alignedFree obj → x.allocated obj = true) :
    x'.places b + (next.map (Point.hand b)).sum + x.live b =
      x.places b + p.hand b + x'.live b := by
  cases p with
  | popExchange popPos =>
    have hslot := places_setSlot x b popPos none
    cases hval : x.mPool (slot k popPos) with
    | none =>
      simp only [exec, hval] at h
      obtain ⟨rfl, rfl⟩ := h
      rw [hval] at hslot
      exact congrArg (· + x.live b) hslot
    | some popVal =>
      simp only [exec, hval] at h
      obtain ⟨rfl, rfl⟩ := h
      have hgive := places_give (x.setSlot popPos none) b t popVal
      have hone : ((some popVal).toList.map (same b)).sum = same b popVal := rfl
      rw [hval, hone, ← hgive] at hslot
      exact congrArg (· + x.live b) hslot
  | alignedMalloc =>
    obtain ⟨obj, hfree, rfl, rfl⟩ := h
    have hgive := places_give (x.setAllocated obj true) b t obj
    have hplaces : (x.setAllocated obj true).places b = x.places b := rfl
    have hnext : ((x.setAllocated obj true).give t obj).live b = x.live b + same b obj := by
      by_cases hb : obj = b
      · subst hb
        simp [Pool.live, Pool.give, Pool.setOwned, Pool.setAllocated, same, hfree]
      · simp [Pool.live, Pool.give, Pool.setOwned, Pool.setAllocated, same, hb, Ne.symm hb]
    have hhand : Point.hand b (.alignedMalloc : Point B) = 0 := rfl
    rw [hgive, hplaces, hnext, hhand, List.map_nil, List.sum_nil]
    omega
  | insExchange insPos obj =>
    obtain ⟨rfl, rfl⟩ := h
    have hslot := places_setSlot x b insPos (some obj)
    have hone : ((some obj).toList.map (same b)).sum = same b obj := rfl
    have hlive' : (x.setSlot insPos (some obj)).live b = x.live b := rfl
    have hhand : Point.hand b (.insExchange insPos obj) = same b obj := rfl
    rw [hone] at hslot
    rw [hlive', hhand, ← hslot]
    cases hval : x.mPool (slot k insPos) with
    | none => rfl
    | some prevVal => rfl
  | alignedFree prevVal =>
    obtain ⟨rfl, rfl⟩ := h
    have hplaces : (x.setAllocated prevVal false).places b = x.places b := rfl
    have hnext : x.live b = (x.setAllocated prevVal false).live b + same b prevVal := by
      by_cases hb : prevVal = b
      · subst hb
        simp [Pool.live, Pool.setAllocated, same, hlive prevVal rfl]
      · simp [Pool.live, Pool.setAllocated, same, hb, Ne.symm hb]
    have hhand : Point.hand b (.alignedFree prevVal) = same b prevVal := rfl
    rw [hplaces, hhand, hnext, List.map_nil, List.sum_nil]
    omega

end Places

variable [Fintype T] [DecidableEq B] {s : State k T B}

/-- Every block that the system has given is in one place. -/
def Inv (s : State k T B) : Prop :=
  ∀ b, s.shared.places b + total (Point.hand b) s.stack = s.shared.live b

theorem Inv.init : Inv (⟨.empty, fun _ => []⟩ : State k T B) := by
  intro b
  have howned : total (same b) (fun _ : T => ([] : List B)) = 0 := Threads.total_idle _
  have hslots : total (same b) (fun _ : Fin (2 ^ k) => ([] : List B)) = 0 := Threads.total_idle _
  rw [Threads.total_idle]
  exact congrArg₂ (· + ·) howned hslots

theorem Inv.allocated (h : Inv s) {t : T} {p : Point B} (hp : p ∈ s.stack t) {b : B}
    (hb : p.hand b = 1) : s.shared.allocated b = true ∧ s.shared.places b = 0 := by
  have hsum := h b
  have hone := Threads.le_total (Point.hand b) hp
  have hle : s.shared.live b ≤ 1 := by
    rw [Pool.live]
    split_ifs
    · exact Nat.le_refl 1
    · exact Nat.zero_le 1
  refine ⟨?_, by omega⟩
  by_contra hfree
  rw [Pool.live, if_neg hfree] at hsum
  omega

variable [DecidableEq T]

theorem Inv.step (h : Inv s) {t : T} {s' : State k T B}
    (hs : Threads.Step (machine k) s t s') : Inv s' := by
  intro b
  have hsum := h b
  cases hs with
  | @start x next hidle hb =>
    obtain ⟨hplaces, hallocated⟩ := begin_places (b := b) hb
    have hlive : x.live b = s.shared.live b := by rw [Pool.live, hallocated, Pool.live]
    rw [total_start _ hidle, Threads.State.move_shared, hlive]
    omega
  | @exec p rest x next htop hexec =>
    have hplaces := exec_places (b := b) hexec fun obj hobj => by
      subst hobj
      refine (h.allocated (t := t) (p := .alignedFree obj) ?_ (if_pos rfl)).1
      rw [htop]
      exact List.mem_cons_self
    have htotal := total_exec (Point.hand b) htop x next
    rw [Threads.State.move_shared]
    omega

theorem Reached.inv (h : Reached s) : Inv s :=
  Threads.Reachable.invariant (fun _ hx => hx ▸ Inv.init) (fun _ _ _ hi hs _ => hi.step hs) h

theorem sum_same (b : B) (objs : List B) : (objs.map (same b)).sum = objs.count b := by
  induction objs with
  | nil => rfl
  | cons obj objs ih =>
    rw [List.map_cons, List.sum_cons, ih, List.count_cons, same, Nat.add_comm]
    simp only [beq_iff_eq]

/-- A block is where the system's account says: in one place if it is allocated, in
none if not. So no object has two owners, and what is freed is allocated and neither
owned nor pooled. -/
theorem block_in_one_place (h : Reached s) :
    (∀ b, s.shared.places b + total (Point.hand b) s.stack =
        if s.shared.allocated b then 1 else 0) ∧
      (∀ t b, (s.shared.owned t).count b ≤ 1) ∧
      (∀ t u b, b ∈ s.shared.owned t → b ∈ s.shared.owned u → t = u) ∧
      (∀ t b, .alignedFree b ∈ s.stack t → s.shared.allocated b = true ∧
        (∀ u, b ∉ s.shared.owned u) ∧ ∀ i, s.shared.mPool i ≠ some b) := by
  have hinv := h.inv
  have hle : ∀ b, s.shared.places b ≤ 1 := by
    intro b
    have hsum := hinv b
    rw [Pool.live] at hsum
    split_ifs at hsum <;> omega
  have howned : ∀ {b u}, b ∈ s.shared.owned u → 1 ≤ total (same b) s.shared.owned := by
    intro b u hu
    simpa [same] using Threads.le_total (same b) hu
  refine ⟨hinv, fun t b => ?_, fun t u b ht hu => ?_, fun t b ht => ?_⟩
  · have hsum := Threads.sum_le_total (same b) s.shared.owned t
    have hone := hle b
    rw [sum_same] at hsum
    rw [Pool.places] at hone
    omega
  · by_contra hne
    have htwo := Threads.add_le_total (same b) hne ht hu
    have hone := hle b
    rw [same, if_pos rfl] at htwo
    rw [Pool.places] at hone
    omega
  · obtain ⟨hallocated, hplaces⟩ := hinv.allocated ht (if_pos rfl)
    rw [Pool.places] at hplaces
    refine ⟨hallocated, fun u hu => ?_, fun i hi => ?_⟩
    · have hone := howned hu
      omega
    · have hmem : b ∈ s.shared.slots i := by simp [Pool.slots, hi]
      have hone := Threads.le_total (same b) hmem
      rw [same, if_pos rfl] at hone
      omega

theorem first_block : ∃ s : State 10 Unit ℕ, Reached s ∧ s.shared.owned () = [7] ∧
    s.shared.places 7 + total (Point.hand 7) s.stack =
      if s.shared.allocated 7 then 1 else 0 := by
  have h0 : Reached (⟨.empty, fun _ => []⟩ : State 10 Unit ℕ) := .init rfl
  have h1 : Reached _ := .step h0 (.start (t := ()) rfl .new) trivial
  have h2 : Reached _ := .step h1 (.exec (t := ()) rfl ⟨rfl, rfl⟩) trivial
  have h3 : Reached _ := .step h2 (.exec (t := ()) rfl ⟨7, rfl, rfl, rfl⟩) trivial
  exact ⟨_, h3, rfl, (block_in_one_place h3).1 7⟩

end ObjectPool

end GameLift
