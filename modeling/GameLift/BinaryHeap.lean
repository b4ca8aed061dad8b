import Mathlib.Data.Nat.Init
import Mathlib.Order.Lattice

/-! The usual binary heap in an array, the smallest key first. A new element is sifted
up only past parents with a strictly larger key; what replaces the root is moved down to
a leaf and sifted up from there. -/

namespace BinaryHeap

variable {α K : Type*} [LinearOrder K] (key : α → K)

def siftUp (a : Array α) (i : ℕ) : Array α :=
  if h : 0 < i ∧ i < a.size then
    if key a[i] < key a[(i - 1) / 2] then
      siftUp (a.swap i ((i - 1) / 2)) ((i - 1) / 2)
    else a
  else a
termination_by i

def push (a : Array α) (x : α) : Array α := siftUp key (a.push x) a.size

/-- The child with the smaller key, the right one of two equals. -/
def child (a : Array α) (i : ℕ) (h : 2 * i + 1 < a.size) : ℕ :=
  if h' : 2 * i + 2 < a.size then
    if key a[2 * i + 1] < key a[2 * i + 2] then 2 * i + 1 else 2 * i + 2
  else 2 * i + 1

theorem child_lt (a : Array α) (i : ℕ) (h : 2 * i + 1 < a.size) : child key a i h < a.size := by
  unfold child
  split_ifs <;> omega

theorem lt_child (a : Array α) (i : ℕ) (h : 2 * i + 1 < a.size) : i < child key a i h := by
  unfold child
  split_ifs <;> omega

/-- The element at `i` goes down to a leaf whatever its key, and is sifted up from there. -/
def adjustHeap (a : Array α) (i : ℕ) : Array α :=
  if h : 2 * i + 1 < a.size then
    have hc := child_lt key a i h
    have hi := lt_child key a i h
    adjustHeap (a.swap i (child key a i h)) (child key a i h)
  else siftUp key a i
termination_by a.size - i

def pop (a : Array α) : Array α :=
  if h : 0 < a.size then adjustHeap key (a.swap 0 (a.size - 1)).pop 0 else a

def Ordered (a : Array α) : Prop :=
  ∀ i (hi : i < a.size) (hp : (i - 1) / 2 < a.size), 0 < i → key a[(i - 1) / 2] ≤ key a[i]

/-- Only the element at `i` may be too small for its parent. -/
structure UpReady (a : Array α) (i : ℕ) : Prop where
  except : ∀ j (hj : j < a.size) (hp : (j - 1) / 2 < a.size), 0 < j → j ≠ i →
    key a[(j - 1) / 2] ≤ key a[j]
  grand : ∀ j (hj : j < a.size) (hp : (i - 1) / 2 < a.size), 0 < j → (j - 1) / 2 = i → 0 < i →
    key a[(i - 1) / 2] ≤ key a[j]

/-- The element at `i` stands in no order to its neighbours. -/
structure HoleReady (a : Array α) (i : ℕ) : Prop where
  except : ∀ j (hj : j < a.size) (hp : (j - 1) / 2 < a.size), 0 < j → j ≠ i → (j - 1) / 2 ≠ i →
    key a[(j - 1) / 2] ≤ key a[j]
  grand : ∀ j (hj : j < a.size) (hp : (i - 1) / 2 < a.size), 0 < j → (j - 1) / 2 = i → 0 < i →
    key a[(i - 1) / 2] ≤ key a[j]

variable {key}

theorem UpReady.swap {a : Array α} {i : ℕ} (h : UpReady key a i) (hi : 0 < i)
    (hlt : i < a.size) (hp : (i - 1) / 2 < a.size) (hkey : key a[i] < key a[(i - 1) / 2]) :
    UpReady key (a.swap i ((i - 1) / 2)) ((i - 1) / 2) where
  except j hj hpj hpos hne := by
    have hja : j < a.size := by simpa using hj
    have hpa : (j - 1) / 2 < a.size := by simpa using hpj
    by_cases hji : j = i
    · subst hji
      rw [Array.getElem_swap_left, Array.getElem_swap_right]
      exact le_of_lt hkey
    · rw [Array.getElem_swap_of_ne hji hne]
      by_cases hpi : (j - 1) / 2 = i
      · simp only [hpi, Array.getElem_swap_left]
        exact h.grand j hja hp hpos hpi hi
      · have hle := h.except j hja hpa hpos hji
        by_cases hpp : (j - 1) / 2 = (i - 1) / 2
        · simp only [hpp, Array.getElem_swap_right] at hle ⊢
          exact le_trans (le_of_lt hkey) hle
        · rwa [Array.getElem_swap_of_ne hpi hpp]
  grand j hj hpj hpos hpar hppos := by
    have hja : j < a.size := by simpa using hj
    have hgi : ((i - 1) / 2 - 1) / 2 ≠ i := by omega
    have hgp : ((i - 1) / 2 - 1) / 2 ≠ (i - 1) / 2 := by omega
    have hup := h.except ((i - 1) / 2) hp (by omega) hppos (by omega)
    rw [Array.getElem_swap_of_ne hgi hgp]
    by_cases hji : j = i
    · subst hji
      rwa [Array.getElem_swap_left]
    · rw [Array.getElem_swap_of_ne hji (by omega)]
      have hle := h.except j hja (by omega) hpos hji
      simp only [hpar] at hle
      exact le_trans hup hle

theorem siftUp_ordered {a : Array α} {i : ℕ} (h : UpReady key a i) :
    Ordered key (siftUp key a i) := by
  fun_induction siftUp key a i with
  | case1 a i hb hkey ih => exact ih (h.swap hb.1 hb.2 (by omega) hkey)
  | case2 a i hb hkey =>
    intro j hj hp hpos
    by_cases hji : j = i
    · subst hji
      exact not_lt.mp hkey
    · exact h.except j hj hp hpos hji
  | case3 a i hb =>
    intro j hj hp hpos
    exact h.except j hj hp hpos (fun hji => hb ⟨hji ▸ hpos, hji ▸ hj⟩)

theorem siftUp_perm (key : α → K) (a : Array α) (i : ℕ) : (siftUp key a i).Perm a := by
  fun_induction siftUp key a i with
  | case1 a i hb hkey ih => exact ih.trans (Array.swap_perm ..)
  | case2 a i hb hkey => exact .rfl
  | case3 a i hb => exact .rfl

/-- What is sifted up stops below a root with a key that is not larger. -/
theorem siftUp_root {a : Array α} {i : ℕ} (hi : 0 < i) (hlt : i < a.size) (h0 : 0 < a.size)
    (hkey : key a[0] ≤ key a[i]) (h0' : 0 < (siftUp key a i).size) :
    (siftUp key a i)[0] = a[0] := by
  fun_induction siftUp key a i with
  | case1 a i hb hlt' ih =>
    have hp : 0 < (i - 1) / 2 := by
      by_contra hzero
      have hroot : (i - 1) / 2 = 0 := by omega
      simp only [hroot] at hlt'
      exact absurd hlt' (not_lt.mpr hkey)
    rw [ih hp (by simp; omega) (by simpa using h0) ?_ h0']
    · exact Array.getElem_swap_of_ne hi.ne hp.ne
    · rwa [Array.getElem_swap_of_ne hi.ne hp.ne, Array.getElem_swap_right]
  | case2 a i hb hlt' => rfl
  | case3 a i hb => exact absurd ⟨hi, hlt⟩ hb

theorem child_le {a : Array α} {i j : ℕ} (h : 2 * i + 1 < a.size) (hc : child key a i h < a.size)
    (hj : j < a.size) (hpos : 0 < j) (hpar : (j - 1) / 2 = i) :
    key a[child key a i h] ≤ key a[j] := by
  have hcases : j = 2 * i + 1 ∨ j = 2 * i + 2 := by omega
  unfold child
  split_ifs with hright hlt
  · rcases hcases with rfl | rfl
    · exact le_rfl
    · exact le_of_lt hlt
  · rcases hcases with rfl | rfl
    · exact not_lt.mp hlt
    · exact le_rfl
  · rcases hcases with rfl | rfl
    · exact le_rfl
    · exact absurd hj hright

theorem child_parent (key : α → K) (a : Array α) (i : ℕ) (h : 2 * i + 1 < a.size) :
    (child key a i h - 1) / 2 = i := by
  unfold child
  split_ifs <;> omega

theorem HoleReady.swap {a : Array α} {i : ℕ} (h : HoleReady key a i) (hb : 2 * i + 1 < a.size)
    (hi : i < a.size) (hc : child key a i hb < a.size) :
    HoleReady key (a.swap i (child key a i hb)) (child key a i hb) := by
  have hmin : ∀ j (hj : j < a.size), 0 < j → (j - 1) / 2 = i →
      key a[child key a i hb] ≤ key a[j] := fun j hj => child_le hb hc hj
  have hpar := child_parent key a i hb
  have hlt := lt_child key a i hb
  generalize child key a i hb = c at *
  refine ⟨fun j hj hpj hpos hne hpar' => ?_, fun j hj hpj hpos hpar' hcpos => ?_⟩
  · have hja : j < a.size := by simpa using hj
    have hpa : (j - 1) / 2 < a.size := by simpa using hpj
    by_cases hji : j = i
    · subst hji
      have hpi : (j - 1) / 2 ≠ j := by omega
      rw [Array.getElem_swap_of_ne hpi hpar', Array.getElem_swap_left]
      exact h.grand c hc hpa (Nat.zero_lt_of_lt hlt) hpar hpos
    · rw [Array.getElem_swap_of_ne hji hne]
      by_cases hpi : (j - 1) / 2 = i
      · simp only [hpi, Array.getElem_swap_left]
        exact hmin j hja hpos hpi
      · rw [Array.getElem_swap_of_ne hpi hpar']
        exact h.except j hja hpa hpos hji hpi
  · have hja : j < a.size := by simpa using hj
    have hji : j ≠ i := by omega
    have hjc : j ≠ c := by omega
    simp only [hpar, Array.getElem_swap_left]
    rw [Array.getElem_swap_of_ne hji hjc]
    have hle := h.except j hja (by omega) hpos hji (by omega)
    simpa only [hpar'] using hle

theorem HoleReady.of_leaf {a : Array α} {i : ℕ} (h : HoleReady key a i)
    (hb : ¬2 * i + 1 < a.size) : UpReady key a i where
  except j hj hp hpos hne := h.except j hj hp hpos hne (by omega)
  grand j hj hp hpos hpar := absurd hj (by omega)

theorem adjustHeap_ordered {a : Array α} {i : ℕ} (h : HoleReady key a i) :
    Ordered key (adjustHeap key a i) := by
  fun_induction adjustHeap key a i with
  | case1 a i hb hc hi ih => exact ih (h.swap hb (by omega) hc)
  | case2 a i hb => exact siftUp_ordered (h.of_leaf hb)

theorem adjustHeap_perm (key : α → K) (a : Array α) (i : ℕ) : (adjustHeap key a i).Perm a := by
  fun_induction adjustHeap key a i with
  | case1 a i hb hc hi ih => exact ih.trans (Array.swap_perm ..)
  | case2 a i hb => exact siftUp_perm key a i

theorem Ordered.root_le {a : Array α} (h : Ordered key a) (h0 : 0 < a.size) (i : ℕ)
    (hi : i < a.size) : key a[0] ≤ key a[i] := by
  induction i using Nat.strong_induction_on with
  | _ i ih =>
    by_cases hzero : i = 0
    · subst hzero
      exact le_rfl
    · have hp : (i - 1) / 2 < i := by omega
      have hpa := Nat.lt_trans hp hi
      exact le_trans (ih _ hp hpa) (h i hi hpa (Nat.pos_of_ne_zero hzero))

theorem push_ordered {a : Array α} (h : Ordered key a) (x : α) : Ordered key (push key a x) := by
  refine siftUp_ordered ⟨fun j hj hp hpos hne => ?_, fun j hj hp hpos hpar _ => ?_⟩
  · have hja : j < a.size := by
      rw [Array.size_push] at hj
      omega
    have hpa : (j - 1) / 2 < a.size := by omega
    have hle := h j hja hpa hpos
    rwa [Array.getElem_push_lt hja, Array.getElem_push_lt hpa]
  · rw [Array.size_push] at hj
    omega

theorem push_perm (key : α → K) (a : Array α) (x : α) : (push key a x).toList.Perm (x :: a.toList) := by
  have hperm := (siftUp_perm key (a.push x) a.size).toList
  rw [Array.toList_push] at hperm
  exact hperm.trans (List.perm_append_singleton x a.toList)

theorem push_root {a : Array α} {x : α} (h0 : 0 < a.size) (hkey : key a[0] ≤ key x)
    (h0' : 0 < (push key a x).size) : (push key a x)[0] = a[0] := by
  have hle : key (a.push x)[0] ≤ key (a.push x)[a.size] := by
    simpa [Array.getElem_push_lt h0] using hkey
  exact (siftUp_root h0 (by simp) (by simp) hle h0').trans (Array.getElem_push_lt h0)

theorem pop_ordered {a : Array α} (h : Ordered key a) : Ordered key (pop key a) := by
  unfold pop
  split_ifs with h0
  · refine adjustHeap_ordered ⟨fun j hj hp hpos hne hpar => ?_, fun j hj hp hpos hpar hi => ?_⟩
    · have hsize : j < a.size - 1 := by simpa using hj
      have hja : j < a.size := by omega
      have hpa : (j - 1) / 2 < a.size := by omega
      have hjlast : j ≠ a.size - 1 := by omega
      have hplast : (j - 1) / 2 ≠ a.size - 1 := by omega
      rw [Array.getElem_pop, Array.getElem_pop, Array.getElem_swap_of_ne hpar hplast,
        Array.getElem_swap_of_ne hne hjlast]
      exact h j hja hpa hpos
    · exact absurd hi (Nat.lt_irrefl 0)
  · exact h

theorem pop_perm (key : α → K) {a : Array α} (h0 : 0 < a.size) :
    (a[0] :: (pop key a).toList).Perm a.toList := by
  unfold pop
  rw [dif_pos h0]
  have hadjust := (adjustHeap_perm key (a.swap 0 (a.size - 1)).pop 0).toList
  have hne : (a.swap 0 (a.size - 1)).toList ≠ [] := by
    intro hnil
    have hlen := congrArg List.length hnil
    rw [Array.length_toList, Array.size_swap, List.length_nil] at hlen
    omega
  have hlast : (a.swap 0 (a.size - 1)).toList.getLast hne = a[0] := by
    rw [List.getLast_eq_getElem]
    simp
  have hsplit := List.dropLast_concat_getLast hne
  rw [hlast, ← Array.toList_pop] at hsplit
  have hmove := List.perm_append_singleton a[0] (a.swap 0 (a.size - 1)).pop.toList
  rw [hsplit] at hmove
  exact (hadjust.cons a[0]).trans (hmove.symm.trans (Array.swap_perm ..).toList)

end BinaryHeap
