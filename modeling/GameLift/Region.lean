import Mathlib.Data.List.Basic

/-! A block of memory as a list of cells, read and written by ranges. The
lemmas say what a read sees after a write elsewhere, on top, or next to it. -/

namespace Region

variable {α : Type*}

def slice (mem : List α) (p n : Nat) : List α := (mem.drop p).take n

def store (mem : List α) (p : Nat) (data : List α) : List α :=
  mem.take p ++ data ++ mem.drop (p + data.length)

@[simp] theorem slice_zero (mem : List α) (p : Nat) : slice mem p 0 = [] := by simp [slice]

theorem length_slice {mem : List α} {p n : Nat} (h : p + n ≤ mem.length) :
    (slice mem p n).length = n := by
  simp only [slice, List.length_take, List.length_drop]
  omega

theorem slice_middle {pre mid post : List α} {p n : Nat} (hp : pre.length = p)
    (hn : mid.length = n) : slice (pre ++ (mid ++ post)) p n = mid := by
  rw [slice, ← hp, ← hn, List.drop_left, List.take_left]

theorem slice_append (mem : List α) (p m n : Nat) :
    slice mem p m ++ slice mem (p + m) n = slice mem p (m + n) := by
  simp only [slice]
  rw [← List.drop_drop, ← List.take_add]

theorem take_slice (mem : List α) (p n k : Nat) (h : k ≤ n) :
    (slice mem p n).take k = slice mem p k := by
  simp only [slice, List.take_take, Nat.min_eq_left h]

theorem drop_slice (mem : List α) (p n k : Nat) :
    (slice mem p n).drop k = slice mem (p + k) (n - k) := by
  simp only [slice, List.drop_take, List.drop_drop]

theorem getElem?_slice (mem : List α) (p n i : Nat) :
    (slice mem p n)[i]? = if i < n then mem[p + i]? else none := by
  simp only [slice, List.getElem?_take, List.getElem?_drop]

theorem length_store {mem data : List α} {p : Nat} (h : p + data.length ≤ mem.length) :
    (store mem p data).length = mem.length := by
  simp only [store, List.length_append, List.length_take, List.length_drop]
  omega

theorem getElem?_store {mem data : List α} {p : Nat} (h : p + data.length ≤ mem.length) (i : Nat) :
    (store mem p data)[i]? =
      if p ≤ i ∧ i < p + data.length then data[i - p]? else mem[i]? := by
  have hp : (mem.take p).length = p := by simp only [List.length_take]; omega
  rw [store, List.append_assoc, List.getElem?_append, List.getElem?_append, hp]
  by_cases h1 : i < p
  · rw [if_pos h1, List.getElem?_take, if_pos h1, if_neg (by omega)]
  · by_cases h2 : i - p < data.length
    · rw [if_neg h1, if_pos h2, if_pos (by omega)]
    · rw [if_neg h1, if_neg h2, if_neg (by omega), List.getElem?_drop]
      congr 1
      omega

theorem slice_store_self {mem data : List α} {p : Nat} (h : p + data.length ≤ mem.length) :
    slice (store mem p data) p data.length = data := by
  apply List.ext_getElem?
  intro i
  rw [getElem?_slice, getElem?_store h]
  by_cases hi : i < data.length
  · simp [hi]
  · simp [hi]

theorem slice_store_of_disjoint {mem data : List α} {p q n : Nat}
    (h : p + data.length ≤ mem.length) (hd : q + n ≤ p ∨ p + data.length ≤ q) :
    slice (store mem p data) q n = slice mem q n := by
  apply List.ext_getElem?
  intro i
  rw [getElem?_slice, getElem?_slice, getElem?_store h]
  by_cases hi : i < n
  · rw [if_pos hi, if_pos hi, if_neg (by omega)]
  · rw [if_neg hi, if_neg hi]

theorem slice_store_extend {mem data : List α} {p n : Nat}
    (h : p + n + data.length ≤ mem.length) :
    slice (store mem (p + n) data) p (n + data.length) = slice mem p n ++ data := by
  rw [← slice_append, slice_store_of_disjoint h (Or.inl (Nat.le_refl _)), slice_store_self h]

theorem store_slice {mem : List α} {p n : Nat} (h : p + n ≤ mem.length) :
    store mem p (slice mem p n) = mem := by
  rw [store, length_slice h, slice, List.append_assoc, ← List.drop_drop,
    List.take_append_drop, List.take_append_drop]

end Region
