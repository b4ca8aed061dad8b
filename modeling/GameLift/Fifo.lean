import Mathlib.Data.List.Basic

/-! A first-in first-out queue of cells, as its clients see it. The queue is
its contents, and every operation is judged by what enters and what leaves. -/

namespace Fifo

variable {α : Type*}

/-- `fill` and `drain` are the zero-copy forms: the client stores as much of
`data` as the queue offers room for, or takes at most `n` cells of the window
the queue shows it. `room`, `size` and `extent` only ask. -/
inductive Op (α : Type*) where
  | write (data : List α)
  | read (n : Nat)
  | peek (n : Nat)
  | remove (n : Nat)
  | fill (data : List α)
  | drain (n : Nat)
  | room
  | size
  | extent

inductive Result (α : Type*) where
  | flag (ok : Bool)
  | bytes (copied : Option (List α))
  | unit
  | filled (room : Nat) (stored : List α)
  | window (shown taken : List α)
  | count (n : Nat)

inductive Step : List α → Op α → Result α → List α → Prop where
  | write_true {q data} : Step q (.write data) (.flag true) (q ++ data)
  | write_false {q data} : Step q (.write data) (.flag false) q
  | read_true {q n} : n ≤ q.length → Step q (.read n) (.bytes (some (q.take n))) (q.drop n)
  | read_false {q n} : q.length < n → Step q (.read n) (.bytes none) q
  | peek_true {q n} : n ≤ q.length → Step q (.peek n) (.bytes (some (q.take n))) q
  | peek_false {q n} : q.length < n → Step q (.peek n) (.bytes none) q
  | remove {q n} : Step q (.remove n) .unit (q.drop (min n q.length))
  | fill {q data room} : Step q (.fill data) (.filled room (data.take room)) (q ++ data.take room)
  | drain {q} {n : Nat} {shown : List α} : shown <+: q → (q ≠ [] → shown ≠ []) →
      Step q (.drain n) (.window shown (shown.take n)) (q.drop (min n shown.length))
  | room {q n} : Step q .room (.count n) q
  | size {q} : Step q .size (.count q.length) q
  | extent {q n} : n ≤ q.length → (q ≠ [] → 0 < n) → Step q .extent (.count n) q

def entered : Op α → Result α → List α
  | .write data, .flag true => data
  | .fill _, .filled _ stored => stored
  | _, _ => []

def left (q : List α) : Op α → Result α → List α
  | .read _, .bytes (some copied) => copied
  | .remove n, _ => q.take (min n q.length)
  | .drain _, .window _ taken => taken
  | _, _ => []

theorem Step.conserves {q q' : List α} {op : Op α} {r : Result α} (h : Step q op r q') :
    q ++ entered op r = left q op r ++ q' := by
  cases h with
  | @drain n shown hp _ =>
    obtain ⟨rest, rfl⟩ := hp
    have ht : (shown ++ rest).take (min n shown.length) = shown.take n := by
      rw [List.take_append_of_le_length (Nat.min_le_right _ _), ← List.take_eq_take_min]
    simp only [entered, left, List.append_nil]
    rw [← ht, List.take_append_drop]
  | _ => simp [entered, left]

/-- A history of operations with their results, and all that entered and left. -/
inductive Run : List α → List (Op α × Result α) → List α → List α → List α → Prop where
  | nil {q} : Run q [] [] [] q
  | cons {q q' q'' op r history ins outs} : Step q op r q' → Run q' history ins outs q'' →
      Run q ((op, r) :: history) (entered op r ++ ins) (left q op r ++ outs) q''

theorem conserves_trans {q q' q'' ins ins' outs outs' : List α}
    (h : q ++ ins = outs ++ q') (h' : q' ++ ins' = outs' ++ q'') :
    q ++ (ins ++ ins') = (outs ++ outs') ++ q'' := by
  rw [← List.append_assoc, h, List.append_assoc, h', List.append_assoc]

/-- Nothing is lost, duplicated or reordered over a whole history. -/
theorem Run.conserves {q q' ins outs : List α} {history : List (Op α × Result α)}
    (h : Run q history ins outs q') : q ++ ins = outs ++ q' := by
  induction h with
  | nil => simp
  | cons hs _ ih => exact conserves_trans hs.conserves ih

end Fifo
