import GameLift.BufferInvariant
import GameLift.Fifo

/-! The ring refines a first-in first-out queue: whatever its clients do, in
whatever order, no copy leaves the block and the regions read as the queue. -/

namespace GameLift

namespace CircularBuffer

open Fifo (Op Result)

def fill (b : CircularBuffer) (data : List Byte) :
    Except Fault (Nat × List Byte × CircularBuffer) := do
  let (room, b) := b.getFreeSpaceSize
  let len := min room data.length
  let b ← b.place data len
  return (room, data.take len, b)

/-- The `GetContiguiousBytes()` bytes at `GetBufferStart()`. -/
def window (b : CircularBuffer) : Except Fault (List Byte) :=
  if 0 < b.getContiguiousBytes then b.loadAt b.getBufferStart b.getContiguiousBytes
  else return []

/-- Look at the contiguous window, take at most `n` of its bytes, `Remove` as many. -/
def drain (b : CircularBuffer) (n : Nat) :
    Except Fault (List Byte × List Byte × CircularBuffer) := do
  let shown ← b.window
  let b ← b.remove (min n shown.length)
  return (shown, shown.take n, b)

def perform (b : CircularBuffer) : Op Byte → Except Fault (Result Byte × CircularBuffer)
  | .write data => do
    let (ok, b) ← b.write data data.length
    return (.flag ok, b)
  | .read n => do
    let (copied, b) ← b.read n
    return (.bytes copied, b)
  | .peek n => do
    let copied ← b.peek n
    return (.bytes copied, b)
  | .remove n => do
    let b ← b.remove n
    return (.unit, b)
  | .fill data => do
    let (room, stored, b) ← b.fill data
    return (.filled room stored, b)
  | .drain n => do
    let (shown, taken, b) ← b.drain n
    return (.window shown taken, b)
  | .room => return (.count b.getFreeSpaceSize.1, b.getFreeSpaceSize.2)
  | .size => return (.count b.getStoredSize, b)
  | .extent => return (.count b.getContiguiousBytes, b)

def performAll (b : CircularBuffer) :
    List (Op Byte) → Except Fault (List (Result Byte) × CircularBuffer)
  | [] => return ([], b)
  | op :: ops => do
    let (r, b) ← b.perform op
    let (rs, b) ← b.performAll ops
    return (r :: rs, b)

theorem Inv.fill_eq {b : CircularBuffer} (h : b.Inv) (data : List Byte) :
    ∃ b', b.fill data = .ok (b.freeSpace, data.take b.freeSpace, b') ∧
      b.Appended (data.take b.freeSpace) b' := by
  have hlen : min b.freeSpace data.length ≤ data.length := Nat.min_le_right _ _
  obtain ⟨b', hb, ha⟩ := h.place_prepare hlen (Nat.min_le_left _ _)
  rw [← List.take_eq_take_min] at ha
  refine ⟨b', ?_, ha⟩
  have hfill : b.fill data = (do
      let b' ← b.prepare.place data (min b.freeSpace data.length)
      return (b.freeSpace, data.take (min b.freeSpace data.length), b')) := rfl
  rw [hfill, hb, ← List.take_eq_take_min]
  rfl

theorem Inv.extent {b : CircularBuffer} (h : b.Inv) :
    b.getContiguiousBytes = b.mARegionSize ∧ b.getContiguiousBytes ≤ b.contents.length ∧
      (b.contents ≠ [] → 0 < b.getContiguiousBytes) := by
  have hlen := h.length_contents
  have hc : b.getContiguiousBytes = b.mARegionSize := by
    rw [getContiguiousBytes]
    split_ifs with hpos
    · rfl
    · have := h.b_absent (h.a_empty (by omega)).2
      omega
  refine ⟨hc, by omega, fun hne => ?_⟩
  have hpos := List.length_pos_iff.mpr hne
  rcases h.cases with ⟨-, hs⟩ | ⟨-, ha, -⟩ <;> omega

theorem Inv.getBufferStart_eq {b : CircularBuffer} (h : b.Inv)
    (hpos : 0 < b.getContiguiousBytes) : b.getBufferStart = some b.mARegionPointer := by
  have hc := h.extent.1
  rw [getBufferStart, if_pos (by omega)]

theorem Inv.window_eq {b : CircularBuffer} (h : b.Inv) :
    b.window = .ok (b.contents.take b.getContiguiousBytes) := by
  have hend := h.a_le
  have hc := h.extent.1
  rw [window]
  split_ifs with hpos
  · rw [h.getBufferStart_eq hpos, loadAt, load, if_pos (by omega), contents, hc,
      List.take_append_of_le_length (Nat.le_of_eq (Region.length_slice hend).symm),
      Region.take_slice _ _ _ _ (Nat.le_refl _)]
  · rw [show b.getContiguiousBytes = 0 by omega]
    rfl

theorem Inv.drain_eq {b : CircularBuffer} (h : b.Inv) (n : Nat) :
    ∃ b', b.drain n = .ok (b.contents.take b.getContiguiousBytes,
        (b.contents.take b.getContiguiousBytes).take n, b') ∧
      b.Dropped (min n b.getContiguiousBytes) b' := by
  have hle := h.extent.2.1
  have hl : (b.contents.take b.getContiguiousBytes).length = b.getContiguiousBytes := by
    rw [List.length_take, Nat.min_eq_left hle]
  obtain ⟨b', hb, hd⟩ := h.remove_eq (min n b.getContiguiousBytes)
  rw [Nat.min_eq_left (by omega)] at hd
  refine ⟨b', ?_, hd⟩
  rw [drain, h.window_eq]
  simp only [ok_bind, hl, hb, pure_eq_ok]

theorem Inv.perform_step {b : CircularBuffer} (h : b.Inv) (op : Op Byte) :
    ∃ r b', b.perform op = .ok (r, b') ∧ b'.Inv ∧ b'.mBuffer.length = b.mBuffer.length ∧
      Fifo.Step b.contents op r b'.contents := by
  cases op with
  | write data =>
    by_cases hf : b.freeSpace < data.length
    · have hp := h.appended_prepare
      refine ⟨.flag false, b.prepare, ?_, hp.inv, hp.length_eq, ?_⟩
      · simp only [perform, h.write_refused data hf, ok_bind, pure_eq_ok]
      · rw [hp.contents_eq, List.append_nil]
        exact .write_false
    · obtain ⟨b', hb, ha⟩ := h.write_accepted (Nat.le_refl data.length) (Nat.le_of_not_lt hf)
      refine ⟨.flag true, b', by simp only [perform, hb, ok_bind, pure_eq_ok], ha.inv,
        ha.length_eq, ?_⟩
      rw [ha.contents_eq, List.take_length]
      exact .write_true
  | read n =>
    by_cases hn : n ≤ b.contents.length
    · obtain ⟨b', hb, hd⟩ := h.read_enough hn
      refine ⟨.bytes (some (b.contents.take n)), b', by simp only [perform, hb, ok_bind, pure_eq_ok],
        hd.inv, hd.length_eq, ?_⟩
      rw [hd.contents_eq]
      exact .read_true hn
    · exact ⟨.bytes none, b, by simp only [perform, h.read_short (Nat.lt_of_not_le hn), ok_bind,
        pure_eq_ok], h, rfl, .read_false (Nat.lt_of_not_le hn)⟩
  | peek n =>
    by_cases hn : n ≤ b.contents.length
    · exact ⟨.bytes (some (b.contents.take n)), b, by simp only [perform, h.peek_eq, if_pos hn,
        ok_bind, pure_eq_ok], h, rfl, .peek_true hn⟩
    · exact ⟨.bytes none, b, by simp only [perform, h.peek_eq, if_neg hn, ok_bind, pure_eq_ok],
        h, rfl, .peek_false (Nat.lt_of_not_le hn)⟩
  | remove n =>
    obtain ⟨b', hb, hd⟩ := h.remove_eq n
    refine ⟨.unit, b', by simp only [perform, hb, ok_bind, pure_eq_ok], hd.inv, hd.length_eq, ?_⟩
    rw [hd.contents_eq]
    exact .remove
  | fill data =>
    obtain ⟨b', hb, ha⟩ := h.fill_eq data
    refine ⟨.filled b.freeSpace (data.take b.freeSpace), b', by simp only [perform, hb, ok_bind,
      pure_eq_ok], ha.inv, ha.length_eq, ?_⟩
    rw [ha.contents_eq]
    exact .fill
  | drain n =>
    obtain ⟨b', hb, hd⟩ := h.drain_eq n
    obtain ⟨-, hle, hne⟩ := h.extent
    refine ⟨.window (b.contents.take b.getContiguiousBytes)
      ((b.contents.take b.getContiguiousBytes).take n), b', by simp only [perform, hb, ok_bind,
      pure_eq_ok], hd.inv, hd.length_eq, ?_⟩
    have hl : (b.contents.take b.getContiguiousBytes).length = b.getContiguiousBytes := by
      rw [List.length_take, Nat.min_eq_left hle]
    rw [hd.contents_eq, ← congrArg (min n) hl]
    refine .drain (List.take_prefix _ _) fun hq he => ?_
    have hpos := hne hq
    rw [he] at hl
    exact absurd hl (by simp only [List.length_nil]; omega)
  | room =>
    have hp := h.appended_prepare
    refine ⟨.count b.freeSpace, b.prepare, rfl, hp.inv, hp.length_eq, ?_⟩
    rw [hp.contents_eq, List.append_nil]
    exact .room
  | size =>
    refine ⟨.count b.getStoredSize, b, rfl, h, rfl, ?_⟩
    rw [h.getStoredSize_eq_length]
    exact .size
  | extent => exact ⟨.count b.getContiguiousBytes, b, rfl, h, rfl, .extent h.extent.2.1 h.extent.2.2⟩

theorem Inv.performAll_run {b : CircularBuffer} (h : b.Inv) (ops : List (Op Byte)) :
    ∃ rs b' ins outs, b.performAll ops = .ok (rs, b') ∧ rs.length = ops.length ∧ b'.Inv ∧
      b'.mBuffer.length = b.mBuffer.length ∧
      Fifo.Run b.contents (ops.zip rs) ins outs b'.contents := by
  induction ops generalizing b with
  | nil => exact ⟨[], b, [], [], rfl, rfl, h, rfl, .nil⟩
  | cons op ops ih =>
    obtain ⟨r, b₁, hb₁, hi, hl, hstep⟩ := h.perform_step op
    obtain ⟨rs, b₂, ins, outs, hb₂, hrs, hi₂, hl₂, hrun⟩ := ih hi
    refine ⟨r :: rs, b₂, _, _, ?_, by simp [hrs], hi₂, hl₂.trans hl, .cons hstep hrun⟩
    simp only [performAll, hb₁, ok_bind, hb₂, pure_eq_ok]

/-- From a fresh buffer every history of operations runs, is a history of the
queue, and puts out exactly a prefix of what it took in; the rest is stored. -/
theorem refines_fifo (block : Block) (ops : List (Op Byte)) :
    ∃ rs b ins outs, (new block).performAll ops = .ok (rs, b) ∧ rs.length = ops.length ∧
      Fifo.Run [] (ops.zip rs) ins outs b.contents ∧ ins = outs ++ b.contents ∧
      b.getStoredSize = b.contents.length := by
  obtain ⟨rs, b, ins, outs, hb, hrs, hi, -, hrun⟩ := (inv_new block).performAll_run ops
  have hnew : (new block).contents = [] := by simp [contents, new]
  rw [hnew] at hrun
  exact ⟨rs, b, ins, outs, hb, hrs, hrun, by simpa using hrun.conserves,
    hi.getStoredSize_eq_length⟩

def ExactDifferences (b : CircularBuffer) : Prop :=
  (b.getAFreeSpace : Int) = b.mBufferEnd - b.mARegionPointer - b.mARegionSize ∧
  (b.getSpaceBeforeA : Int) = b.mARegionPointer - 0 ∧
  ∀ p, b.mBRegionPointer = some p →
    (b.getBFreeSpace : Int) = b.mARegionPointer - p - b.mBRegionSize

theorem Inv.exactDifferences {b : CircularBuffer} (h : b.Inv) : b.ExactDifferences := by
  have ha := h.a_le
  refine ⟨?_, ?_, fun p hp => ?_⟩
  · rw [h.getAFreeSpace_eq, mBufferEnd]
    omega
  · rw [h.getSpaceBeforeA_eq]
    omega
  · obtain ⟨rfl, hs, -⟩ := h.b_start p hp
    rw [h.getBFreeSpace_eq hp]
    omega

theorem Inv.perform_keeps {b : CircularBuffer} (h : b.Inv) (data : List Byte) {op : Op Byte}
    (hop : op = .write data ∨ op = .fill data) {r : Result Byte} {b' : CircularBuffer}
    (hb : b.perform op = .ok (r, b')) (i : Nat) (hi : b.Stored i) :
    b'.mBuffer[i]? = b.mBuffer[i]? := by
  have hkept : ∃ xs, b.Appended xs b' := by
    rcases hop with rfl | rfl
    · by_cases hf : b.freeSpace < data.length
      · simp only [perform, h.write_refused data hf, ok_bind, pure_eq_ok, Except.ok.injEq,
          Prod.mk.injEq] at hb
        exact ⟨[], hb.2 ▸ h.appended_prepare⟩
      · obtain ⟨c, hc, ha⟩ := h.write_accepted (Nat.le_refl data.length) (Nat.le_of_not_lt hf)
        simp only [perform, hc, ok_bind, pure_eq_ok, Except.ok.injEq, Prod.mk.injEq] at hb
        exact ⟨_, hb.2 ▸ ha⟩
    · obtain ⟨c, hc, ha⟩ := h.fill_eq data
      simp only [perform, hc, ok_bind, pure_eq_ok, Except.ok.injEq, Prod.mk.injEq] at hb
      exact ⟨_, hb.2 ▸ ha⟩
  obtain ⟨xs, ha⟩ := hkept
  exact (ha.kept i hi).1

/-- In every state a history reaches, the regions lie in the block in this
order, no size difference wraps, and neither a write nor a fill touches a
stored byte. A copy outside the block or a failed assertion would be an error. -/
theorem reached_wellFormed (block : Block) (ops : List (Op Byte)) :
    ∃ rs b, (new block).performAll ops = .ok (rs, b) ∧ b.mBufferEnd = block.cells.length ∧
      b.mARegionPointer + b.mARegionSize ≤ b.mBufferEnd ∧
      ((b.mBRegionPointer = none ∧ b.mBRegionSize = 0) ∨
        (b.mBRegionPointer = some 0 ∧ 0 + b.mBRegionSize ≤ b.mARegionPointer)) ∧
      (b.mARegionSize = 0 → b.mARegionPointer = 0 ∧ b.mBRegionPointer = none) ∧
      b.ExactDifferences ∧ b.getFreeSpaceSize.2.ExactDifferences ∧
      (∀ data op r b', op = .write data ∨ op = .fill data → b.perform op = .ok (r, b') →
        ∀ i, b.Stored i → b'.mBuffer[i]? = b.mBuffer[i]?) := by
  obtain ⟨rs, b, ins, outs, hb, -, hi, hl, -⟩ := (inv_new block).performAll_run ops
  refine ⟨rs, b, hb, hl, hi.a_le, ?_, hi.a_empty, hi.exactDifferences,
    hi.appended_prepare.inv.exactDifferences, ?_⟩
  · rcases hi.cases with h | ⟨hp, -, hs, -⟩
    · exact Or.inl h
    · exact Or.inr ⟨hp, by omega⟩
  · intro data op r b' hop hperf i hs
    exact hi.perform_keeps data hop hperf i hs

end CircularBuffer

end GameLift
