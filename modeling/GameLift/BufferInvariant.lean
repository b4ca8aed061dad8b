import Mathlib.Tactic.ByContra
import Mathlib.Tactic.SplitIfs
import GameLift.CircularBuffer

/-! The representation invariant of the ring, and what it makes of every
operation: the size differences are exact, the copies stay inside the block,
and the contents change as those of a queue. -/

namespace GameLift

theorem sizeT_of_lt {z : Int} (h0 : 0 ≤ z) (h1 : z < 0x10000000000000000) : sizeT z = z.toNat := by
  rw [sizeT, Int.emod_eq_of_lt h0 h1]

theorem sizeT_natCast {n : Nat} (h : n < 0x10000000000000000) : sizeT n = n := by
  rw [sizeT_of_lt (by omega) (by omega), Int.toNat_natCast]

theorem ok_bind {α β : Type} (a : α) (f : α → Except Fault β) : (Except.ok a >>= f) = f a := rfl

theorem pure_eq_ok {α : Type} (a : α) : (pure a : Except Fault α) = .ok a := rfl

namespace CircularBuffer

/-- Region B, when there is one, starts at the block and ends before A; it was
opened because A had less room behind than in front, and A never moves back. -/
structure Inv (b : CircularBuffer) : Prop where
  size_lt : b.mBuffer.length < 0x10000000000000000
  a_le : b.mARegionPointer + b.mARegionSize ≤ b.mBuffer.length
  b_absent : b.mBRegionPointer = none → b.mBRegionSize = 0
  b_start : ∀ p, b.mBRegionPointer = some p →
    p = 0 ∧ b.mBRegionSize ≤ b.mARegionPointer ∧
      b.mBuffer.length - (b.mARegionPointer + b.mARegionSize) < b.mARegionPointer
  a_empty : b.mARegionSize = 0 → b.mARegionPointer = 0 ∧ b.mBRegionPointer = none

theorem inv_new (block : Block) : (new block).Inv where
  size_lt := block.size_lt
  a_le := by simp [new]
  b_absent := fun _ => rfl
  b_start := by simp [new]
  a_empty := fun _ => ⟨rfl, rfl⟩

@[simp] theorem contents_new (block : Block) : (new block).contents = [] := by
  simp [contents, new]

theorem Inv.cases {b : CircularBuffer} (h : b.Inv) :
    (b.mBRegionPointer = none ∧ b.mBRegionSize = 0) ∨
    (b.mBRegionPointer = some 0 ∧ 0 < b.mARegionSize ∧ b.mBRegionSize ≤ b.mARegionPointer ∧
      b.mBuffer.length - (b.mARegionPointer + b.mARegionSize) < b.mARegionPointer) := by
  cases hp : b.mBRegionPointer with
  | none => exact Or.inl ⟨rfl, h.b_absent hp⟩
  | some p =>
    obtain ⟨rfl, hs, hg⟩ := h.b_start p hp
    refine Or.inr ⟨rfl, ?_, hs, hg⟩
    by_contra hz
    have := (h.a_empty (by omega)).2
    simp [hp] at this

theorem Inv.stored_le {b : CircularBuffer} (h : b.Inv) :
    b.mARegionSize + b.mBRegionSize ≤ b.mBuffer.length := by
  have ha := h.a_le
  rcases h.cases with ⟨-, hs⟩ | ⟨-, -, hs, -⟩ <;> omega

theorem Inv.getStoredSize_eq {b : CircularBuffer} (h : b.Inv) :
    b.getStoredSize = b.mARegionSize + b.mBRegionSize := by
  have hs := h.stored_le
  have hl := h.size_lt
  rw [getStoredSize, ← Int.natCast_add]
  exact sizeT_natCast (by omega)

theorem Inv.getAFreeSpace_eq {b : CircularBuffer} (h : b.Inv) :
    b.getAFreeSpace = b.mBuffer.length - (b.mARegionPointer + b.mARegionSize) := by
  have ha := h.a_le
  have hl := h.size_lt
  rw [getAFreeSpace, mBufferEnd, sizeT_of_lt (by omega) (by omega)]
  omega

theorem Inv.getSpaceBeforeA_eq {b : CircularBuffer} (h : b.Inv) :
    b.getSpaceBeforeA = b.mARegionPointer := by
  have ha := h.a_le
  have hl := h.size_lt
  rw [getSpaceBeforeA, sizeT_of_lt (by omega) (by omega)]
  omega

theorem Inv.getBFreeSpace_eq {b : CircularBuffer} (h : b.Inv) (hp : b.mBRegionPointer = some 0) :
    b.getBFreeSpace = b.mARegionPointer - b.mBRegionSize := by
  have ha := h.a_le
  have hl := h.size_lt
  have hs := (h.b_start 0 hp).2.1
  simp only [getBFreeSpace, hp]
  rw [sizeT_of_lt (by omega) (by omega)]
  omega

theorem Inv.length_contents {b : CircularBuffer} (h : b.Inv) :
    b.contents.length = b.mARegionSize + b.mBRegionSize := by
  have ha := h.a_le
  rcases h.cases with ⟨hp, hs⟩ | ⟨hp, -, hs, -⟩
  · simp [contents, hp, hs, Region.length_slice ha]
  · simp [contents, hp, Region.length_slice ha,
      Region.length_slice (show 0 + b.mBRegionSize ≤ b.mBuffer.length by omega)]

theorem Inv.getStoredSize_eq_length {b : CircularBuffer} (h : b.Inv) :
    b.getStoredSize = b.contents.length := by rw [h.getStoredSize_eq, h.length_contents]

def prepare (b : CircularBuffer) : CircularBuffer := b.getFreeSpaceSize.2

def freeSpace (b : CircularBuffer) : Nat := b.getFreeSpaceSize.1

/-- `GetFreeSpaceSize` has been called, and calling it again changes nothing. -/
theorem getFreeSpaceSize_prepare (b : CircularBuffer) :
    b.prepare.getFreeSpaceSize = b.getFreeSpaceSize := by
  by_cases hp : b.mBRegionPointer.isSome
  · have he : b.prepare = b := by rw [prepare, getFreeSpaceSize, if_pos hp]
    rw [he]
  · by_cases hlt : b.getAFreeSpace < b.getSpaceBeforeA
    · have he : b.prepare = b.allocateB := by
        rw [prepare, getFreeSpaceSize, if_neg hp, if_pos hlt]
      rw [he]
      simp [getFreeSpaceSize, allocateB, hp, hlt]
    · have he : b.prepare = b := by rw [prepare, getFreeSpaceSize, if_neg hp, if_neg hlt]
      rw [he]

theorem Inv.inv_allocateB {b : CircularBuffer} (h : b.Inv) (hp : b.mBRegionPointer = none)
    (hlt : b.mBuffer.length - (b.mARegionPointer + b.mARegionSize) < b.mARegionPointer) :
    b.allocateB.Inv where
  size_lt := h.size_lt
  a_le := h.a_le
  b_absent := by simp [allocateB]
  b_start := by
    intro p hb
    simp only [allocateB, Option.some.injEq] at hb
    have hs := h.b_absent hp
    simp only [allocateB]
    omega
  a_empty := by
    intro hz
    have := (h.a_empty hz).1
    omega

theorem Inv.prepare_cases {b : CircularBuffer} (h : b.Inv) :
    (b.prepare = b ∧ b.mBRegionPointer = some 0 ∧
      b.freeSpace = b.mARegionPointer - b.mBRegionSize) ∨
    (b.prepare = b.allocateB ∧ b.mBRegionPointer = none ∧ b.allocateB.Inv ∧
      b.mBRegionSize = 0 ∧ b.freeSpace = b.mARegionPointer) ∨
    (b.prepare = b ∧ b.mBRegionPointer = none ∧ b.mBRegionSize = 0 ∧
      b.mARegionPointer ≤ b.mBuffer.length - (b.mARegionPointer + b.mARegionSize) ∧
      b.freeSpace = b.mBuffer.length - (b.mARegionPointer + b.mARegionSize)) := by
  rcases h.cases with ⟨hp, hs⟩ | ⟨hp, -, hs, hg⟩
  · by_cases hlt : b.getAFreeSpace < b.getSpaceBeforeA
    · have hi := h.inv_allocateB hp (by rwa [h.getAFreeSpace_eq, h.getSpaceBeforeA_eq] at hlt)
      have hf : b.allocateB.getBFreeSpace = b.mARegionPointer := by
        rw [hi.getBFreeSpace_eq rfl]
        simp [allocateB, hs]
      exact Or.inr (Or.inl ⟨by simp [prepare, getFreeSpaceSize, hp, hlt], hp, hi, hs,
        by simp [freeSpace, getFreeSpaceSize, hp, hlt, hf]⟩)
    · refine Or.inr (Or.inr ⟨by simp [prepare, getFreeSpaceSize, hp, hlt], hp, hs, ?_, ?_⟩)
      · rw [h.getAFreeSpace_eq, h.getSpaceBeforeA_eq] at hlt
        omega
      · rw [freeSpace, getFreeSpaceSize, hp, if_neg (by simp), if_neg hlt, h.getAFreeSpace_eq]
  · refine Or.inl ⟨by simp [prepare, getFreeSpaceSize, hp], hp, ?_⟩
    simp [freeSpace, getFreeSpaceSize, hp, h.getBFreeSpace_eq hp]

theorem Inv.length_le_freeSpace {b : CircularBuffer} (h : b.Inv) :
    b.mBuffer.length ≤ 2 * (b.freeSpace + b.contents.length) := by
  have hlen := h.length_contents
  have hend := h.a_le
  rcases h.prepare_cases with ⟨-, hp, hf⟩ | ⟨-, -, hi, -, hf⟩ | ⟨-, -, -, hge, hf⟩
  · obtain ⟨-, hle, hgain⟩ := h.b_start 0 hp
    omega
  · have hgain := (hi.b_start 0 rfl).2.2
    simp only [allocateB] at hgain
    omega
  · omega

theorem Inv.room_at_start {b : CircularBuffer} (h : b.Inv)
    (h0 : b.mARegionPointer = 0) : b.freeSpace + b.contents.length = b.mBuffer.length := by
  have ha := h.a_le
  rcases h.cases with ⟨hp, hs⟩ | ⟨-, -, -, hlt⟩
  · have hfree : b.freeSpace = b.getAFreeSpace := by
      rw [freeSpace, getFreeSpaceSize, h.getSpaceBeforeA_eq, h0]
      simp [hp]
    rw [hfree, h.getAFreeSpace_eq, h.length_contents]
    omega
  · omega

theorem Inv.freeSpace_le {b : CircularBuffer} (h : b.Inv) : b.freeSpace ≤ b.mBuffer.length := by
  have hend := h.a_le
  rcases h.prepare_cases with ⟨-, -, hf⟩ | ⟨-, -, -, -, hf⟩ | ⟨-, -, -, -, hf⟩ <;> omega

def Stored (b : CircularBuffer) (i : Nat) : Prop :=
  (b.mARegionPointer ≤ i ∧ i < b.mARegionPointer + b.mARegionSize) ∨
    ∃ p, b.mBRegionPointer = some p ∧ p ≤ i ∧ i < p + b.mBRegionSize

/-- The room that `GetFreeSpaceSize` reports behind `GetBuffer()` lies in the block. -/
theorem Inv.window_inside {b : CircularBuffer} (h : b.Inv) :
    b.prepare.getBuffer + b.freeSpace ≤ b.mBuffer.length := by
  have hend := h.a_le
  rcases h.prepare_cases with ⟨he, hp, hf⟩ | ⟨he, hp, hi, hs, hf⟩ | ⟨he, hp, -, -, hf⟩ <;>
    rw [he, hf, getBuffer]
  · have hb := (h.b_start 0 hp).2.1
    simp only [hp]
    omega
  · simp only [allocateB, hs]
    omega
  · simp only [hp]
    omega

theorem Inv.window_unused {b : CircularBuffer} (h : b.Inv) {i : Nat}
    (hle : b.prepare.getBuffer ≤ i) (hlt : i < b.prepare.getBuffer + b.freeSpace) :
    ¬ b.Stored i := by
  rintro (hi | ⟨p, hbp, hi⟩)
  · rcases h.prepare_cases with ⟨he, hp, hf⟩ | ⟨he, hp, -, hs, hf⟩ | ⟨he, hp, -, -, hf⟩ <;>
      rw [he, getBuffer] at hle hlt
    · have hb := (h.b_start 0 hp).2.1
      simp only [hp] at hle hlt
      omega
    · simp only [allocateB, hs] at hle hlt
      omega
    · simp only [hp] at hle hlt
      omega
  · rcases h.prepare_cases with ⟨he, hp, -⟩ | ⟨-, hp, -⟩ | ⟨-, hp, -⟩
    · rw [he, getBuffer] at hle
      obtain rfl : 0 = p := Option.some.inj (hp.symm.trans hbp)
      simp only [hp] at hle
      omega
    · rw [hp] at hbp
      cases hbp
    · rw [hp] at hbp
      cases hbp

/-- `b'` holds `data` behind what `b` held, in cells `b` did not use. -/
structure Appended (b : CircularBuffer) (data : List Byte) (b' : CircularBuffer) : Prop where
  inv : b'.Inv
  contents_eq : b'.contents = b.contents ++ data
  length_eq : b'.mBuffer.length = b.mBuffer.length
  kept : ∀ i, b.Stored i → b'.mBuffer[i]? = b.mBuffer[i]? ∧ b'.Stored i
  front : b'.mARegionPointer = b.mARegionPointer ∧ b.mARegionSize ≤ b'.mARegionSize

def place (b : CircularBuffer) (data : List Byte) (n : Nat) : Except Fault CircularBuffer := do
  let b ← b.storeAt b.getBuffer data n
  return b.commit n

theorem Inv.place_b {b : CircularBuffer} (h : b.Inv) {data : List Byte} {n : Nat}
    (hp : b.mBRegionPointer = some 0) (hd : n ≤ data.length)
    (hn : n ≤ b.mARegionPointer - b.mBRegionSize) :
    ∃ b', b.place data n = .ok b' ∧ b.Appended (data.take n) b' := by
  have ha := h.a_le
  obtain ⟨-, hs, hg⟩ := h.b_start 0 hp
  have hl : (data.take n).length = n := by simp [hd]
  have hfit : 0 + b.mBRegionSize + (data.take n).length ≤ b.mBuffer.length := by omega
  have hlen := Region.length_store hfit
  refine ⟨{ b with
    mBuffer := Region.store b.mBuffer (0 + b.mBRegionSize) (data.take n)
    mBRegionSize := b.mBRegionSize + n }, ?_, ?_, ?_, hlen, ?_, rfl, Nat.le_refl _⟩
  · simp only [place, getBuffer, hp, storeAt, if_pos (And.intro hd (hl ▸ hfit)), ok_bind, commit,
      Option.isSome_some, if_true, pure_eq_ok]
  · exact ⟨hlen ▸ h.size_lt, hlen ▸ ha, by simp [hp], by simp only [hp, hlen]; grind, h.a_empty⟩
  · have hext := Region.slice_store_extend hfit
    rw [hl] at hext
    simp only [contents, hp, hext, List.append_assoc]
    rw [Region.slice_store_of_disjoint hfit (Or.inr (by omega))]
  · rintro i (hi | ⟨p, hbp, hi⟩)
    · refine ⟨?_, Or.inl hi⟩
      rw [Region.getElem?_store hfit, if_neg (by omega)]
    · obtain rfl : 0 = p := Option.some.inj (hp.symm.trans hbp)
      refine ⟨?_, Or.inr ⟨0, hp, by simp only; omega⟩⟩
      rw [Region.getElem?_store hfit, if_neg (by omega)]

theorem Inv.place_a {b : CircularBuffer} (h : b.Inv) {data : List Byte} {n : Nat}
    (hp : b.mBRegionPointer = none) (hd : n ≤ data.length)
    (hn : n ≤ b.mBuffer.length - (b.mARegionPointer + b.mARegionSize)) :
    ∃ b', b.place data n = .ok b' ∧ b.Appended (data.take n) b' := by
  have ha := h.a_le
  have hs := h.b_absent hp
  have hl : (data.take n).length = n := by simp [hd]
  have hfit : b.mARegionPointer + b.mARegionSize + (data.take n).length ≤ b.mBuffer.length := by
    omega
  have hlen := Region.length_store hfit
  refine ⟨{ b with
    mBuffer := Region.store b.mBuffer (b.mARegionPointer + b.mARegionSize) (data.take n)
    mARegionSize := b.mARegionSize + n }, ?_, ?_, ?_, hlen, ?_, rfl, Nat.le_add_right ..⟩
  · simp only [place, getBuffer, hp, storeAt, if_pos (And.intro hd (hl ▸ hfit)), ok_bind, commit,
      Option.isSome_none, Bool.false_eq_true, if_false, pure_eq_ok]
  · refine ⟨hlen ▸ h.size_lt, ?_, fun _ => hs, by simp [hp], ?_⟩
    · simp only [hlen]
      omega
    · intro hz
      exact h.a_empty (by simp only at hz; omega)
  · have hext := Region.slice_store_extend hfit
    rw [hl] at hext
    simp [contents, hp, hext]
  · rintro i (hi | ⟨p, hbp, -⟩)
    · refine ⟨?_, Or.inl (by simp only; omega)⟩
      rw [Region.getElem?_store hfit, if_neg (by omega)]
    · simp [hp] at hbp

theorem Inv.place_prepare {b : CircularBuffer} (h : b.Inv) {data : List Byte} {n : Nat}
    (hd : n ≤ data.length) (hn : n ≤ b.freeSpace) :
    ∃ b', b.prepare.place data n = .ok b' ∧ b.Appended (data.take n) b' := by
  rcases h.prepare_cases with ⟨he, hp, hf⟩ | ⟨he, hp, hi, hs, hf⟩ | ⟨he, hp, -, -, hf⟩
  · rw [he]
    exact h.place_b hp hd (hf ▸ hn)
  · obtain ⟨b', hb, ha⟩ := hi.place_b (n := n) rfl hd (by simp only [allocateB, hs]; omega)
    refine ⟨b', he ▸ hb, ha.inv, ?_, ha.length_eq, ?_, ha.front⟩
    · rw [ha.contents_eq]
      simp [contents, allocateB, hp, hs]
    · rintro i (hi | ⟨p, hbp, -⟩)
      · exact ha.kept i (Or.inl hi)
      · simp [hp] at hbp
  · rw [he]
    exact h.place_a hp hd (hf ▸ hn)

theorem Inv.write_eq {b : CircularBuffer} (h : b.Inv) (data : List Byte) (bytes : Nat) :
    b.write data bytes =
      if b.freeSpace < bytes then .ok (false, b.prepare)
      else (b.prepare.place data bytes).map (Prod.mk true) := by
  have happB : ∀ c : CircularBuffer, c.mBRegionPointer = some 0 → c.appendB data bytes =
      if c.getBFreeSpace < bytes then .ok (false, c)
      else (c.place data bytes).map (Prod.mk true) := by
    intro c hc
    unfold appendB place
    simp only [hc, getBuffer, pure_eq_ok]
    cases hs : c.storeAt (0 + c.mBRegionSize) data bytes with
    | error f => rfl
    | ok c' =>
      have hc' : c'.mBRegionPointer = some 0 := by
        rw [storeAt] at hs
        split at hs
        · exact (Except.ok.inj hs) ▸ hc
        · cases hs
      simp [ok_bind, commit, hc', Except.map]
  rcases h.prepare_cases with ⟨he, hp, hf⟩ | ⟨he, hp, hi, hs, hf⟩ | ⟨he, hp, -, hg, hf⟩
  · rw [write, if_pos (by simp [hp]), happB b hp, he, hf, h.getBFreeSpace_eq hp]
  · have hlt : b.getAFreeSpace < b.getSpaceBeforeA := by
      have := (hi.b_start 0 rfl).2.2
      rwa [h.getAFreeSpace_eq, h.getSpaceBeforeA_eq]
    rw [write, if_neg (by simp [hp]), if_pos hlt, happB _ rfl, he, hf, hi.getBFreeSpace_eq rfl]
    simp [allocateB, hs]
  · have hlt : ¬ b.getAFreeSpace < b.getSpaceBeforeA := by
      rw [h.getAFreeSpace_eq, h.getSpaceBeforeA_eq]
      omega
    rw [write, if_neg (by simp [hp]), if_neg hlt, appendA, he, hf, h.getAFreeSpace_eq]
    rw [place]
    simp only [hp, getBuffer, pure_eq_ok]
    cases hs : b.storeAt (b.mARegionPointer + b.mARegionSize) data bytes with
    | error f => rfl
    | ok c =>
      have hc : c.mBRegionPointer = none := by
        rw [storeAt] at hs
        split at hs
        · exact (Except.ok.inj hs) ▸ hp
        · cases hs
      simp [ok_bind, commit, hc, Except.map]

theorem Inv.appended_prepare {b : CircularBuffer} (h : b.Inv) : b.Appended [] b.prepare := by
  have hsame : b.Appended [] b := ⟨h, by simp, rfl, fun _ hs => ⟨rfl, hs⟩, rfl, Nat.le_refl _⟩
  rcases h.prepare_cases with ⟨he, -, -⟩ | ⟨he, hp, hi, hs, -⟩ | ⟨he, -, -⟩
  · rwa [he]
  · rw [he]
    refine ⟨hi, by simp [contents, allocateB, hp, hs], rfl, ?_, rfl, Nat.le_refl _⟩
    rintro i (hi | ⟨p, hbp, -⟩)
    · exact ⟨rfl, Or.inl hi⟩
    · simp [hp] at hbp
  · rwa [he]

theorem Inv.write_refused {b : CircularBuffer} (h : b.Inv) (data : List Byte) {bytes : Nat}
    (hlt : b.freeSpace < bytes) : b.write data bytes = .ok (false, b.prepare) := by
  rw [h.write_eq, if_pos hlt]

theorem Inv.write_accepted {b : CircularBuffer} (h : b.Inv) {data : List Byte} {bytes : Nat}
    (hd : bytes ≤ data.length) (hle : bytes ≤ b.freeSpace) :
    ∃ b', b.write data bytes = .ok (true, b') ∧ b.Appended (data.take bytes) b' := by
  obtain ⟨b', hb, ha⟩ := h.place_prepare hd hle
  refine ⟨b', ?_, ha⟩
  rw [h.write_eq, if_neg (by omega), hb]
  rfl

theorem Inv.write_appended {b b' : CircularBuffer} (h : b.Inv) {data : List Byte} {bytes : Nat}
    {ok : Bool} (hb : b.write data bytes = .ok (ok, b')) :
    b.Appended (if ok then data.take bytes else []) b' := by
  by_cases hlt : b.freeSpace < bytes
  · rw [h.write_refused data hlt] at hb
    cases hb
    exact h.appended_prepare
  · by_cases hd : bytes ≤ data.length
    · obtain ⟨c, hc, ha⟩ := h.write_accepted hd (Nat.le_of_not_lt hlt)
      rw [hc] at hb
      cases hb
      exact ha
    · rw [h.write_eq, if_neg hlt, place, storeAt, if_neg fun hfit => hd hfit.1] at hb
      cases hb

structure Dropped (b : CircularBuffer) (n : Nat) (b' : CircularBuffer) : Prop where
  inv : b'.Inv
  contents_eq : b'.contents = b.contents.drop n
  length_eq : b'.mBuffer.length = b.mBuffer.length

theorem relocate_b {b : CircularBuffer} {p : Nat} (hA : b.mARegionSize = 0)
    (hB : 0 < b.mBRegionSize) (hp : b.mBRegionPointer = some p)
    (hfit : p + b.mBRegionSize ≤ b.mBuffer.length) :
    ∃ m, b.relocate = .ok ⟨m, 0, b.mBRegionSize, none, 0⟩ ∧ m.length = b.mBuffer.length ∧
      Region.slice m 0 b.mBRegionSize = Region.slice b.mBuffer p b.mBRegionSize := by
  have hkl := Region.length_slice hfit
  have hload : b.loadAt b.mBRegionPointer b.mBRegionSize =
      .ok (Region.slice b.mBuffer p b.mBRegionSize) := by
    simp only [loadAt, hp, load, if_pos hfit]
  by_cases h0 : p = 0
  · subst h0
    refine ⟨b.mBuffer, ?_, rfl, rfl⟩
    rw [relocate, if_pos hA, if_pos hB, hload]
    simp [ok_bind, pure_eq_ok, hp]
  · have hfit' : 0 + (Region.slice b.mBuffer p b.mBRegionSize).length ≤ b.mBuffer.length := by
      omega
    refine ⟨Region.store b.mBuffer 0 (Region.slice b.mBuffer p b.mBRegionSize), ?_,
      Region.length_store hfit', ?_⟩
    · have hstore : b.storeAt 0 (Region.slice b.mBuffer p b.mBRegionSize) b.mBRegionSize =
          .ok { b with
            mBuffer := Region.store b.mBuffer 0 (Region.slice b.mBuffer p b.mBRegionSize) } := by
        rw [storeAt, if_pos (by omega), List.take_of_length_le (by omega)]
      rw [relocate, if_pos hA, if_pos hB, hload]
      simp only [ok_bind, hp, hstore, pure_eq_ok, ne_eq, Option.some.injEq, h0, not_false_eq_true,
        if_true]
    · have hself := Region.slice_store_self hfit'
      rwa [hkl] at hself

theorem Inv.relocate_advance {b : CircularBuffer} (h : b.Inv) (aLen bLen : Nat)
    (ha : aLen ≤ b.mARegionSize) (hb : bLen ≤ b.mBRegionSize)
    (hab : 0 < bLen → aLen = b.mARegionSize) :
    ∃ b', (b.advance aLen bLen).relocate = .ok b' ∧ b.Dropped (aLen + bLen) b' := by
  have hend := h.a_le
  have hempty : ∀ m : List Byte, m.length = b.mBuffer.length →
      (⟨m, 0, 0, none, 0⟩ : CircularBuffer).Inv := fun m hm =>
    ⟨hm ▸ h.size_lt, by simp, fun _ => rfl, by simp, fun _ => ⟨rfl, rfl⟩⟩
  have hsa : (Region.slice b.mBuffer b.mARegionPointer b.mARegionSize).length = b.mARegionSize :=
    Region.length_slice hend
  rcases h.cases with ⟨hp, hs⟩ | ⟨hp, hpos, hs, hg⟩
  · obtain rfl : bLen = 0 := by omega
    by_cases hz : b.mARegionSize - aLen = 0
    · refine ⟨⟨b.mBuffer, 0, 0, none, 0⟩, ?_, hempty _ rfl, ?_, rfl⟩
      · simp [relocate, advance, hz, hs, pure_eq_ok]
      · have hlen := h.length_contents
        rw [List.drop_eq_nil_of_le (by omega)]
        simp [contents]
    · refine ⟨b.advance aLen 0, by simp [relocate, advance, hz, pure_eq_ok], ?_, ?_, rfl⟩
      · refine ⟨h.size_lt, by simp only [advance]; omega, fun _ => by simp [advance, hs], ?_, ?_⟩
        · simp [advance, hp]
        · intro hz'
          exact absurd hz' hz
      · simp [contents, advance, hp, Region.drop_slice]
  · have hsb : (Region.slice b.mBuffer 0 b.mBRegionSize).length = b.mBRegionSize :=
      Region.length_slice (by omega)
    by_cases hz : b.mARegionSize - aLen = 0
    · obtain rfl : aLen = b.mARegionSize := by omega
      have hdrop : b.contents.drop (b.mARegionSize + bLen) =
          Region.slice b.mBuffer bLen (b.mBRegionSize - bLen) := by
        have hnil : (Region.slice b.mBuffer b.mARegionPointer b.mARegionSize).drop
            b.mARegionSize = [] := List.drop_eq_nil_of_le (by omega)
        simp only [contents, hp]
        rw [← List.drop_drop, List.drop_append_of_le_length (by omega), hnil, List.nil_append,
          Region.drop_slice, Nat.zero_add]
      by_cases hr : 0 < b.mBRegionSize - bLen
      · obtain ⟨m, hb', hm, hk⟩ := relocate_b (b := b.advance b.mARegionSize bLen) (p := bLen)
          (by simp [advance]) (by simpa [advance] using hr) (by simp [advance, hp])
          (by simp only [advance]; omega)
        simp only [advance] at hb' hm hk
        refine ⟨_, hb', ?_, ?_, hm⟩
        · exact ⟨by simpa only [hm] using h.size_lt, by simp only [hm]; omega, fun _ => rfl,
            by simp, fun _ => ⟨rfl, rfl⟩⟩
        · rw [hdrop]
          simp [contents, hk]
      · refine ⟨⟨b.mBuffer, 0, 0, none, 0⟩, ?_, hempty _ rfl, ?_, rfl⟩
        · simp [relocate, advance, hr, pure_eq_ok]
        · rw [hdrop, show b.mBRegionSize - bLen = 0 by omega]
          simp [contents]
    · obtain rfl : bLen = 0 := by
        by_contra hb0
        have := hab (by omega)
        omega
      refine ⟨b.advance aLen 0, by simp [relocate, advance, hz, pure_eq_ok], ?_, ?_, rfl⟩
      · refine ⟨h.size_lt, by simp only [advance]; omega, by simp [advance, hp], ?_, ?_⟩
        · intro p hbp
          simp only [advance, hp, Option.map_some, Option.some.injEq] at hbp
          simp only [advance]
          omega
        · intro hz'
          exact absurd hz' hz
      · simp only [contents, advance, hp, Option.map_some, Nat.add_zero, Nat.sub_zero]
        rw [List.drop_append_of_le_length (by omega), Region.drop_slice]

theorem Inv.copyOut_eq {b : CircularBuffer} (h : b.Inv) {n : Nat} (hn : n ≤ b.contents.length) :
    b.copyOut n = .ok (b.contents.take n, min n b.mARegionSize, n - min n b.mARegionSize) := by
  have hend := h.a_le
  rw [h.length_contents] at hn
  have hsa : (Region.slice b.mBuffer b.mARegionPointer b.mARegionSize).length = b.mARegionSize :=
    Region.length_slice hend
  by_cases hle : n ≤ b.mARegionSize
  · have htake : b.contents.take n = Region.slice b.mBuffer b.mARegionPointer n := by
      rw [contents, List.take_append_of_le_length (by omega), Region.take_slice _ _ _ _ hle]
    have hfit : b.mARegionPointer + n ≤ b.mBuffer.length := by omega
    rw [htake, Nat.min_eq_left hle, Nat.sub_self]
    by_cases hpos : 0 < b.mARegionSize
    · simp [copyOut, hpos, Nat.min_eq_left hle, load, hfit, ok_bind, pure_eq_ok]
    · obtain rfl : n = 0 := by omega
      simp [copyOut, hpos, ok_bind, pure_eq_ok]
  · rcases h.cases with ⟨-, hs⟩ | ⟨hp, hpos, hs, hg⟩
    · omega
    · have htake : b.contents.take n = Region.slice b.mBuffer b.mARegionPointer b.mARegionSize ++
          Region.slice b.mBuffer 0 (n - b.mARegionSize) := by
        simp only [contents, hp]
        rw [List.take_append, hsa, List.take_of_length_le (by omega),
          Region.take_slice _ _ _ _ (by omega)]
      have hcnt : 0 < n - b.mARegionSize ∧ 0 < b.mBRegionSize := by omega
      have hle' : n - b.mARegionSize ≤ b.mBRegionSize := by omega
      have hfit : 0 + (n - b.mARegionSize) ≤ b.mBuffer.length := by omega
      rw [htake, Nat.min_eq_right (by omega)]
      simp only [copyOut, hpos, if_true, Nat.min_eq_right (show b.mARegionSize ≤ n by omega),
        load, hend, ok_bind, hcnt, and_self, hle', loadAt, hp, hfit, pure_eq_ok]

theorem Inv.peek_eq {b : CircularBuffer} (h : b.Inv) (n : Nat) :
    b.peek n = .ok (if n ≤ b.contents.length then some (b.contents.take n) else none) := by
  rw [peek, h.getStoredSize_eq_length]
  by_cases hn : n ≤ b.contents.length
  · rw [if_neg (by omega), h.copyOut_eq hn, if_pos hn]
    rfl
  · rw [if_pos (by omega), if_neg hn]
    rfl

theorem Inv.read_short {b : CircularBuffer} (h : b.Inv) {n : Nat} (hn : b.contents.length < n) :
    b.read n = .ok (none, b) := by
  rw [read, h.getStoredSize_eq_length, if_pos hn]
  rfl

theorem Inv.read_advance {b : CircularBuffer} (h : b.Inv) {n : Nat}
    (hn : n ≤ b.contents.length) :
    b.read n = ((b.advance (min n b.mARegionSize) (n - min n b.mARegionSize)).relocate).map
      (Prod.mk (some (b.contents.take n))) := by
  rw [read, h.getStoredSize_eq_length, if_neg (by omega), h.copyOut_eq hn]
  rfl

theorem Inv.read_enough {b : CircularBuffer} (h : b.Inv) {n : Nat} (hn : n ≤ b.contents.length) :
    ∃ b', b.read n = .ok (some (b.contents.take n), b') ∧ b.Dropped n b' := by
  have hlen := h.length_contents
  obtain ⟨b', hb, hd⟩ := h.relocate_advance (min n b.mARegionSize)
    (n - min n b.mARegionSize) (by omega) (by omega) (by omega)
  rw [show min n b.mARegionSize + (n - min n b.mARegionSize) = n by omega] at hd
  refine ⟨b', ?_, hd⟩
  rw [h.read_advance hn, hb]
  rfl

theorem remove_advance (b : CircularBuffer) (len : Nat) :
    b.remove len = (b.advance (min len b.mARegionSize)
      (min (len - min len b.mARegionSize) b.mBRegionSize)).relocate := by
  have ha : (if 0 < b.mARegionSize then min len b.mARegionSize else 0) = min len b.mARegionSize := by
    split_ifs <;> omega
  rw [remove, ha]
  congr 2
  split_ifs <;> omega

theorem Inv.remove_eq {b : CircularBuffer} (h : b.Inv) (len : Nat) :
    ∃ b', b.remove len = .ok b' ∧ b.Dropped (min len b.contents.length) b' := by
  have hlen := h.length_contents
  obtain ⟨b', hb, hd⟩ := h.relocate_advance (min len b.mARegionSize)
    (min (len - min len b.mARegionSize) b.mBRegionSize) (by omega) (by omega) (by omega)
  rw [show min len b.mARegionSize + min (len - min len b.mARegionSize) b.mBRegionSize =
    min len b.contents.length by omega] at hd
  exact ⟨b', (b.remove_advance len).trans hb, hd⟩

end CircularBuffer

end GameLift
