import GameLift.BufferQueue
import GameLift.Unwinding

/-! Asking for the room, and being refused a write, may open region B and leave it empty.
Two rings that differ only in this answer alike from then on: `prepare` is the form they
share, and an operation keeps it or closes region B in both. -/

namespace GameLift

namespace CircularBuffer

open Fifo (Op)

/-- The operations that may be left out: a question about the room, a refused write. -/
def Silent : Op Byte → Fifo.Result Byte → Prop
  | .room, _ => True
  | .write _, .flag false => True
  | _, _ => False

/-- The rings are the same once both have been asked for their room. -/
structure Alike (b c : CircularBuffer) : Prop where
  left : b.Inv
  right : c.Inv
  prepare : b.prepare = c.prepare

theorem prepare_idem (b : CircularBuffer) : b.prepare.prepare = b.prepare :=
  congrArg Prod.snd b.getFreeSpaceSize_prepare

theorem prepare_allocateB (b : CircularBuffer) : b.allocateB.prepare = b.allocateB := by
  rw [prepare, getFreeSpaceSize, if_pos (show b.allocateB.mBRegionPointer.isSome by rfl)]

/-- Region B is closed, and the next question about the room will open it. -/
structure Opens (b : CircularBuffer) : Prop where
  absent : b.mBRegionPointer = none
  empty : b.mBRegionSize = 0
  stored : 0 < b.mARegionSize
  gain : b.mBuffer.length - (b.mARegionPointer + b.mARegionSize) < b.mARegionPointer

theorem Inv.prepare_eq {b : CircularBuffer} (h : b.Inv) :
    b.prepare = b ∨ b.prepare = b.allocateB ∧ b.Opens := by
  rcases h.prepare_cases with ⟨he, -⟩ | ⟨he, hp, hi, hs, -⟩ | ⟨he, -⟩
  · exact Or.inl he
  · have hgain := (hi.b_start 0 rfl).2.2
    have hpos : 0 < b.mARegionSize := by
      by_contra hz
      have hnone := (hi.a_empty (Nat.eq_zero_of_not_pos hz)).2
      simp [allocateB] at hnone
    exact Or.inr ⟨he, hp, hs, hpos, hgain⟩
  · exact Or.inl he

theorem Inv.prepare_of_opens {b : CircularBuffer} (h : b.Inv) (ho : b.Opens) :
    b.prepare = b.allocateB := by
  have hlt : b.getAFreeSpace < b.getSpaceBeforeA := by
    rw [h.getAFreeSpace_eq, h.getSpaceBeforeA_eq]
    exact ho.gain
  have hp : ¬b.mBRegionPointer.isSome := by simp [ho.absent]
  rw [prepare, getFreeSpaceSize, if_neg hp, if_pos hlt]

/-- Taking bytes out of region A leaves the two rings alike, or closes both. -/
theorem Opens.relocate {b b' : CircularBuffer} (h : b.Inv) (ho : b.Opens) {n : Nat}
    (hn : n ≤ b.mARegionSize) (hb : (b.advance n 0).relocate = .ok b') :
    ∃ c, (b.allocateB.advance n 0).relocate = .ok c ∧ c.prepare = b'.prepare := by
  have habsent := ho.absent
  have hempty := ho.empty
  have hend := h.a_le
  by_cases hall : b.mARegionSize - n = 0
  · refine ⟨b', ?_, rfl⟩
    rw [← hb]
    simp [CircularBuffer.relocate, advance, allocateB, hall, hempty]
  · have hkeep : (b.advance n 0).relocate = .ok (b.advance n 0) := by
      rw [CircularBuffer.relocate, if_neg (show ¬(b.advance n 0).mARegionSize = 0 from hall)]
      rfl
    have hkeep' : (b.allocateB.advance n 0).relocate = .ok (b.advance n 0).allocateB := by
      rw [CircularBuffer.relocate,
        if_neg (show ¬(b.allocateB.advance n 0).mARegionSize = 0 from hall)]
      rfl
    obtain rfl := Except.ok.inj (hkeep.symm.trans hb)
    have hinv : (b.advance n 0).Inv := by
      refine ⟨h.size_lt, ?_, fun _ => hempty, ?_, fun hz => absurd hz hall⟩
      · simp only [advance]
        omega
      · simp [advance, habsent]
    have hopens : (b.advance n 0).Opens := by
      have hgain := ho.gain
      refine ⟨by simp [advance, habsent], hempty, ?_, ?_⟩
      · simp only [advance]
        omega
      · simp only [advance]
        omega
    exact ⟨_, hkeep', by rw [prepare_allocateB, hinv.prepare_of_opens hopens]⟩

theorem Inv.write_prepare {b : CircularBuffer} (h : b.Inv) (data : List Byte) (bytes : Nat) :
    b.prepare.write data bytes = b.write data bytes := by
  have hroom : b.prepare.freeSpace = b.freeSpace := congrArg Prod.fst b.getFreeSpaceSize_prepare
  rw [h.appended_prepare.inv.write_eq, h.write_eq, hroom, prepare_idem]

theorem fill_prepare (b : CircularBuffer) (data : List Byte) :
    b.prepare.fill data = b.fill data := by
  rw [fill, getFreeSpaceSize_prepare, fill]

theorem Inv.read_prepare {b : CircularBuffer} (h : b.Inv) {n : Nat}
    {copied : Option (List Byte)} {b' : CircularBuffer} (hb : b.read n = .ok (copied, b')) :
    ∃ c, b.prepare.read n = .ok (copied, c) ∧ c.prepare = b'.prepare := by
  rcases h.prepare_eq with he | ⟨he, ho⟩
  · exact ⟨b', by rw [he, hb], rfl⟩
  · have hi := h.appended_prepare.inv
    have hcontents := h.appended_prepare.contents_eq
    rw [he] at hi hcontents ⊢
    rw [List.append_nil] at hcontents
    by_cases hn : n ≤ b.contents.length
    · have hlen := h.length_contents
      have hempty := ho.empty
      have hzero : n - min n b.mARegionSize = 0 := by omega
      rw [h.read_advance hn, hzero] at hb
      rw [hi.read_advance (hcontents ▸ hn), hcontents,
        show b.allocateB.mARegionSize = b.mARegionSize from rfl, hzero]
      cases hrel : (b.advance (min n b.mARegionSize) 0).relocate with
      | error f =>
        rw [hrel] at hb
        cases hb
      | ok d =>
        rw [hrel] at hb
        cases hb
        obtain ⟨c, hc, hprep⟩ := ho.relocate h (Nat.min_le_right _ _) hrel
        exact ⟨c, by rw [hc]; rfl, hprep⟩
    · rw [h.read_short (Nat.lt_of_not_le hn)] at hb
      cases hb
      refine ⟨b.allocateB, hi.read_short (hcontents ▸ Nat.lt_of_not_le hn), ?_⟩
      rw [← he, prepare_idem]

theorem Inv.remove_prepare {b : CircularBuffer} (h : b.Inv) {len : Nat} {b' : CircularBuffer}
    (hb : b.remove len = .ok b') :
    ∃ c, b.prepare.remove len = .ok c ∧ c.prepare = b'.prepare := by
  rcases h.prepare_eq with he | ⟨he, ho⟩
  · exact ⟨b', by rw [he, hb], rfl⟩
  · have hzero : min (len - min len b.mARegionSize) b.mBRegionSize = 0 := by
      rw [ho.empty, Nat.min_zero]
    rw [remove_advance, hzero] at hb
    obtain ⟨c, hc, hprep⟩ := ho.relocate h (Nat.min_le_right _ _) hb
    refine ⟨c, ?_, hprep⟩
    rw [he, remove_advance, show b.allocateB.mARegionSize = b.mARegionSize from rfl,
      show b.allocateB.mBRegionSize = b.mBRegionSize from rfl, hzero, hc]

theorem Inv.getContiguiousBytes_prepare {b : CircularBuffer} (h : b.Inv) :
    b.prepare.getContiguiousBytes = b.getContiguiousBytes := by
  rcases h.prepare_eq with he | ⟨he, -⟩
  · rw [he]
  · rw [he]
    rfl

theorem Inv.contents_prepare {b : CircularBuffer} (h : b.Inv) :
    b.prepare.contents = b.contents := by
  rw [h.appended_prepare.contents_eq, List.append_nil]

/-- One operation on a ring and on its prepared form: the same answer, and alike rings. -/
theorem Inv.perform_prepare {b : CircularBuffer} (h : b.Inv) {op : Op Byte} {r : Fifo.Result Byte}
    {b' : CircularBuffer} (hb : b.perform op = .ok (r, b')) :
    ∃ c, b.prepare.perform op = .ok (r, c) ∧ c.prepare = b'.prepare := by
  have hi := h.appended_prepare.inv
  cases op with
  | write data =>
    refine ⟨b', ?_, rfl⟩
    rw [← hb, perform, h.write_prepare, perform]
  | fill data =>
    refine ⟨b', ?_, rfl⟩
    rw [← hb, perform, fill_prepare, perform]
  | room =>
    refine ⟨b', ?_, rfl⟩
    rw [← hb, perform, getFreeSpaceSize_prepare, perform]
  | size =>
    cases hb
    refine ⟨b.prepare, ?_, b.prepare_idem⟩
    rw [perform, hi.getStoredSize_eq_length, h.contents_prepare, h.getStoredSize_eq_length]
    rfl
  | extent =>
    cases hb
    refine ⟨b.prepare, ?_, b.prepare_idem⟩
    rw [perform, h.getContiguiousBytes_prepare]
    rfl
  | peek n =>
    rw [perform, h.peek_eq, ok_bind] at hb
    cases hb
    refine ⟨b.prepare, ?_, b.prepare_idem⟩
    rw [perform, hi.peek_eq, h.contents_prepare]
    rfl
  | read n =>
    cases hr : b.read n with
    | error f =>
      rw [perform, hr] at hb
      cases hb
    | ok result =>
      rw [perform, hr] at hb
      cases hb
      obtain ⟨c, hc, hprep⟩ := h.read_prepare hr
      refine ⟨c, ?_, hprep⟩
      rw [perform, hc]
      rfl
  | remove n =>
    cases hr : b.remove n with
    | error f =>
      rw [perform, hr] at hb
      cases hb
    | ok b₁ =>
      rw [perform, hr] at hb
      cases hb
      obtain ⟨c, hc, hprep⟩ := h.remove_prepare hr
      refine ⟨c, ?_, hprep⟩
      rw [perform, hc]
      rfl
  | drain n =>
    have hshown : b.prepare.window = b.window := by
      rw [hi.window_eq, h.window_eq, h.contents_prepare, h.getContiguiousBytes_prepare]
    rw [perform, drain] at hb ⊢
    rw [hshown]
    rw [h.window_eq, ok_bind] at hb ⊢
    cases hr : b.remove (min n (b.contents.take b.getContiguiousBytes).length) with
    | error f =>
      rw [hr] at hb
      cases hb
    | ok b₁ =>
      rw [hr] at hb
      cases hb
      obtain ⟨c, hc, hprep⟩ := h.remove_prepare hr
      refine ⟨c, ?_, hprep⟩
      rw [hc]
      rfl

/-- What the machine of the ring does in one step. -/
def Performs (b : CircularBuffer) (op : Op Byte) (r : Fifo.Result Byte) (b' : CircularBuffer) : Prop :=
  b.perform op = .ok (r, b')

theorem Inv.of_performs {b b' : CircularBuffer} {op : Op Byte} {r : Fifo.Result Byte} (h : b.Inv)
    (hb : b.Performs op r b') : b'.Inv := by
  obtain ⟨r', c, hc, hi, -⟩ := h.perform_step op
  cases hb.symm.trans hc
  exact hi

theorem Inv.prepare_of_silent {b b' : CircularBuffer} {op : Op Byte} {r : Fifo.Result Byte}
    (h : b.Inv) (hs : Silent op r) (hb : b.Performs op r b') : b'.prepare = b.prepare := by
  cases op with
  | room =>
    cases hb
    exact b.prepare_idem
  | write data =>
    by_cases hf : b.freeSpace < data.length
    · rw [Performs, perform, h.write_refused data hf] at hb
      cases hb
      exact b.prepare_idem
    · obtain ⟨c, hc, -⟩ := h.write_accepted (Nat.le_refl data.length) (Nat.le_of_not_lt hf)
      rw [Performs, perform, hc] at hb
      cases hb
      exact hs.elim
  | _ => exact hs.elim

theorem unwinds_alike : Unwinding.Unwinds Performs Silent Alike where
  consistent := by
    intro b c op r b' ha hb
    obtain ⟨r', c', hc, hi, -⟩ := ha.right.perform_step op
    obtain ⟨d, hd, hprep⟩ := ha.left.perform_prepare hb
    obtain ⟨d', hd', hprep'⟩ := ha.right.perform_prepare hc
    -- Both rings go through the form they share, so it gives one answer for both.
    rw [← ha.prepare, hd] at hd'
    cases hd'
    exact ⟨c', hc, ha.left.of_performs hb, hi, hprep.symm.trans hprep'⟩
  hidden := by
    intro b c op r b' ha hs hb
    exact ⟨ha.left.of_performs hb, ha.right, (ha.left.prepare_of_silent hs hb).trans ha.prepare⟩

theorem run_of_performAll {ops : List (Op Byte)} {rs : List (Fifo.Result Byte)}
    {b b' : CircularBuffer} (h : b.performAll ops = .ok (rs, b')) :
    Unwinding.Run Performs b (ops.zip rs) b' := by
  induction ops generalizing b rs with
  | nil =>
    cases h
    exact .nil
  | cons op ops ih =>
    cases hb : b.perform op with
    | error f =>
      rw [performAll, hb] at h
      cases h
    | ok result =>
      obtain ⟨r, b₁⟩ := result
      simp only [performAll, hb, ok_bind] at h
      cases hrest : b₁.performAll ops with
      | error f =>
        rw [hrest] at h
        cases h
      | ok rest =>
        rw [hrest] at h
        cases h
        exact .cons hb (ih hrest)

theorem performAll_of_run {history : List (Op Byte × Fifo.Result Byte)} {b b' : CircularBuffer}
    (h : Unwinding.Run Performs b history b') :
    b.performAll (history.map Prod.fst) = .ok (history.map Prod.snd, b') := by
  induction h with
  | nil => rfl
  | cons hb _ ih =>
    have hb := show CircularBuffer.perform _ _ = _ from hb
    simp only [List.map_cons, performAll, hb, ok_bind, ih, pure_eq_ok]

/-- Leave out any questions about the room and any refused writes: every other operation
of the history still gives the result it gave. -/
theorem silent_operations_leave_no_trace (block : Block) (ops : List (Op Byte)) :
    ∃ rs b, (new block).performAll ops = .ok (rs, b) ∧ rs.length = ops.length ∧
      ∀ kept, Unwinding.Purged Silent (ops.zip rs) kept →
        ∃ b', (new block).performAll (kept.map Prod.fst) = .ok (kept.map Prod.snd, b') ∧
          b'.prepare = b.prepare := by
  obtain ⟨rs, b, -, -, hb, hlen, -⟩ := (inv_new block).performAll_run ops
  refine ⟨rs, b, hb, hlen, fun kept hp => ?_⟩
  have hsame : Alike (new block) (new block) := ⟨inv_new block, inv_new block, rfl⟩
  obtain ⟨b', hrun, ha⟩ := unwinds_alike.run hsame (run_of_performAll hb) hp
  exact ⟨b', performAll_of_run hrun, ha.prepare.symm⟩

end CircularBuffer

end GameLift
