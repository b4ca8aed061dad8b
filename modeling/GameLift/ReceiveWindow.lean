import GameLift.Playback
import GameLift.ServerBuffers

/-! The window that `OnReceive` passes to `read`. Its two ends come from two calls in
one argument list, and the second of them may open region B. -/

namespace GameLift

open Server

namespace CircularBuffer

/-- `GetFreeSpaceSize` would open region B now. -/
def OpensB (b : CircularBuffer) : Prop :=
  b.mBRegionPointer = none ∧ b.getAFreeSpace < b.getSpaceBeforeA
deriving Decidable

theorem Inv.opensB_iff {b : CircularBuffer} (h : b.Inv) :
    b.OpensB ↔ b.mBRegionPointer = none ∧
      b.mBuffer.length - (b.mARegionPointer + b.mARegionSize) < b.mARegionPointer := by
  rw [OpensB, h.getAFreeSpace_eq, h.getSpaceBeforeA_eq]

theorem prepare_of_not_opensB {b : CircularBuffer} (hb : ¬ b.OpensB) : b.prepare = b := by
  rw [prepare, getFreeSpaceSize]
  cases hp : b.mBRegionPointer with
  | some p => simp
  | none => simp [show ¬ b.getAFreeSpace < b.getSpaceBeforeA from fun hlt => hb ⟨hp, hlt⟩]

theorem receiveWindow_of_not_opensB {b : CircularBuffer} (hb : ¬ b.OpensB) (order : ArgOrder) :
    receiveWindow order b = receiveWindow .sizeFirst b := by
  have hprep := prepare_of_not_opensB hb
  rw [prepare] at hprep
  cases order with
  | sizeFirst => rfl
  | pointerFirst => simp only [receiveWindow, hprep]

/-- What `OnReceive` needs of the window: it lies in the block, no stored byte is in it,
and bytes stored at its front and committed come behind the old contents. -/
structure WindowSound (order : ArgOrder) (b : CircularBuffer) : Prop where
  inside : (receiveWindow order b).1 + (receiveWindow order b).2.1 ≤ b.mBuffer.length
  unused : ∀ i, (receiveWindow order b).1 ≤ i →
    i < (receiveWindow order b).1 + (receiveWindow order b).2.1 → ¬ b.Stored i
  appended : ∀ bytes, bytes.length ≤ (receiveWindow order b).2.1 →
    ∃ b', (receiveWindow order b).2.2.storeAt (receiveWindow order b).1 bytes bytes.length =
        .ok b' ∧
      (b'.commit bytes.length).contents = b.contents ++ bytes

theorem Inv.windowSound {b : CircularBuffer} (h : b.Inv) : WindowSound .sizeFirst b where
  inside := h.window_inside
  unused _ hle hlt := h.window_unused hle hlt
  appended := by
    intro bytes hle
    obtain ⟨b', hb, ha⟩ := h.place_prepare (Nat.le_refl bytes.length) hle
    rw [List.take_length] at ha
    rw [place] at hb
    change ∃ b', b.prepare.storeAt b.prepare.getBuffer bytes bytes.length = .ok b' ∧ _
    cases hs : b.prepare.storeAt b.prepare.getBuffer bytes bytes.length with
    | error f => simp [hs, bind, Except.bind] at hb
    | ok c =>
      rw [hs, ok_bind, pure_eq_ok, Except.ok.injEq] at hb
      exact ⟨c, rfl, hb ▸ ha.contents_eq⟩

/-- With the pointer taken first, a window that opens region B runs out of the block. -/
theorem Inv.window_overruns {b : CircularBuffer} (h : b.Inv) (hb : b.OpensB) :
    b.mBuffer.length <
      (receiveWindow .pointerFirst b).1 + (receiveWindow .pointerFirst b).2.1 := by
  obtain ⟨hp, hlt⟩ := h.opensB_iff.mp hb
  change b.mBuffer.length < b.getBuffer + b.freeSpace
  rcases h.prepare_cases with ⟨-, hp', -⟩ | ⟨-, -, -, -, hf⟩ | ⟨-, -, -, hge, -⟩
  · rw [hp] at hp'
    cases hp'
  · rw [hf, getBuffer, hp]
    simp only
    omega
  · omega

theorem Inv.windowSound_iff {b : CircularBuffer} (h : b.Inv) (order : ArgOrder) :
    WindowSound order b ↔ (order = .pointerFirst → ¬ b.OpensB) := by
  constructor
  · rintro hs rfl hb
    have hover := h.window_overruns hb
    have hin := hs.inside
    omega
  · intro hb
    cases order with
    | sizeFirst => exact h.windowSound
    | pointerFirst =>
      have he := receiveWindow_of_not_opensB (hb rfl) .pointerFirst
      have hs := h.windowSound
      refine ⟨?_, ?_, ?_⟩ <;> rw [he]
      · exact hs.inside
      · exact hs.unused
      · exact hs.appended

end CircularBuffer

open CircularBuffer

theorem CircularBuffer.Inv.of_start {b : CircularBuffer} (h : b.Inv) (hz : b.mARegionPointer = 0) :
    b.mBRegionPointer = none ∧ b.mARegionSize = b.contents.length := by
  have hlen := h.length_contents
  rcases h.cases with ⟨hp, hs⟩ | ⟨-, -, -, hg⟩
  · exact ⟨hp, by omega⟩
  · omega

theorem CircularBuffer.Inv.read_within {b : CircularBuffer} (h : b.Inv) {n : Nat}
    (hn : n < b.mARegionSize) :
    b.read n = .ok (some (b.contents.take n), b.advance n 0) := by
  have hlen := h.length_contents
  have hkeep : (b.advance n 0).relocate = .ok (b.advance n 0) := by
    simp only [relocate, advance, show ¬ b.mARegionSize - n = 0 by omega, if_false, pure_eq_ok]
  rw [read, h.getStoredSize_eq_length, if_neg (by omega), h.copyOut_eq (by omega),
    Nat.min_eq_left (by omega), Nat.sub_self]
  simp only [ok_bind, hkeep, pure_eq_ok]

theorem nextFrame_read {b b' : CircularBuffer} {kind : Request} {image : List Byte}
    (h : nextFrame b = .parsed kind image b') :
    b.read kind.structSize = .ok (some image, b') := by
  rw [nextFrame] at h
  cases hp : b.peek sizeofPacketHeader with
  | error f => simp [hp] at h
  | ok r =>
    cases r with
    | none => simp [hp] at h
    | some bytes =>
      simp only [hp] at h
      split_ifs at h
      cases hk : handlerTable (PacketHeader.ofBytes bytes).mType with
      | none => simp [hk] at h
      | some k =>
        cases hr : b.read k.structSize with
        | error f => simp [hk, parsePacket, hr] at h
        | ok r =>
          obtain ⟨image', b''⟩ := r
          cases image' with
          | none => simp [hk, parsePacket, hr] at h
          | some image' =>
            simp only [hk, parsePacket, hr, Frame.parsed.injEq] at h
            obtain ⟨rfl, rfl, rfl⟩ := h
            exact hr

/-- The same server, compiled to evaluate `GetBuffer()` first. -/
def reversed : Env Playback := { playback with argOrder := .pointerFirst }

def oversized : List Byte := headerBytes 32767 21 ++ List.replicate 10220 0

theorem oversized_length : oversized.length = 10224 := by
  rw [oversized, List.length_append, List.length_replicate]
  rfl

theorem frameOf_oversized : frameOf oversized = .wait := by
  have hheader : PacketHeader.ofBytes (headerBytes 32767 21 ++ List.replicate 10220 0) =
      ⟨(32767 : Nat), (21 : Nat)⟩ :=
    ofBytes_headerBytes (by decide) (by decide) (List.replicate 10220 0)
  have hsize : sizeT 32767 = 32767 := by decide
  rw [frameOf, if_neg (by rw [oversized_length]; decide), oversized, hheader, ← oversized]
  simp only [oversized_length, Nat.cast_ofNat, hsize]
  rfl

theorem opensB_behind_move {b b' : CircularBuffer} {image : List Byte} (h : b.Inv)
    (hsize : b.mBuffer.length = bufSize) (hz : b.mARegionPointer = 0) (hfull : b.contents.length = bufSize)
    (hb : b.read 16 = .ok (some image, b')) :
    b'.OpensB ∧ b'.getBuffer = bufSize ∧ b'.getFreeSpaceSize.1 = 16 ∧
      b'.mBuffer.length = bufSize := by
  obtain ⟨hp, ha⟩ := h.of_start hz
  rw [h.read_within (by rw [ha, hfull]; decide), Except.ok.injEq, Prod.mk.injEq] at hb
  obtain ⟨-, rfl⟩ := hb
  have hopens : (b.advance 16 0).OpensB := by
    refine ⟨by simp [advance, hp], ?_⟩
    simp only [getAFreeSpace, getSpaceBeforeA, mBufferEnd, advance, hsize, hz, ha, hfull]
    decide
  refine ⟨hopens, ?_, ?_, hsize⟩
  · simp only [getBuffer, advance, hp, hz, ha, hfull, Option.map_none]
    rfl
  · rw [getFreeSpaceSize, if_neg (by simp [hopens.1]), if_pos hopens.2]
    simp only [getBFreeSpace, allocateB, advance, hz, h.b_absent hp]
    rfl

theorem new_not_opensB (block : Block) : ¬ (CircularBuffer.new block).OpensB := by
  rw [(inv_new block).opensB_iff]
  exact fun hb => absurd hb.2 (Nat.not_lt_zero _)

theorem new_freeSpace (block : Block) :
    (CircularBuffer.new block).freeSpace = block.cells.length := by
  have hfree : (CircularBuffer.new block).freeSpace = (CircularBuffer.new block).getAFreeSpace := by
    rw [freeSpace, getFreeSpaceSize, if_neg (by simp [CircularBuffer.new]),
      if_neg fun hlt => new_not_opensB block ⟨rfl, hlt⟩]
  rw [hfree, (inv_new block).getAFreeSpace_eq]
  rfl

theorem joined_fills {E : Env Playback} {bytes : List Byte} (hlen : bytes.length = bufSize)
    (hread : E.read 5 bufSize (joined [] [.data bytes]).env = (.data bytes, (joined [] []).env)) :
    ∃ b, b.Inv ∧ b.mBuffer.length = bufSize ∧ b.mARegionPointer = 0 ∧ b.contents = bytes ∧
      receiveStep E 0 (joined [] [.data bytes]) =
        ⟨(joined [] []).setRecv 0 b, .dispatching 0⟩ := by
  have hrecv : ((joined [] [.data bytes]).sessions 0).mRecvBuffer = .new zeroBlock := rfl
  have hsock : ((joined [] [.data bytes]).sessions 0).mSocket = 5 := rfl
  have hnew := inv_new zeroBlock
  have hroom : (CircularBuffer.new zeroBlock).freeSpace = bufSize :=
    (new_freeSpace zeroBlock).trans zeroBlock_length
  have horder := receiveWindow_of_not_opensB (new_not_opensB zeroBlock) E.argOrder
  have hfit := Nat.le_of_eq (hlen.trans hroom.symm)
  rw [← hroom, ← hsock] at hread
  rw [← hrecv] at hnew hfit hread horder
  obtain ⟨b, ha, hstep⟩ := receiveStep_data horder hread hnew hfit
  rw [hrecv] at ha
  refine ⟨b, ha.inv, ha.length_eq.trans zeroBlock_length, ha.front.1, ?_, hstep⟩
  rw [ha.contents_eq, contents_new, List.nil_append]

/-- A move and an oversized packet fill the ring in one `read`, and the move is handled. The
oversized packet, which never becomes whole, lies at the end of the block. -/
theorem behind_move :
    ∃ w, Reachable reversed Free ⟨w, .receiving 0⟩ ∧ w.fault = none ∧ 0 ∈ w.allocated ∧
      (w.sessions 0).mRecvBuffer.contents = oversized ∧ (w.sessions 0).mRecvBuffer.OpensB ∧
      (w.sessions 0).mRecvBuffer.getBuffer = bufSize ∧
      (w.sessions 0).mRecvBuffer.getFreeSpaceSize.1 = 16 := by
  have hlen : (moveRequest.toBytes ++ oversized).length = bufSize := by
    rw [List.length_append, oversized_length, moveRequest.length_toBytes]
    rfl
  have hanswer : reversed.read 5 bufSize
      (joined [] [.data (moveRequest.toBytes ++ oversized)]).env =
        (.data (moveRequest.toBytes ++ oversized), (joined [] []).env) := by
    change (ReadResult.data ((moveRequest.toBytes ++ oversized).take bufSize), _) = _
    rw [List.take_of_length_le (Nat.le_of_eq hlen)]
    rfl
  obtain ⟨b, hb, hsize, hz, hcontents, hreceive⟩ := joined_fills hlen hanswer
  have hjoin : Reachable reversed Free
      ⟨joined [] [.data (moveRequest.toBytes ++ oversized)], .receiving 0⟩ :=
    joined_reachable_of (fun _ _ _ _ => trivial) (playback_starts _ _)
  have hread := hjoin.later (onward_receive rfl hreceive)
  have hrecv : (((joined [] []).setRecv 0 b).sessions 0).mRecvBuffer = b := rfl
  have hframe := moveRequest.frameOf_toBytes oversized
  rw [← hcontents, ← hrecv] at hframe
  obtain ⟨b', hb', hrest, hnext, hstep⟩ :=
    dispatchStep_parsed (E := reversed) (hrecv.symm ▸ hb) hframe
  have hnobody : handlePacket reversed 0 .move moveRequest.toBytes
      (((joined [] []).setRecv 0 b).setRecv 0 b') = ((joined [] []).setRecv 0 b).setRecv 0 b' :=
    broadcastMessage_nobody rfl _
  rw [show moveRequest.kind = .move from rfl, hnobody] at hstep
  have hmoved := hread.later (onward_dispatch rfl hstep)
  have hwaits : dispatchStep reversed 0 (((joined [] []).setRecv 0 b).setRecv 0 b') =
      ⟨((joined [] []).setRecv 0 b).setRecv 0 b', .receiving 0⟩ :=
    dispatchStep_waits hb' ((congrArg frameOf hrest).trans frameOf_oversized)
  rw [hrecv] at hnext
  obtain ⟨hopens, hbuf, hfree, -⟩ := opensB_behind_move hb hsize hz
    ((congrArg List.length hcontents).trans hlen) (nextFrame_read hnext)
  exact ⟨_, hmoved.later (onward_dispatch rfl hwaits), rfl, Finset.mem_insert_self .., hrest, hopens,
    hbuf, hfree⟩

/-- In every reachable state the window of a receive buffer is sound in both orders,
except when the pointer is taken first and `GetFreeSpaceSize` then opens region B. -/
theorem receiveWindow_sound_iff {ε : Type} (E : Env ε) (c : Config ε) (h : Reachable E Free c)
    (s : SessionId) (hs : s ∈ c.server.allocated) (order : ArgOrder) :
    WindowSound order (c.server.sessions s).mRecvBuffer ↔
      (order = .pointerFirst → ¬ (c.server.sessions s).mRecvBuffer.OpensB) :=
  (h.buffered s hs).1.inv.windowSound_iff order

/-- With 10224 bytes stored and region B about to be opened, the order decides. -/
theorem receiveWindow_sound_behind_move :
    ∃ w, Reachable reversed Free ⟨w, .receiving 0⟩ ∧
      (w.sessions 0).mRecvBuffer.contents.length = 10224 ∧
      WindowSound .sizeFirst (w.sessions 0).mRecvBuffer ∧
      ¬ WindowSound .pointerFirst (w.sessions 0).mRecvBuffer := by
  obtain ⟨w, hw, -, hin, hcontents, hopens, -⟩ := behind_move
  have hiff := receiveWindow_sound_iff reversed _ hw 0 hin
  refine ⟨w, hw, ?_, (hiff .sizeFirst).mpr fun horder => ?_, fun hsound => ?_⟩
  · rw [hcontents, oversized_length]
  · cases horder
  · exact (hiff .pointerFirst).mp hsound rfl hopens

/-- Once the move is handled, the window of the next `read` starts at the end of the block. -/
theorem receiveWindow_overrun :
    ∃ w, Reachable reversed Free ⟨w, .receiving 0⟩ ∧ w.fault = none ∧ 0 ∈ w.allocated ∧
      (receiveWindow reversed.argOrder (w.sessions 0).mRecvBuffer).1 = bufSize ∧
      (receiveWindow reversed.argOrder (w.sessions 0).mRecvBuffer).2.1 = 16 ∧
      ¬ WindowSound reversed.argOrder (w.sessions 0).mRecvBuffer := by
  obtain ⟨w, hw, hf, hin, -, hopens, hbuf, hfree⟩ := behind_move
  refine ⟨w, hw, hf, hin, hbuf, hfree, fun hsound => ?_⟩
  exact ((hw.buffered 0 hin).1.inv.windowSound_iff .pointerFirst).mp hsound rfl hopens

end GameLift
