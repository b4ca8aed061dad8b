import GameLift.Framing
import GameLift.LinuxServer

/-! The packet reader does not depend on how the stream is cut. Any handlers
may run; the trace records what each round of the dispatch loop called. -/

namespace GameLift

open Framing (Incomplete stream stream_append stream_cons)

namespace Receiver

variable {σ : Type}

inductive Call where
  | handled (kind : Request) (image : List Byte)
  | parseError (kind : Request)
  | disconnected
  | fault (f : Fault)
deriving DecidableEq, Repr

def traced (R : Receiver σ) : Receiver (σ × List Call) where
  mRecvBuffer t := R.mRecvBuffer t.1
  setRecvBuffer t b := (R.setRecvBuffer t.1 b, t.2)
  disconnect t := (R.disconnect t.1, t.2 ++ [.disconnected])
  parseError k t := (R.parseError k t.1, t.2 ++ [.parseError k])
  handle k image t := (R.handle k image t.1, t.2 ++ [.handled k image])
  raise f t := (R.raise f t.1, t.2 ++ [.fault f])
  recv_set t b := R.recv_set t.1 b
  recv_disconnect t := R.recv_disconnect t.1
  recv_parseError k t := R.recv_parseError k t.1
  recv_handle k image t := R.recv_handle k image t.1

/-- One chunk: no longer than the free space reported, stored at `GetBuffer()`,
committed, and followed by `DispatchPacket`, which comes back with `t'`. -/
def Delivers (R : Receiver σ) (t : σ × List Call) (chunk : List Byte) (t' : σ × List Call) :
    Prop :=
  chunk ≠ [] ∧ chunk.length ≤ (R.mRecvBuffer t.1).getFreeSpaceSize.1 ∧
    ∃ b, (R.mRecvBuffer t.1).getFreeSpaceSize.2.place chunk chunk.length = .ok b ∧
      ∃ fuel, R.traced.dispatchPacket fuel (R.traced.setRecvBuffer t b) = some t'

inductive Delivered (R : Receiver σ) (block : Block) :
    List (List Byte) → σ × List Call → Prop where
  | fresh {s} : R.mRecvBuffer s = .new block → Delivered R block [] (s, [])
  | chunk {chunks t chunk t'} : Delivered R block chunks t → R.Delivers t chunk t' →
      Delivered R block (chunks ++ [chunk]) t'

end Receiver

namespace ClientPacket

def call (p : ClientPacket) : Receiver.Call := .handled p.kind p.toBytes

theorem sizeT_structSize (k : Request) : sizeT (k.structSize : Int) = k.structSize := by
  have h := k.structSize_lt
  exact sizeT_natCast (by omega)

theorem pktType_registered (k : Request) :
    ¬ (pktMax ≤ (k.pktType : Int) ∨ (k.pktType : Int) ≤ pktNone) := by
  cases k <;> decide

theorem frameOf_toBytes (p : ClientPacket) (rest : List Byte) :
    frameOf (p.toBytes ++ rest) = .parsed p.kind p.toBytes rest := by
  have hl := p.length_toBytes
  have h4 := p.kind.header_le_structSize
  have hlen : (p.toBytes ++ rest).length = p.kind.structSize + rest.length := by
    rw [List.length_append, hl]
  have htake : (p.toBytes ++ rest).take p.kind.structSize = p.toBytes := by
    rw [← hl, List.take_left]
  have hdrop : (p.toBytes ++ rest).drop p.kind.structSize = rest := by
    rw [← hl, List.drop_left]
  rw [frameOf]
  rw [if_neg (by omega)]
  simp only [p.header_toBytes, sizeT_structSize, handlerTable_pktType, htake, hdrop]
  rw [if_neg (by omega), if_neg (pktType_registered p.kind), if_pos (by omega)]

theorem frameOf_incomplete {q more : List Byte} {p : ClientPacket} {ps : List ClientPacket}
    (h : q ++ more = stream toBytes (p :: ps)) (hlt : q.length < p.toBytes.length) :
    frameOf q = .wait := by
  rw [frameOf]
  by_cases h4 : q.length < sizeofPacketHeader
  · exact if_pos h4
  · have hhead : PacketHeader.ofBytes q = ⟨p.kind.structSize, p.kind.pktType⟩ := by
      have ht : q.take sizeofPacketHeader = (q ++ more).take sizeofPacketHeader :=
        (List.take_append_of_le_length (by omega)).symm
      rw [← ofBytes_take, ht, ofBytes_take, h, stream_cons, p.header_toBytes]
    rw [if_neg h4, hhead]
    dsimp only
    rw [sizeT_structSize, ← p.length_toBytes, if_pos hlt]

theorem length_toBytes_le (p : ClientPacket) : p.toBytes.length ≤ 260 := by
  rw [p.length_toBytes]
  cases p.kind <;> decide

end ClientPacket

open ClientPacket

namespace Receiver

variable {σ : Type} {R : Receiver σ}

/-- The calls so far are those for `handled`, and the buffer holds what was sent
beyond these packets. -/
structure Synced (R : Receiver σ) (handled : List ClientPacket) (sent : List Byte)
    (t : σ × List Call) : Prop where
  inv : (R.mRecvBuffer t.1).Inv
  size : (R.mRecvBuffer t.1).mBuffer.length = bufSize
  calls : t.2 = handled.map call
  bytes : sent = stream toBytes handled ++ R.contents t.1

theorem traced_waits {t : σ × List Call} (h : (R.mRecvBuffer t.1).Inv)
    (hf : frameOf (R.contents t.1) = .wait) : Loop.Returns R.traced.dispatchBody t t := by
  have hcases := dispatchBody_cases (R := R.traced) (s := t) h
  change frameOf (R.traced.contents t) = .wait at hf
  exact .of_done (by simpa [hf] using hcases)

theorem Synced.next {handled : List ClientPacket} {sent tail : List Byte} {t : σ × List Call}
    {p : ClientPacket} (h : Synced R handled sent t)
    (htail : R.contents t.1 = p.toBytes ++ tail) :
    ∃ t', R.traced.dispatchBody t = .next t' ∧ Synced R (handled ++ [p]) sent t' ∧
      R.contents t'.1 = tail := by
  have hf : frameOf (R.traced.contents t) = .parsed p.kind p.toBytes tail := by
    change frameOf (R.contents t.1) = _
    rw [htail, frameOf_toBytes]
  have hcases := dispatchBody_cases (R := R.traced) (s := t) h.inv
  simp only [hf, reduceCtorEq, false_and, exists_false, false_or, Frame.parsed.injEq] at hcases
  obtain ⟨k, b, -, ⟨rfl, himage, hrest⟩, hd, hb⟩ := hcases
  rw [← himage] at hb
  have hrecv : R.mRecvBuffer (R.traced.handle p.kind p.toBytes (R.traced.setRecvBuffer t b)).1 = b :=
    (R.recv_handle ..).trans (R.recv_set ..)
  have hcont : b.contents = tail := by
    rw [hd.contents_eq, hrest]
    rfl
  refine ⟨_, hb, ⟨?_, ?_, ?_, ?_⟩, ?_⟩
  · rw [hrecv]
    exact hd.inv
  · rw [hrecv]
    exact hd.length_eq.trans h.size
  · change t.2 ++ [call p] = (handled ++ [p]).map call
    rw [h.calls, List.map_append, List.map_singleton]
  · rw [contents, hrecv, hcont, stream_append, h.bytes, htail]
    simp [stream]
  · rw [contents, hrecv, hcont]

theorem Synced.returns {handled pending : List ClientPacket} {sent more : List Byte}
    {t : σ × List Call} (h : Synced R handled sent t)
    (hq : R.contents t.1 ++ more = stream toBytes pending) :
    ∃ new later t', pending = new ++ later ∧ Loop.Returns R.traced.dispatchBody t t' ∧
      Synced R (handled ++ new) sent t' ∧ Incomplete toBytes (R.contents t'.1) later := by
  -- The packet in front is either whole, and a round handles it, or ends the loop.
  induction pending generalizing handled t with
  | nil =>
    have hnil : R.contents t.1 = [] := (List.append_eq_nil_iff.mp hq).1
    refine ⟨[], [], t, rfl, traced_waits h.inv (by rw [hnil]; rfl), by simpa using h, hnil⟩
  | cons p ps ih =>
    rcases Framing.front_cases (stream_cons p ps ▸ hq) with hlt | ⟨tail, htail, hmore⟩
    · exact ⟨[], p :: ps, t, rfl, traced_waits h.inv (frameOf_incomplete hq hlt),
        by simpa using h, hlt⟩
    · obtain ⟨t₁, hb, h₁, hc₁⟩ := h.next htail
      obtain ⟨new, later, t', hps, hret, hs, hi⟩ := ih h₁ (hc₁ ▸ hmore)
      exact ⟨p :: new, later, t', by rw [hps]; rfl, .of_next hb hret, by simpa using hs, hi⟩

theorem Synced.delivers {handled pending : List ClientPacket} {sent chunk rest : List Byte}
    {t : σ × List Call} (h : Synced R handled sent t)
    (hq : sent ++ chunk ++ rest = stream toBytes (handled ++ pending)) (hne : chunk ≠ [])
    (hfit : chunk.length ≤ (R.mRecvBuffer t.1).getFreeSpaceSize.1) :
    ∃ new later t', pending = new ++ later ∧ R.Delivers t chunk t' ∧
      (∀ t'', R.Delivers t chunk t'' → t'' = t') ∧
      Synced R (handled ++ new) (sent ++ chunk) t' ∧ Incomplete toBytes (R.contents t'.1) later := by
  obtain ⟨b, hb, ha⟩ := h.inv.place_prepare (Nat.le_refl chunk.length) hfit
  rw [List.take_length] at ha
  have hcont : R.contents (R.traced.setRecvBuffer t b).1 = R.contents t.1 ++ chunk := by
    change (R.mRecvBuffer (R.setRecvBuffer t.1 b)).contents = _
    rw [R.recv_set, ha.contents_eq]
    rfl
  have hset : Synced R handled (sent ++ chunk) (R.traced.setRecvBuffer t b) := by
    have hrecv : R.mRecvBuffer (R.traced.setRecvBuffer t b).1 = b := R.recv_set t.1 b
    refine ⟨?_, ?_, h.calls, ?_⟩
    · rw [hrecv]
      exact ha.inv
    · rw [hrecv, ha.length_eq, h.size]
    · rw [hcont, h.bytes, List.append_assoc]
  have hrest : R.contents (R.traced.setRecvBuffer t b).1 ++ rest = stream toBytes pending := by
    rw [h.bytes, stream_append, List.append_assoc, List.append_assoc,
      List.append_cancel_left_eq] at hq
    rw [hcont, List.append_assoc, hq]
  obtain ⟨new, later, t', hps, hret, hs, hi⟩ := hset.returns hrest
  refine ⟨new, later, t', hps, ⟨hne, hfit, b, hb, hret⟩, ?_, hs, hi⟩
  rintro t'' ⟨-, -, b', hb', hret'⟩
  obtain rfl : b = b' := Except.ok.inj (hb.symm.trans hb')
  exact Loop.Returns.unique hret' hret

theorem Delivered.synced {block : Block} (hsize : block.cells.length = bufSize)
    {packets : List ClientPacket} {chunks : List (List Byte)} {t : σ × List Call}
    (ht : Delivered R block chunks t) {rest : List Byte}
    (hcut : chunks.flatten ++ rest = stream toBytes packets) :
    ∃ handled pending, packets = handled ++ pending ∧ Synced R handled chunks.flatten t ∧
      Incomplete toBytes (R.contents t.1) pending := by
  induction ht generalizing rest with
  | @fresh s hs =>
    have hnew : R.contents s = [] := by simp [contents, hs]
    refine ⟨[], packets, rfl, ⟨?_, ?_, rfl, ?_⟩, ?_⟩
    · exact hs ▸ CircularBuffer.inv_new block
    · exact (congrArg (fun b => b.mBuffer.length) hs).trans hsize
    · simp [stream, hnew]
    · cases packets with
      | nil => exact hnew
      | cons p ps =>
        have hpos := p.kind.structSize_pos
        rw [← p.length_toBytes] at hpos
        simpa [Incomplete, hnew] using hpos
  | @chunk chunks t chunk t' _ hd ih =>
    rw [List.flatten_append, List.flatten_singleton] at hcut ⊢
    obtain ⟨handled, pending, rfl, hs, -⟩ := ih (List.append_assoc .. ▸ hcut)
    obtain ⟨hne, hfit, -⟩ := id hd
    obtain ⟨new, later, t₁, rfl, -, hu, hs₁, hi⟩ := hs.delivers hcut hne hfit
    obtain rfl := hu t' hd
    exact ⟨handled ++ new, later, (List.append_assoc ..).symm, hs₁, hi⟩

theorem Delivered.extend {block : Block} (hsize : block.cells.length = bufSize)
    {chunks : List (List Byte)} {t : σ × List Call} (ht : Delivered R block chunks t)
    (packets : List ClientPacket) (chunk rest : List Byte)
    (hcut : chunks.flatten ++ (chunk ++ rest) = stream toBytes packets) (hne : chunk ≠ [])
    (hshort : chunk.length ≤ 4096) : ∃ t', Delivered R block (chunks ++ [chunk]) t' := by
  obtain ⟨handled, pending, rfl, hs, hi⟩ := ht.synced hsize hcut
  have hroom := hs.inv.half_free hs.size
  have hlt := hi.length_lt (by decide) fun p _ => p.length_toBytes_le
  change (R.mRecvBuffer t.1).contents.length < 260 at hlt
  have hfit : chunk.length ≤ (R.mRecvBuffer t.1).freeSpace := by omega
  obtain ⟨-, -, t', -, hd, -⟩ := hs.delivers (List.append_assoc .. ▸ hcut) hne hfit
  exact ⟨t', ht.chunk hd⟩

/-- However a stream of well-formed packets is cut, there is room for the next
chunk and delivering it comes to an end; the calls so far are those for the
packets that are complete, and the buffer holds the incomplete one. -/
theorem segmentation_independent (R : Receiver σ) (block : Block)
    (hsize : block.cells.length = bufSize) (packets : List ClientPacket)
    (chunks : List (List Byte)) (rest : List Byte)
    (hcut : chunks.flatten ++ rest = stream toBytes packets) (t : σ × List Call)
    (ht : Delivered R block chunks t) :
    0 < (R.mRecvBuffer t.1).getFreeSpaceSize.1 ∧
    (∀ chunk later, rest = chunk ++ later → chunk ≠ [] →
      chunk.length ≤ (R.mRecvBuffer t.1).getFreeSpaceSize.1 → ∃ t', R.Delivers t chunk t') ∧
    (∃ handled pending, packets = handled ++ pending ∧ t.2 = handled.map call ∧
      chunks.flatten = stream toBytes handled ++ R.contents t.1 ∧
      Incomplete toBytes (R.contents t.1) pending) ∧
    (rest = [] → t.2 = packets.map call ∧ R.contents t.1 = []) := by
  obtain ⟨handled, pending, rfl, hs, hi⟩ := ht.synced hsize hcut
  refine ⟨?_, ?_, ?_, ?_⟩
  · have hroom := hs.inv.half_free hs.size
    have hlt := hi.length_lt (by decide) fun p _ => p.length_toBytes_le
    change (R.mRecvBuffer t.1).contents.length < 260 at hlt
    change 0 < (R.mRecvBuffer t.1).freeSpace
    omega
  · intro chunk later hrest hne hfit
    rw [hrest, ← List.append_assoc] at hcut
    obtain ⟨-, -, t', -, hd, -⟩ := hs.delivers hcut hne hfit
    exact ⟨t', hd⟩
  · exact ⟨handled, pending, rfl, hs.calls, hs.bytes, hi⟩
  · rintro rfl
    rw [List.append_nil, hs.bytes, stream_append, List.append_cancel_left_eq] at hcut
    obtain ⟨rfl, hempty⟩ := hi.finished hcut
    exact ⟨by simpa using hs.calls, hempty⟩

theorem segmentation_independent_move :
    ∃ t, Delivered bare zeroBlock
        [headerBytes 16 21 ++ [1, 2, 3], [4, 5, 6, 7, 8, 9, 10, 11, 12]] t ∧
      t.2 = [.handled .move (headerBytes 16 21 ++ [1, 2, 3, 4, 5, 6, 7, 8, 9, 10, 11, 12])] ∧
      bare.contents t.1 = [] := by
  let p : ClientPacket := ⟨.move, [1, 2, 3, 4, 5, 6, 7, 8, 9, 10, 11, 12], rfl⟩
  have h₀ : Delivered bare zeroBlock [] (CircularBuffer.new zeroBlock, []) := .fresh rfl
  obtain ⟨t₁, h₁⟩ := h₀.extend zeroBlock_length [p] (headerBytes 16 21 ++ [1, 2, 3])
    [4, 5, 6, 7, 8, 9, 10, 11, 12] (by decide) (by decide) (by decide)
  obtain ⟨t₂, h₂⟩ := h₁.extend zeroBlock_length [p] [4, 5, 6, 7, 8, 9, 10, 11, 12] []
    (by decide) (by decide) (by decide)
  have hh := segmentation_independent bare zeroBlock zeroBlock_length [p] _ [] (by decide) t₂ h₂
  exact ⟨t₂, h₂, hh.2.2.2 rfl⟩

end Receiver

end GameLift
