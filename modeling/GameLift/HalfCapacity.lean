import GameLift.SendStream
import GameLift.ServerBuffers

/-! How much a ring is sure to take. Region B opens only when A has less room behind it
than in front, so what is lost behind A is always less than what is left before it. -/

namespace GameLift

namespace CircularBuffer

/-- A write is accepted exactly when it fits into the room reported before it. -/
theorem Inv.write_iff_room {b : CircularBuffer} (h : b.Inv) (data : List Byte) :
    ∃ b', b.write data data.length =
      .ok (decide (data.length ≤ b.getFreeSpaceSize.1), b') := by
  by_cases hle : data.length ≤ b.getFreeSpaceSize.1
  · obtain ⟨b', hb, -⟩ := h.write_accepted (Nat.le_refl data.length) hle
    exact ⟨b', by rw [hb, decide_eq_true hle]⟩
  · exact ⟨b.prepare, by rw [h.write_refused data (Nat.lt_of_not_le hle), decide_eq_false hle]⟩

theorem Inv.half_fits {b : CircularBuffer} (h : b.Inv) {n : Nat}
    (hn : 2 * (b.getStoredSize + n) ≤ b.mBuffer.length) : n ≤ b.freeSpace := by
  have hroom := h.length_le_freeSpace
  rw [h.getStoredSize_eq_length] at hn
  omega

end CircularBuffer

namespace Server

variable {ε : Type} {E : Env ε}

theorem sendRequest_half {w : Server ε} {sid : SessionId}
    (hc : (w.sessions sid).mConnected = true) (hb : (w.sessions sid).mSendBuffer.Sized)
    (p : Packet)
    (hhalf : 2 * ((w.sessions sid).mSendBuffer.getStoredSize +
      sizeT (PacketHeader.ofBytes p.memory).mSize) ≤ bufSize) :
    (w.sendRequest E sid p.memory).1 = true := by
  have hroom := hb.inv.half_fits (hb.size.symm ▸ hhalf)
  obtain ⟨b, hw, -⟩ := hb.inv.write_accepted (p.declared_le hb.inv hb.size hroom) hroom
  rw [sendRequest_accepted hc hw]

/-- A packet is refused, and the session dropped, only if half of the buffer would not do. -/
theorem sendRequest_refused_half {w : Server ε} {sid : SessionId}
    (hc : (w.sessions sid).mConnected = true) (hb : (w.sessions sid).mSendBuffer.Sized)
    (p : Packet) (hr : (w.sendRequest E sid p.memory).1 = false) :
    bufSize < 2 * ((w.sessions sid).mSendBuffer.getStoredSize +
      sizeT (PacketHeader.ofBytes p.memory).mSize) := by
  by_contra hle
  have ht := sendRequest_half (E := E) hc hb p (Nat.le_of_not_lt hle)
  rw [hr] at ht
  cases ht

end Server

open Server

/-- After any history a write succeeds exactly within the reported room, and surely
within half of the capacity; so no session whose send buffer has such a history is
dropped below half of it, and none of a running server is. -/
theorem guaranteed_capacity (block : Block) (ops : List (Fifo.Op Byte)) {ε : Type} (E : Env ε) :
    ∃ rs b, (CircularBuffer.new block).performAll ops = .ok (rs, b) ∧
      (∀ data, ∃ b', b.write data data.length =
        .ok (decide (data.length ≤ b.getFreeSpaceSize.1), b')) ∧
      (∀ data, 2 * (b.getStoredSize + data.length) ≤ block.cells.length →
        ∃ b', b.write data data.length = .ok (true, b')) ∧
      (block.cells.length = bufSize → ∀ (w : Server ε) sid (p : Packet),
        (w.sessions sid).mConnected = true → (w.sessions sid).mSendBuffer = b →
        (w.sendRequest E sid p.memory).1 = false →
        bufSize < 2 * (b.getStoredSize + sizeT (PacketHeader.ofBytes p.memory).mSize)) ∧
      (∀ ok c sid (p : Packet), Reachable E ok c → sid ∈ c.server.allocated →
        (c.server.sessions sid).mConnected = true →
        (c.server.sendRequest E sid p.memory).1 = false →
        bufSize < 2 * ((c.server.sessions sid).mSendBuffer.getStoredSize +
          sizeT (PacketHeader.ofBytes p.memory).mSize)) := by
  obtain ⟨rs, b, -, -, hb, -, hi, hlen, -⟩ :=
    (CircularBuffer.inv_new block).performAll_run ops
  refine ⟨rs, b, hb, hi.write_iff_room, ?_, ?_, ?_⟩
  · intro data hhalf
    have hroom := hi.half_fits (hlen.symm ▸ hhalf)
    obtain ⟨b', hw, -⟩ := hi.write_accepted (Nat.le_refl data.length) hroom
    exact ⟨b', hw⟩
  · intro hsize w sid p hc hbuf hr
    have hsized : (w.sessions sid).mSendBuffer.Sized := hbuf ▸ ⟨hi, hlen.trans hsize⟩
    exact hbuf ▸ sendRequest_refused_half hc hsized p hr
  · intro ok c sid p hreach hin hc hr
    exact sendRequest_refused_half hc (hreach.buffered sid hin).2 p hr

end GameLift
