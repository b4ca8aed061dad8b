import GameLift.BufferQueue
import GameLift.Playback
import GameLift.ServerFrame

/-! The outgoing stream of one session: what its socket took and what its send
buffer holds are the accepted packets end to end, at every point of every run. -/

namespace GameLift

/-- A packet object: the memory behind its pointer covers the size it declares. -/
structure Packet where
  memory : List Byte
  covers : (PacketHeader.ofBytes memory).mSize ≤ memory.length

def Packet.bytes (p : Packet) : List Byte :=
  p.memory.take (sizeT (PacketHeader.ofBytes p.memory).mSize)

/-- What a ring has room for is behind the pointer; a negative `mSize` never fits. -/
theorem Packet.declared_le (p : Packet) {b : CircularBuffer} (h : b.Inv)
    (hsize : b.mBuffer.length = bufSize)
    (hroom : sizeT (PacketHeader.ofBytes p.memory).mSize ≤ b.freeSpace) :
    sizeT (PacketHeader.ofBytes p.memory).mSize ≤ p.memory.length := by
  have hle := p.covers
  have hfree := h.freeSpace_le
  have hlow := (short_bounds (p.memory.getD 0 0) (p.memory.getD 1 0)).1
  change -32768 ≤ (PacketHeader.ofBytes p.memory).mSize at hlow
  rw [hsize, bufSize] at hfree
  simp only [sizeT] at hroom ⊢
  omega

namespace Server

variable {ε : Type} {E : Env ε}

/-- The states of runs of `SendRequest` and `SendFlush` on the session `sid`, with
the packets answered true. `round` stops between two writes of a flush. -/
inductive Sending (E : Env ε) (sid : SessionId) (block : Block) :
    List (List Byte) → Server ε → Prop where
  | fresh {w} : block.cells.length = bufSize → (w.sessions sid).mSendBuffer = .new block →
      w.accepted sid = [] → w.fault = none → Sending E sid block [] w
  | request {sent w} (p : Packet) : Sending E sid block sent w →
      Sending E sid block (if (w.sendRequest E sid p.memory).1 then sent ++ [p.bytes] else sent)
        (w.sendRequest E sid p.memory).2
  | round {sent w w'} : Sending E sid block sent w → (w.sessions sid).mConnected = true →
      sendBody E sid w = .next w' → Sending E sid block sent w'
  | flush {sent w fuel r w'} : Sending E sid block sent w →
      w.sendFlush E fuel sid = some (r, w') → Sending E sid block sent w'

def outgoing (w : Server ε) (sid : SessionId) : List Byte :=
  w.accepted sid ++ (w.sessions sid).mSendBuffer.contents

structure Streams (sid : SessionId) (sent : List (List Byte)) (w : Server ε) : Prop where
  inv : (w.sessions sid).mSendBuffer.Inv
  size : (w.sessions sid).mSendBuffer.mBuffer.length = bufSize
  bytes : w.outgoing sid = sent.flatten
  fault : w.fault = none

theorem disconnect_send (w : Server ε) (sid : SessionId) :
    ((w.disconnect E sid).sessions sid).mSendBuffer = (w.sessions sid).mSendBuffer ∧
      (w.disconnect E sid).accepted = w.accepted ∧ (w.disconnect E sid).fault = w.fault := by
  rcases disconnect_cases (E := E) w sid with ⟨-, he⟩ | ⟨-, he⟩ | ⟨-, -, he⟩ | ⟨-, -, he⟩ <;>
    rw [he] <;>
    simp [closed]

theorem Streams.disconnect {sid : SessionId} {sent : List (List Byte)} {w : Server ε}
    (h : Streams sid sent w) : Streams sid sent (w.disconnect E sid) := by
  obtain ⟨hb, ha, hf⟩ := disconnect_send (E := E) w sid
  refine ⟨hb ▸ h.inv, hb ▸ h.size, ?_, hf.trans h.fault⟩
  rw [outgoing, hb, ha]
  exact h.bytes

theorem Streams.setSend {sid : SessionId} {sent : List (List Byte)} {w : Server ε}
    {b : CircularBuffer} {data : List Byte} (h : Streams sid sent w)
    (ha : (w.sessions sid).mSendBuffer.Appended data b) :
    Streams sid (sent ++ [data]) (w.modify sid fun s => { s with mSendBuffer := b }) := by
  refine ⟨?_, ?_, ?_, h.fault⟩
  · rw [modify_sessions, if_pos rfl]
    exact ha.inv
  · rw [modify_sessions, if_pos rfl]
    exact ha.length_eq.trans h.size
  · have hb := h.bytes
    rw [outgoing] at hb
    rw [outgoing, modify_sessions, if_pos rfl, ha.contents_eq, List.flatten_append,
      List.flatten_singleton, ← hb, List.append_assoc]
    rfl

theorem Streams.sendRequest {sid : SessionId} {sent : List (List Byte)} {w : Server ε}
    (h : Streams sid sent w) (p : Packet) :
    Streams sid (if (w.sendRequest E sid p.memory).1 then sent ++ [p.bytes] else sent)
      (w.sendRequest E sid p.memory).2 := by
  rw [Server.sendRequest]
  cases hc : (w.sessions sid).mConnected with
  | false => simpa using h
  | true =>
    by_cases hfree : (w.sessions sid).mSendBuffer.freeSpace <
        sizeT (PacketHeader.ofBytes p.memory).mSize
    · rw [if_pos rfl, h.inv.write_refused p.memory hfree]
      have hs := (h.setSend h.inv.appended_prepare).disconnect (E := E)
      refine ⟨hs.inv, hs.size, ?_, hs.fault⟩
      simpa using hs.bytes
    · have hcover := p.declared_le h.inv h.size (Nat.le_of_not_lt hfree)
      obtain ⟨b, hb, ha⟩ := h.inv.write_accepted hcover (Nat.le_of_not_lt hfree)
      rw [if_pos rfl, hb]
      exact h.setSend ha

theorem Streams.sendBody {sid : SessionId} {sent : List (List Byte)} {w : Server ε}
    (h : Streams sid sent w) :
    ((w.sessions sid).mSendBuffer.contents = [] ∧ sendBody E sid w = .done (.drained, w)) ∨
    (∃ r v, sendBody E sid w = .done (r, v) ∧ r ≠ .drained ∧ Streams sid sent v) ∨
    (∃ v, sendBody E sid w = .next v ∧ Streams sid sent v ∧
      (v.sessions sid).mSendBuffer.contents.length <
        (w.sessions sid).mSendBuffer.contents.length) := by
  obtain ⟨-, hle, hext⟩ := h.inv.extent
  have hwin := h.inv.window_eq
  unfold Server.sendBody CircularBuffer.window at *
  by_cases hpos : 0 < (w.sessions sid).mSendBuffer.getContiguiousBytes
  · rw [if_pos hpos] at hwin
    simp only [if_pos hpos, hwin]
    right
    cases hr : (E.write (w.sessions sid).mSocket ((w.sessions sid).mSendBuffer.contents.take
        (w.sessions sid).mSendBuffer.getContiguiousBytes) w.env).1 with
    | eagain => exact Or.inl ⟨_, _, rfl, by simp, h.inv, h.size, h.bytes, h.fault⟩
    | error => exact Or.inl ⟨_, _, rfl, by simp, h.inv, h.size, h.bytes, h.fault⟩
    | sent n =>
      right
      have hne : (w.sessions sid).mSendBuffer.contents.take
          (w.sessions sid).mSendBuffer.getContiguiousBytes ≠ [] := by
        rw [← List.length_pos_iff, List.length_take]
        omega
      obtain ⟨hn, hn'⟩ := E.write_sent _ _ _ _ hne hr
      rw [List.length_take, Nat.min_eq_left hle] at hn'
      obtain ⟨b, hb, hd⟩ := h.inv.remove_eq n
      rw [Nat.min_eq_left (hn'.trans hle)] at hd
      simp only [hb]
      refine ⟨_, rfl, ⟨?_, ?_, ?_, h.fault⟩, ?_⟩
      · rw [modify_sessions, if_pos rfl]
        exact hd.inv
      · rw [modify_sessions, if_pos rfl]
        exact hd.length_eq.trans h.size
      · have hbytes := h.bytes
        rw [outgoing] at hbytes ⊢
        rw [modify_sessions, if_pos rfl, hd.contents_eq, ← hbytes]
        simp only [modify, accept, Function.update_self, List.take_take, Nat.min_eq_left hn',
          List.append_assoc, List.take_append_drop]
      · rw [modify_sessions, if_pos rfl]
        simp only [hd.contents_eq, List.length_drop]
        omega
  · refine Or.inl ⟨?_, if_neg hpos⟩
    by_contra hne
    exact hpos (hext hne)

theorem Streams.sendFlush {sid : SessionId} {sent : List (List Byte)} {w w' : Server ε}
    {fuel : Nat} {r : FlushEnd} (h : Streams sid sent w)
    (hf : w.sendFlush E fuel sid = some (r, w')) :
    Streams sid sent w' ∧
      (r = .drained → (w'.sessions sid).mSendBuffer.contents = []) := by
  rw [Server.sendFlush] at hf
  split_ifs at hf with hc hz
  · simp only [Option.some.injEq, Prod.mk.injEq] at hf
    obtain ⟨rfl, rfl⟩ := hf
    refine ⟨h, fun _ => ?_⟩
    by_contra hne
    have hpos := h.inv.extent.2.2 hne
    omega
  · have hret : Loop.Returns (Server.sendBody E sid) w (r, w') := ⟨fuel, hf⟩
    refine hret.invariant (Streams sid sent) (fun p => Streams sid sent p.2 ∧
      (p.1 = .drained → (p.2.sessions sid).mSendBuffer.contents = [])) h fun v hv => ?_
    rcases hv.sendBody (E := E) with ⟨hnil, hb⟩ | ⟨r, u, hb, hr, hu⟩ | ⟨u, hb, hu, -⟩ <;>
      rw [hb]
    · exact ⟨hv, fun _ => hnil⟩
    · exact ⟨hu, fun hd => absurd hd hr⟩
    · exact hu
  · simp only [Option.some.injEq, Prod.mk.injEq] at hf
    obtain ⟨rfl, rfl⟩ := hf
    exact ⟨h, by simp⟩

theorem Streams.sendFlush_returns {sid : SessionId} {sent : List (List Byte)} {w : Server ε}
    (h : Streams sid sent w) : ∃ fuel r w', w.sendFlush E fuel sid = some (r, w') := by
  have hterm : Loop.Terminates (Server.sendBody E sid) w := by
    -- Every write takes at least one byte off the buffer.
    refine Loop.terminates_of_measure
      (fun v => (v.sessions sid).mSendBuffer.contents.length) (Streams sid sent) ?_ ?_ w h
    · intro v v' hv hb
      rcases hv.sendBody (E := E) with ⟨-, he⟩ | ⟨r, u, he, -⟩ | ⟨u, he, hu, hlt⟩ <;>
        rw [he] at hb <;>
        cases hb
      exact ⟨hu, hlt⟩
    · intro v hv hb
      rcases hv.sendBody (E := E) with ⟨-, he⟩ | ⟨r, u, he, -⟩ | ⟨u, he, -⟩ <;>
        rw [he] at hb <;>
        cases hb
  unfold Server.sendFlush
  split_ifs
  · exact ⟨0, _, _, rfl⟩
  · obtain ⟨⟨r, w'⟩, fuel, hl⟩ := hterm
    exact ⟨fuel, r, w', hl⟩
  · exact ⟨0, _, _, rfl⟩

end Server

end GameLift
