import GameLift.ChatOrder
import GameLift.FrameReader
import GameLift.SendPipeline

/-! What a dummy player receives. A receive is handed the free part of the ring, and
`OnRead` takes the server's packets out of it as they become whole. -/

namespace GameLift

open Framing (Incomplete Takes stream)
open Loop (Iter Returns)
open scoped List

namespace DummyClients

/-- Of a PlayerSession what receiving reads and writes. Besides, `decoded` records the
structs that `ParsePacket` has filled, `printed` the names in "Login OK", `overread` the
names that run past the end of their array, `playTests` the jobs pushed for `PlayTest`,
`parseErrors` the events logged and `refusals` the calls of `DisconnectRequest`. -/
structure Receiving where
  mConnected : Bool
  mRecvBuffer : CircularBuffer
  decoded : List (Result × List Byte)
  printed : List (List Byte)
  overread : Nat
  playTests : Nat
  parseErrors : List Nat
  refusals : Nat

namespace Receiving

def connected (block : Block) : Receiving := ⟨true, .new block, [], [], 0, 0, [], 0⟩

def disconnectRequest (r : Receiving) : Receiving :=
  { r with mConnected := false, refusals := r.refusals + 1 }

/-- What a handler does with the struct it has read. -/
def handle (r : Receiving) : Result × List Byte → Receiving
  | (.login, image) =>
    let r := match cString (imagePlayerId image) with
      | some mPlayerId => { r with printed := r.printed ++ [mPlayerId] }
      | none => { r with overread := r.overread + 1 }
    { r with playTests := r.playTests + 1 }
  | (.chat, _) => r
  | (.move, _) => r

/-- A handler; a packet that cannot be read is logged with the type of the empty struct. -/
def handler (kind : Result) (r : Receiving) : Iter Receiving (Except Fault Receiving) :=
  match r.mRecvBuffer.read kind.structSize with
  | .error f => .done (.error f)
  | .ok (none, b) =>
    .next { r with mRecvBuffer := b, parseErrors := r.parseErrors ++ [kind.pktType] }
  | .ok (some image, b) =>
    .next ({ r with mRecvBuffer := b, decoded := r.decoded ++ [(kind, image)] }.handle
      (kind, image))

def readBody (r : Receiving) : Iter Receiving (Except Fault Receiving) :=
  match r.mRecvBuffer.peek sizeofPacketHeader with
  | .error f => .done (.error f)
  | .ok none => .done (.ok r)
  | .ok (some bytes) =>
    let header := PacketHeader.ofBytes bytes
    if r.mRecvBuffer.getStoredSize < sizeT header.mSize then .done (.ok r)
    else if pktMax ≤ header.mType ∨ header.mType ≤ pktNone then .done (.ok r.disconnectRequest)
    else
      match Result.ofType header.mType with
      | some kind => r.handler kind
      -- `DefaultHandler` neither reads the packet nor ends the loop.
      | none => .next r.disconnectRequest

def onRead (fuel : Nat) (r : Receiving) : Option (Except Fault Receiving) :=
  Loop.loop readBody fuel r

/-- The length of the receive, `none` where the answer is false. -/
def postRecv (r : Receiving) : Option Nat × Receiving :=
  if r.mConnected then
    let (free, b) := r.mRecvBuffer.getFreeSpaceSize
    let r := { r with mRecvBuffer := b }
    if free = 0 then (none, r) else (some (free % 0x100000000), r)
  else (none, r)

/-- The system has put `chunk` where the receive was told to. -/
def recvCompletion (fuel : Nat) (r : Receiving) (chunk : List Byte) :
    Option (Except Fault Receiving) :=
  match r.mRecvBuffer.place chunk chunk.length with
  | .error f => some (.error f)
  | .ok b => onRead fuel { r with mRecvBuffer := b }

end Receiving

open Receiving

/-- What a connection has received, the receive that is out, and the state left. -/
inductive Received (block : Block) : List Byte → Option Nat → Receiving → Prop where
  | connected : Received block [] none (.connected block)
  | posted {bytes r n r'} : Received block bytes none r → r.postRecv = (some n, r') →
      Received block bytes (some n) r'
  | completed {bytes n r chunk fuel r'} : Received block bytes (some n) r → chunk ≠ [] →
      chunk.length ≤ n → r.recvCompletion fuel chunk = some (.ok r') →
      Received block (bytes ++ chunk) none r'
  -- Other threads may disconnect.
  | disconnected {bytes out r} : Received block bytes out r →
      Received block bytes out { r with mConnected := false }

/-- `taken` is what `OnRead` has made of `bytes`, and it has not disconnected. -/
structure Reads (bytes : List Byte) (mConnected : Bool) (taken : List ServerPacket)
    (r : Receiving) : Prop where
  connected : r.mConnected = mConnected
  inv : r.mRecvBuffer.Inv
  size : r.mRecvBuffer.mBuffer.length = clientBufsize
  bytes_eq : bytes = stream ServerPacket.toBytes taken ++ r.mRecvBuffer.contents
  decoded : r.decoded = taken.map ServerPacket.recvData
  printed : r.printed = taken.filterMap ServerPacket.greeting
  overread : (∀ p ∈ taken, p.Terminated) → r.overread = 0
  playTests : r.playTests = taken.countP fun p => p.kind = .login
  parseErrors : r.parseErrors = []
  refusals : r.refusals = 0

variable {bytes more chunk : List Byte} {taken packets pending : List ServerPacket}
  {p : ServerPacket} {r r' : Receiving} {block : Block} {out : Option Nat} {mConnected : Bool}

namespace Receiving

@[simp] theorem handle_mRecvBuffer (r : Receiving) (data : Result × List Byte) :
    (r.handle data).mRecvBuffer = r.mRecvBuffer := by
  obtain ⟨kind, image⟩ := data
  cases kind with
  | login =>
    rw [handle]
    cases cString (imagePlayerId image) <;> rfl
  | chat => rfl
  | move => rfl

@[simp] theorem handle_decoded (r : Receiving) (data : Result × List Byte) :
    (r.handle data).decoded = r.decoded := by
  obtain ⟨kind, image⟩ := data
  cases kind with
  | login =>
    rw [handle]
    cases cString (imagePlayerId image) <;> rfl
  | chat => rfl
  | move => rfl

theorem handle_record (r : Receiving) (p : ServerPacket) :
    (r.handle p.recvData).mConnected = r.mConnected ∧
      (r.handle p.recvData).printed = r.printed ++ p.greeting.toList ∧
      (r.handle p.recvData).playTests = r.playTests + (if p.kind = .login then 1 else 0) ∧
      (p.Terminated → (r.handle p.recvData).overread = r.overread) ∧
      (r.handle p.recvData).parseErrors = r.parseErrors ∧
      (r.handle p.recvData).refusals = r.refusals := by
  rw [ServerPacket.recvData, ServerPacket.greeting, ServerPacket.Terminated]
  cases hk : p.kind with
  | login =>
    rw [handle, if_pos rfl]
    cases hid : cString (imagePlayerId p.toBytes) <;> simp
  | chat => simp [handle]
  | move => simp [handle]

theorem postRecv_playTests (r : Receiving) : r.postRecv.2.playTests = r.playTests := by
  unfold postRecv
  dsimp only
  split_ifs <;>
    rfl

theorem readBody_waits (h : r.mRecvBuffer.Inv)
    (hshort : r.mRecvBuffer.contents.length < sizeofPacketHeader ∨
      r.mRecvBuffer.contents.length < sizeT (PacketHeader.ofBytes r.mRecvBuffer.contents).mSize) :
    r.readBody = .done (.ok r) := by
  rw [readBody, h.peek_eq, h.getStoredSize_eq_length]
  by_cases h4 : sizeofPacketHeader ≤ r.mRecvBuffer.contents.length
  · simp only [if_pos h4, ofBytes_take]
    rw [if_pos (hshort.resolve_left (by omega))]
  · simp only [if_neg h4]

theorem readBody_takes {tail : List Byte} (h : r.mRecvBuffer.Inv)
    (hq : r.mRecvBuffer.contents = p.toBytes ++ tail) :
    ∃ b, r.mRecvBuffer.Dropped p.kind.structSize b ∧ b.contents = tail ∧ r.readBody =
      .next ({ r with mRecvBuffer := b, decoded := r.decoded ++ [p.recvData] }.handle
        p.recvData) := by
  have hl := p.length_toBytes
  have h4 := p.kind.header_le_structSize
  have hlen : r.mRecvBuffer.contents.length = p.kind.structSize + tail.length := by
    rw [hq, List.length_append, hl]
  have htake : r.mRecvBuffer.contents.take p.kind.structSize = p.toBytes := by
    rw [hq, ← hl, List.take_left]
  have hhead : PacketHeader.ofBytes r.mRecvBuffer.contents =
      ⟨p.kind.structSize, p.kind.pktType⟩ := by rw [hq, p.header_toBytes]
  have htype : ¬(pktMax ≤ (p.kind.pktType : Int) ∨ (p.kind.pktType : Int) ≤ pktNone) := by
    cases p.kind <;> decide
  obtain ⟨b, hb, hd⟩ := h.read_enough (show p.kind.structSize ≤ _ by omega)
  refine ⟨b, hd, ?_, ?_⟩
  · rw [hd.contents_eq, hq, ← hl, List.drop_left]
  · rw [readBody, h.peek_eq, h.getStoredSize_eq_length, if_pos (by omega)]
    simp only [ofBytes_take, hhead, Result.sizeT_structSize, Result.ofType_pktType, if_neg htype]
    rw [if_neg (by omega), handler, hb, htake]
    rfl

/-- `OnRead` takes the packets of a stream off the ring. -/
theorem readBody_frames (bytes : List Byte) (mConnected : Bool) : Takes readBody
    ServerPacket.toBytes (fun r => r.mRecvBuffer.contents) Except.ok (Reads bytes mConnected) where
  waits := by
    intro taken pending more r h hq hi
    apply readBody_waits h.inv
    cases pending with
    | nil =>
      have hnil : r.mRecvBuffer.contents = [] := hi
      exact Or.inl (by simp [hnil, sizeofPacketHeader])
    | cons p pending =>
      have hlt : r.mRecvBuffer.contents.length < p.toBytes.length := hi
      by_cases h4 : r.mRecvBuffer.contents.length < sizeofPacketHeader
      · exact Or.inl h4
      · have htake : r.mRecvBuffer.contents.take sizeofPacketHeader =
            (r.mRecvBuffer.contents ++ more).take sizeofPacketHeader :=
          (List.take_append_of_le_length (by omega)).symm
        have hhead : PacketHeader.ofBytes r.mRecvBuffer.contents =
            ⟨p.kind.structSize, p.kind.pktType⟩ := by
          rw [← ofBytes_take, htake, ofBytes_take, hq, Framing.stream_cons, p.header_toBytes]
        rw [p.length_toBytes] at hlt
        exact Or.inr (by rwa [hhead, Result.sizeT_structSize])
  takes := by
    intro taken p tail r h hq
    obtain ⟨b, hd, hb, hnext⟩ := readBody_takes h.inv hq
    obtain ⟨hconn, hprinted, htests, hover, herrors, hrefused⟩ := handle_record
      { r with mRecvBuffer := b, decoded := r.decoded ++ [p.recvData] } p
    refine ⟨_, hnext, by simpa using hb, ⟨hconn.trans h.connected, ?_, ?_, ?_, ?_, ?_,
      fun hterm => ?_, ?_, ?_, ?_⟩⟩
    · simpa using hd.inv
    · simpa using hd.length_eq.trans h.size
    · simp only [handle_mRecvBuffer, hb]
      rw [h.bytes_eq, hq, Framing.stream_append]
      simp [stream]
    · simp [h.decoded]
    · rw [hprinted, h.printed, List.filterMap_append]
      cases hg : p.greeting <;> simp [hg]
    · rw [hover (hterm p (by simp))]
      exact h.overread fun q hq => hterm q (List.mem_append_left _ hq)
    · rw [htests, h.playTests, List.countP_append]
      simp [List.countP_cons]
    · exact herrors.trans h.parseErrors
    · exact hrefused.trans h.refusals

end Receiving

theorem reads_connected (hsize : block.cells.length = clientBufsize) :
    Reads [] true [] (.connected block) where
  connected := rfl
  inv := CircularBuffer.inv_new block
  size := hsize
  bytes_eq := (CircularBuffer.contents_new block).symm
  decoded := rfl
  printed := rfl
  overread _ := rfl
  playTests := rfl
  parseErrors := rfl
  refusals := rfl

theorem Reads.disconnected (h : Reads bytes mConnected taken r) :
    Reads bytes false taken { r with mConnected := false } :=
  ⟨rfl, h.inv, h.size, h.bytes_eq, h.decoded, h.printed, h.overread, h.playTests, h.parseErrors,
    h.refusals⟩

theorem Reads.setBuffer {b : CircularBuffer} (h : Reads bytes mConnected taken r)
    (ha : r.mRecvBuffer.Appended chunk b) :
    Reads (bytes ++ chunk) mConnected taken { r with mRecvBuffer := b } := by
  refine ⟨h.connected, ha.inv, ha.length_eq.trans h.size, ?_, h.decoded, h.printed, h.overread,
    h.playTests, h.parseErrors, h.refusals⟩
  rw [ha.contents_eq, h.bytes_eq, List.append_assoc]

/-- A packet that is not whole leaves almost half of the ring free. -/
theorem Reads.room (h : Reads bytes mConnected taken r)
    (hi : Incomplete ServerPacket.toBytes r.mRecvBuffer.contents pending) :
    32000 ≤ r.mRecvBuffer.freeSpace ∧ r.mRecvBuffer.freeSpace ≤ clientBufsize := by
  have hleft : r.mRecvBuffer.contents.length < 260 := hi.length_lt (by decide) fun p _ =>
    Nat.le_trans (Nat.le_of_eq p.length_toBytes) p.kind.structSize_le
  have hroom := h.inv.length_le_freeSpace
  have hbound := h.inv.freeSpace_le
  rw [h.size] at hroom hbound
  refine ⟨?_, hbound⟩
  rw [clientBufsize] at hroom
  omega

theorem Reads.posts (h : Reads bytes true taken r)
    (hi : Incomplete ServerPacket.toBytes r.mRecvBuffer.contents pending) :
    r.postRecv = (some r.mRecvBuffer.freeSpace, { r with mRecvBuffer := r.mRecvBuffer.prepare }) := by
  obtain ⟨hpos, hbound⟩ := h.room hi
  have hfree : r.mRecvBuffer.getFreeSpaceSize =
      (r.mRecvBuffer.freeSpace, r.mRecvBuffer.prepare) := rfl
  have hmod : r.mRecvBuffer.freeSpace % 0x100000000 = r.mRecvBuffer.freeSpace := by
    rw [clientBufsize] at hbound
    omega
  rw [postRecv, if_pos h.connected, hfree]
  dsimp only
  rw [if_neg (by omega), hmod]

theorem Reads.completes (h : Reads bytes mConnected taken r)
    (hprep : r.mRecvBuffer.prepare = r.mRecvBuffer)
    (hfit : chunk.length ≤ r.mRecvBuffer.freeSpace)
    (hq : bytes ++ chunk ++ more = stream ServerPacket.toBytes (taken ++ pending)) :
    ∃ new later r', pending = new ++ later ∧
      (∃ fuel, r.recvCompletion fuel chunk = some (.ok r')) ∧
      Reads (bytes ++ chunk) mConnected (taken ++ new) r' ∧
      Incomplete ServerPacket.toBytes r'.mRecvBuffer.contents later := by
  obtain ⟨b, hb, ha⟩ := h.inv.place_prepare (Nat.le_refl chunk.length) hfit
  rw [hprep] at hb
  rw [List.take_length] at ha
  have hs := h.setBuffer ha
  have hmore : b.contents ++ more = stream ServerPacket.toBytes pending := by
    rw [hs.bytes_eq, Framing.stream_append, List.append_assoc,
      List.append_cancel_left_eq] at hq
    exact hq
  obtain ⟨new, later, r', hps, ⟨fuel, hret⟩, hs', -, hi⟩ :=
    (readBody_frames (bytes ++ chunk) mConnected).returns hs hmore
  refine ⟨new, later, r', hps, ⟨fuel, ?_⟩, hs', hi⟩
  rw [recvCompletion, hb]
  exact hret

/-- What a connection holds between two steps, for a peer that sends these packets. -/
structure Attends (packets : List ServerPacket) (bytes : List Byte) (out : Option Nat)
    (taken : List ServerPacket) (r : Receiving) : Prop where
  reads : Reads bytes r.mConnected taken r
  pending : ∃ later, packets = taken ++ later ∧
    Incomplete ServerPacket.toBytes r.mRecvBuffer.contents later
  window : ∀ n, out = some n → r.mRecvBuffer.prepare = r.mRecvBuffer ∧
    n = r.mRecvBuffer.freeSpace

theorem attends_connected (hsize : block.cells.length = clientBufsize)
    (packets : List ServerPacket) : Attends packets [] none [] (.connected block) := by
  refine ⟨reads_connected hsize, ⟨packets, rfl, ?_⟩, fun n hn => by cases hn⟩
  have hempty : (Receiving.connected block).mRecvBuffer.contents = [] :=
    CircularBuffer.contents_new block
  rw [hempty]
  cases packets with
  | nil => rfl
  | cons p packets => exact List.length_pos_iff.mpr p.toBytes_ne_nil

/-- A connected player can always ask for more. -/
theorem Attends.posts (h : Attends packets bytes none taken r) (hconn : r.mConnected = true) :
    ∃ n r', r.postRecv = (some n, r') ∧ r'.mConnected = true ∧ 32000 ≤ n ∧
      Attends packets bytes (some n) taken r' := by
  obtain ⟨later, hpackets, hi⟩ := h.pending
  have hreads := h.reads
  rw [hconn] at hreads
  have hpost := hreads.posts hi
  have ha := hreads.inv.appended_prepare
  have hsame := r.mRecvBuffer.getFreeSpaceSize_prepare
  refine ⟨_, _, hpost, hconn, (hreads.room hi).1, ?_, ⟨later, hpackets, ?_⟩, fun n hn => ?_⟩
  · have hs := h.reads.setBuffer ha
    rwa [List.append_nil] at hs
  · change Incomplete _ r.mRecvBuffer.prepare.contents later
    rwa [ha.contents_eq, List.append_nil]
  · cases hn
    exact ⟨congrArg Prod.snd hsame, (congrArg Prod.fst hsame).symm⟩

/-- Whatever of the stream comes next, `OnRead` comes back. -/
theorem Attends.completes {n : Nat} (h : Attends packets bytes (some n) taken r)
    (hle : chunk.length ≤ n) (hq : bytes ++ chunk <+: stream ServerPacket.toBytes packets) :
    ∃ new r', (∃ fuel, r.recvCompletion fuel chunk = some (.ok r')) ∧
      r'.mConnected = r.mConnected ∧ Attends packets (bytes ++ chunk) none (taken ++ new) r' := by
  obtain ⟨later, hpackets, -⟩ := h.pending
  obtain ⟨hprep, rfl⟩ := h.window n rfl
  obtain ⟨more, hmore⟩ := hq
  rw [hpackets] at hmore
  obtain ⟨new, rest, r', rfl, hcomp, hreads, hi⟩ := h.reads.completes hprep hle hmore
  refine ⟨new, r', hcomp, hreads.connected, ?_, ⟨rest, ?_, hi⟩, fun n hn => by cases hn⟩
  · rwa [hreads.connected]
  · rw [hpackets, List.append_assoc]

/-- Of a stream that has come whole every packet is taken. -/
theorem Attends.all_taken (h : Attends packets bytes out taken r)
    (hall : bytes = stream ServerPacket.toBytes packets) : taken = packets := by
  obtain ⟨later, hpackets, hi⟩ := h.pending
  have hbytes := h.reads.bytes_eq
  rw [hall, hpackets, Framing.stream_append, List.append_cancel_left_eq] at hbytes
  rw [hpackets, (hi.finished hbytes.symm).1, List.append_nil]

theorem Receiving.recvCompletion_unique {fuel fuel' : Nat} {a b : Except Fault Receiving}
    (h : r.recvCompletion fuel chunk = some a) (h' : r.recvCompletion fuel' chunk = some b) :
    a = b := by
  rw [recvCompletion] at h h'
  cases hp : r.mRecvBuffer.place chunk chunk.length with
  | error f =>
    rw [hp] at h h'
    exact Option.some.inj (h.symm.trans h')
  | ok ring =>
    rw [hp] at h h'
    exact Returns.unique ⟨fuel, h⟩ ⟨fuel', h'⟩

theorem Received.attends (h : Received block bytes out r)
    (hsize : block.cells.length = clientBufsize)
    (hq : bytes <+: stream ServerPacket.toBytes packets) :
    ∃ taken, Attends packets bytes out taken r := by
  induction h with
  | connected => exact ⟨[], attends_connected hsize packets⟩
  | @posted bytes r n r' _ hpost ih =>
    obtain ⟨taken, hattends⟩ := ih hq
    have hconn : r.mConnected = true := by
      by_contra hclosed
      rw [postRecv, if_neg hclosed] at hpost
      cases hpost
    obtain ⟨n', r'', hpost', -, -, hnext⟩ := hattends.posts hconn
    rw [hpost'] at hpost
    cases hpost
    exact ⟨taken, hnext⟩
  | @completed bytes n r chunk fuel r' _ _ hle hcomp ih =>
    obtain ⟨taken, hattends⟩ := ih ((List.prefix_append ..).trans hq)
    obtain ⟨new, r'', ⟨fuel', hcomp'⟩, -, hnext⟩ := hattends.completes hle hq
    cases recvCompletion_unique hcomp hcomp'
    exact ⟨taken ++ new, hnext⟩
  | disconnected _ ih =>
    obtain ⟨taken, hattends⟩ := ih hq
    exact ⟨taken, hattends.reads.disconnected, hattends.pending, hattends.window⟩

/-- All of a stream can be received, say byte by byte. -/
theorem received_all (hsize : block.cells.length = clientBufsize)
    (hq : bytes <+: stream ServerPacket.toBytes packets) :
    ∃ r, Received block bytes none r ∧ r.mConnected = true := by
  induction bytes using List.reverseRecOn with
  | nil => exact ⟨_, .connected, rfl⟩
  | append_singleton bytes b ih =>
    obtain ⟨r, hr, hconn⟩ := ih ((List.prefix_append ..).trans hq)
    obtain ⟨taken, hattends⟩ := hr.attends hsize ((List.prefix_append ..).trans hq)
    obtain ⟨n, r', hpost, hconn', hroom, hnext⟩ := hattends.posts hconn
    have hle : [b].length ≤ n := by
      simp only [List.length_singleton]
      omega
    obtain ⟨new, r'', ⟨fuel, hcomp⟩, hsame, -⟩ := hnext.completes hle hq
    exact ⟨r'', (hr.posted hpost).completed (List.cons_ne_nil b []) hle hcomp, hsame.trans hconn'⟩

open Server

variable {ε : Type} {E : Env ε}

/-- However the stream of a session is cut into receives, a dummy player reads the packets
of it and nothing else: it prints the names it is greeted with, pushes one `PlayTest` for
each LoginResult and never disconnects. While connected it can ask for more, and whatever
comes next of the stream, `OnRead` comes back. -/
theorem dummy_follows (E : Env ε) (said : List (List Byte)) (c : Config ε)
    (h : Relaying E said c) (hf : c.server.fault = none) (s : SessionId)
    (hs : s ∈ c.server.allocated) (block : Block) (hsize : block.cells.length = clientBufsize)
    (bytes : List Byte) (out : Option Nat) (r : Receiving) (hr : Received block bytes out r)
    (hbytes : bytes <+: c.server.outgoing s) :
    ∃ packets taken, Speaks c.server s packets ∧ Attends packets bytes out taken r ∧
      r.overread = 0 ∧
      (out = none → r.mConnected = true → ∃ n r', r.postRecv = (some n, r') ∧ 0 < n) ∧
      ∀ n chunk, out = some n → chunk.length ≤ n → bytes ++ chunk <+: c.server.outgoing s →
        ∃ fuel r', r.recvCompletion fuel chunk = some (.ok r') := by
  obtain ⟨hall, -, -, hshows⟩ := hall_of_run h hf
  obtain ⟨packets, hspeaks, -, -⟩ := hshows.heard s hs
  rw [hspeaks.bytes] at hbytes
  obtain ⟨taken, hattends⟩ := hr.attends hsize hbytes
  refine ⟨packets, taken, hspeaks, hattends, ?_, ?_, ?_⟩
  · obtain ⟨later, rfl, -⟩ := hattends.pending
    exact hattends.reads.overread fun p hp => hspeaks.terminated p (List.mem_append_left _ hp)
  · rintro rfl hconn
    obtain ⟨n, r', hpost, -, hroom, -⟩ := hattends.posts hconn
    exact ⟨n, r', hpost, by omega⟩
  · rintro n chunk rfl hle hq
    rw [hspeaks.bytes] at hq
    obtain ⟨-, r', ⟨fuel, hcomp⟩, -⟩ := hattends.completes hle hq
    exact ⟨fuel, r', hcomp⟩

theorem dummy_follows_chats :
    ∃ said w packets r, Relaying congested said ⟨w, .dispatching 1⟩ ∧
      Received clientBlock (w.outgoing 0) none r ∧ Speaks w 0 packets ∧ packets ≠ [] ∧
      Attends packets (w.outgoing 0) none packets r ∧ r.overread = 0 := by
  obtain ⟨said, w, hrun, hf, hl, hin⟩ := chats_relayed
  obtain ⟨hall, -, -, hshows⟩ := hall_of_run hrun hf
  obtain ⟨sent, hspeaks, -, hsome⟩ := hshows.heard 0 hin
  have hsize : clientBlock.cells.length = clientBufsize := List.length_replicate
  have hwhole : w.outgoing 0 <+: stream ServerPacket.toBytes sent :=
    ⟨[], (List.append_nil _).trans hspeaks.bytes⟩
  obtain ⟨r, hr, -⟩ := received_all hsize hwhole
  obtain ⟨packets, taken, hspeaks', hattends, hover, -, -⟩ := dummy_follows congested said _ hrun
    hf 0 hin clientBlock hsize _ none r hr (List.prefix_refl _)
  obtain rfl : sent = packets :=
    ServerPacket.stream_unique (hspeaks.bytes.symm.trans hspeaks'.bytes)
  obtain ⟨later, hlater, hi⟩ := hattends.pending
  obtain ⟨rfl, -⟩ : later = [] ∧ r.mRecvBuffer.contents = [] := by
    apply hi.finished
    have hbytes := hattends.reads.bytes_eq
    rw [show w.outgoing 0 = _ from hspeaks.bytes, hlater, Framing.stream_append,
      List.append_cancel_left_eq] at hbytes
    exact hbytes.symm
  rw [List.append_nil] at hlater
  subst hlater
  exact ⟨said, w, sent, r, hrun, hr, hspeaks, hsome hl, hattends, hover⟩

end DummyClients

end GameLift
