import GameLift.BufferInvariant
import GameLift.Framing
import GameLift.Loop
import GameLift.PacketType

/-! The Cocos client's receiving thread. Each chunk that `recv` returns is written to the
ring, and `processPacket` reads the server's packets out of it. -/

namespace GameLift

open Loop (Iter)
open Framing (Incomplete stream)

/-- The packets that `processPacket` has a case for. -/
inductive Result where
  | login
  | chat
  | move
deriving DecidableEq, Repr

namespace Result

def pktType : Result → Nat
  | login => pktScLogin
  | chat => pktScChat
  | move => pktScMove

/-- The `mSize` of `recvData`, set by its constructor. -/
def structSize : Result → Nat
  | login => sizeofPacketHeader + maxSessionLen
  | chat => sizeofPacketHeader + maxSessionLen + maxChatLen
  | move => sizeofPacketHeader + 4 + 4 + 4

/-- The switch on `header.mType`, `none` its default. -/
def ofType (mType : Int) : Option Result :=
  if mType = pktScLogin then some login
  else if mType = pktScChat then some chat
  else if mType = pktScMove then some move
  else none

theorem structSize_le (k : Result) : k.structSize ≤ 260 := by cases k <;> decide

theorem header_le_structSize (k : Result) : sizeofPacketHeader ≤ k.structSize := by
  cases k <;> decide

theorem pktType_lt (k : Result) : k.pktType < 32768 := by cases k <;> decide

theorem ofType_pktType (k : Result) : ofType k.pktType = some k := by cases k <;> rfl

theorem sizeT_structSize (k : Result) : sizeT (k.structSize : Int) = k.structSize := by
  have h := k.structSize_le
  exact sizeT_natCast (by omega)

end Result

/-- A well-formed server packet: the struct's own size and type before any payload. -/
structure ServerPacket where
  kind : Result
  payload : List Byte
  payload_length : sizeofPacketHeader + payload.length = kind.structSize

namespace ServerPacket

def toBytes (p : ServerPacket) : List Byte :=
  headerBytes p.kind.structSize p.kind.pktType ++ p.payload

def recvData (p : ServerPacket) : Result × List Byte := (p.kind, p.toBytes)

theorem length_toBytes (p : ServerPacket) : p.toBytes.length = p.kind.structSize := by
  rw [← p.payload_length]
  simp [toBytes, headerBytes, shortBytes, sizeofPacketHeader]
  omega

theorem header_toBytes (p : ServerPacket) (rest : List Byte) :
    PacketHeader.ofBytes (p.toBytes ++ rest) = ⟨p.kind.structSize, p.kind.pktType⟩ := by
  have hs := p.kind.structSize_le
  rw [toBytes, List.append_assoc]
  exact ofBytes_headerBytes (by omega) p.kind.pktType_lt _

end ServerPacket

def int32 (bytes : List Byte) : Int :=
  let n := (bytes.getD 0 0).toNat + 256 * (bytes.getD 1 0).toNat +
    65536 * (bytes.getD 2 0).toNat + 16777216 * (bytes.getD 3 0).toNat
  if n < 2147483648 then n else n - 4294967296

/-- What the thread prints or hands to the scene; the positions are images of floats. -/
inductive SceneCall where
  -- "LOGIN OK: ID[%s]"
  | cclog (mPlayerId : List Byte)
  | chatDraw (mPlayerId mChat : List Byte)
  | updateMe (mPosX mPosY : List Byte)
  | updatePeer (mPlayerIdx : Int) (mPosX mPosY : List Byte)
deriving DecidableEq, Repr

/-- `overread` counts the packets with a string that runs past the end of its array. -/
structure Scene where
  mLoginId : Int
  calls : List SceneCall
  overread : Nat
deriving DecidableEq, Repr

namespace Scene

def init : Scene := ⟨-1, [], 0⟩

def call (s : Scene) (c : SceneCall) : Scene := { s with calls := s.calls ++ [c] }

def miss (s : Scene) : Scene := { s with overread := s.overread + 1 }

/-- The rest of a case of the switch, once `recvData` is read. -/
def handle (s : Scene) : Result × List Byte → Scene
  | (.login, image) =>
    let s := match cString (imagePlayerId image) with
      | some mPlayerId => s.call (.cclog mPlayerId)
      | none => s.miss
    { s with mLoginId := 416 }
  | (.chat, image) =>
    match cString (imagePlayerId image), cString (imageChat image) with
    | some mPlayerId, some mChat => s.call (.chatDraw mPlayerId mChat)
    | _, _ => s.miss
  | (.move, image) =>
    let mPlayerIdx := int32 (Region.slice image sizeofPacketHeader 4)
    let mPosX := Region.slice image (sizeofPacketHeader + 4) 4
    let mPosY := Region.slice image (sizeofPacketHeader + 8) 4
    if mPlayerIdx = s.mLoginId then s.call (.updateMe mPosX mPosY)
    else s.call (.updatePeer mPlayerIdx mPosX mPosY)

end Scene

/-- `decoded` records the structs `Read` has filled. -/
structure TcpClient where
  mRecvBuffer : CircularBuffer
  scene : Scene
  decoded : List (Result × List Byte)

namespace TcpClient

def bufSize : Nat := 32768

def new (block : Block) : TcpClient := ⟨.new block, .init, []⟩

def receive (c : TcpClient) (kind : Result) : Iter TcpClient (Except Fault TcpClient) :=
  match c.mRecvBuffer.read kind.structSize with
  | .error f => .done (.error f)
  -- assert(ret)
  | .ok (none, _) => .done (.error .assertFailed)
  | .ok (some image, b) =>
    .next ⟨b, c.scene.handle (kind, image), c.decoded ++ [(kind, image)]⟩

def processBody (c : TcpClient) : Iter TcpClient (Except Fault TcpClient) :=
  match c.mRecvBuffer.peek sizeofPacketHeader with
  | .error f => .done (.error f)
  | .ok none => .done (.ok c)
  | .ok (some bytes) =>
    let header := PacketHeader.ofBytes bytes
    if c.mRecvBuffer.getStoredSize < sizeT header.mSize then .done (.ok c)
    else
      match Result.ofType header.mType with
      | some kind => c.receive kind
      | none => .done (.error .assertFailed)

def processPacket (fuel : Nat) (c : TcpClient) : Option (Except Fault TcpClient) :=
  Loop.loop processBody fuel c

/-- `inBuf` after `recv` has put `chunk` into it. -/
def inBuf (chunk : List Byte) : List Byte := chunk ++ List.replicate (4096 - chunk.length) 0

/-- One round of `networkThread`, in which `recv` returns `chunk`. -/
def networkRound (fuel : Nat) (c : TcpClient) (chunk : List Byte) :
    Option (Except Fault TcpClient) :=
  if chunk.length < 1 then some (.ok c)
  else
    match c.mRecvBuffer.write (inBuf chunk) chunk.length with
    | .error f => some (.error f)
    | .ok (false, _) => some (.error .assertFailed)
    | .ok (true, b) => processPacket fuel { c with mRecvBuffer := b }

def networkThread (fuel : Nat) (c : TcpClient) : List (List Byte) → Option (Except Fault TcpClient)
  | [] => some (.ok c)
  | chunk :: chunks =>
    match networkRound fuel c chunk with
    | some (.ok c') => networkThread fuel c' chunks
    | r => r

theorem processBody_waits {c : TcpClient} (h : c.mRecvBuffer.Inv)
    (hshort : c.mRecvBuffer.contents.length < sizeofPacketHeader ∨
      c.mRecvBuffer.contents.length <
        sizeT (PacketHeader.ofBytes c.mRecvBuffer.contents).mSize) :
    processBody c = .done (.ok c) := by
  rw [processBody, h.peek_eq, h.getStoredSize_eq_length]
  by_cases h4 : sizeofPacketHeader ≤ c.mRecvBuffer.contents.length
  · rw [if_pos h4]
    dsimp only
    rw [ofBytes_take, if_pos (hshort.resolve_left (by omega))]
  · rw [if_neg h4]

theorem processBody_reads {c : TcpClient} {p : ServerPacket} {tail : List Byte}
    (h : c.mRecvBuffer.Inv) (hq : c.mRecvBuffer.contents = p.toBytes ++ tail) :
    ∃ b, c.mRecvBuffer.Dropped p.kind.structSize b ∧ b.contents = tail ∧
      processBody c = .next ⟨b, c.scene.handle p.recvData, c.decoded ++ [p.recvData]⟩ := by
  have hl := p.length_toBytes
  have h4 := p.kind.header_le_structSize
  have hlen : c.mRecvBuffer.contents.length = p.kind.structSize + tail.length := by
    rw [hq, List.length_append, hl]
  have htake : c.mRecvBuffer.contents.take p.kind.structSize = p.toBytes := by
    rw [hq, ← hl, List.take_left]
  have hhead : PacketHeader.ofBytes c.mRecvBuffer.contents =
      ⟨p.kind.structSize, p.kind.pktType⟩ := by rw [hq, p.header_toBytes]
  obtain ⟨b, hb, hd⟩ := h.read_enough (n := p.kind.structSize) (by omega)
  refine ⟨b, hd, ?_, ?_⟩
  · rw [hd.contents_eq, hq, ← hl, List.drop_left]
  · rw [processBody, h.peek_eq, h.getStoredSize_eq_length, if_pos (by omega)]
    dsimp only
    rw [ofBytes_take, hhead]
    dsimp only
    rw [Result.sizeT_structSize, if_neg (by omega), Result.ofType_pktType]
    simp only [receive, hb, htake]
    rfl

/-- What the thread has made of the packets it has had in full. -/
structure Synced (handled : List ServerPacket) (sent : List Byte) (c : TcpClient) : Prop where
  inv : c.mRecvBuffer.Inv
  size : c.mRecvBuffer.mBuffer.length = bufSize
  decoded : c.decoded = handled.map ServerPacket.recvData
  scene : c.scene = c.decoded.foldl Scene.handle .init
  bytes : sent = stream ServerPacket.toBytes handled ++ c.mRecvBuffer.contents

theorem synced_new {block : Block} (hsize : block.cells.length = bufSize) :
    Synced [] [] (new block) where
  inv := CircularBuffer.inv_new block
  size := hsize
  decoded := rfl
  scene := rfl
  bytes := (CircularBuffer.contents_new block).symm

theorem Synced.waits {handled pending : List ServerPacket} {p : ServerPacket}
    {sent more : List Byte} {c : TcpClient} (h : Synced handled sent c)
    (hq : c.mRecvBuffer.contents ++ more = stream ServerPacket.toBytes (p :: pending))
    (hlt : c.mRecvBuffer.contents.length < p.toBytes.length) :
    processBody c = .done (.ok c) := by
  refine processBody_waits h.inv ?_
  by_cases h4 : c.mRecvBuffer.contents.length < sizeofPacketHeader
  · exact Or.inl h4
  · have htake : c.mRecvBuffer.contents.take sizeofPacketHeader =
        (c.mRecvBuffer.contents ++ more).take sizeofPacketHeader :=
      (List.take_append_of_le_length (by omega)).symm
    have hhead : PacketHeader.ofBytes c.mRecvBuffer.contents =
        ⟨p.kind.structSize, p.kind.pktType⟩ := by
      rw [← ofBytes_take, htake, ofBytes_take, hq, Framing.stream_cons, p.header_toBytes]
    rw [hhead]
    rw [p.length_toBytes] at hlt
    exact Or.inr (by rwa [Result.sizeT_structSize])

theorem Synced.next {handled : List ServerPacket} {p : ServerPacket} {sent tail : List Byte}
    {c : TcpClient} (h : Synced handled sent c)
    (hq : c.mRecvBuffer.contents = p.toBytes ++ tail) :
    ∃ c', processBody c = .next c' ∧ Synced (handled ++ [p]) sent c' ∧
      c'.mRecvBuffer.contents = tail := by
  obtain ⟨b, hd, hb, hnext⟩ := processBody_reads h.inv hq
  refine ⟨_, hnext, ⟨hd.inv, hd.length_eq.trans h.size, ?_, ?_, ?_⟩, hb⟩
  · simp only [h.decoded, List.map_append, List.map_singleton]
  · simp only [List.foldl_append, ← h.scene, List.foldl_cons, List.foldl_nil]
  · rw [h.bytes, hq, Framing.stream_append, hb]
    simp [stream]

theorem Synced.returns {handled pending : List ServerPacket} {sent more : List Byte}
    {c : TcpClient} (h : Synced handled sent c)
    (hq : c.mRecvBuffer.contents ++ more = stream ServerPacket.toBytes pending) :
    ∃ new later c', pending = new ++ later ∧ Loop.Returns processBody c (.ok c') ∧
      Synced (handled ++ new) sent c' ∧
      Incomplete ServerPacket.toBytes c'.mRecvBuffer.contents later := by
  induction pending generalizing handled c with
  | nil =>
    have hnil : c.mRecvBuffer.contents = [] := (List.append_eq_nil_iff.mp hq).1
    have hwait : processBody c = .done (.ok c) :=
      processBody_waits h.inv (Or.inl (by simp [hnil, sizeofPacketHeader]))
    exact ⟨[], [], c, rfl, .of_done hwait, by rwa [List.append_nil], hnil⟩
  | cons p ps ih =>
    rcases Framing.front_cases (Framing.stream_cons p ps ▸ hq) with hlt | ⟨tail, htail, hmore⟩
    · exact ⟨[], p :: ps, c, rfl, .of_done (h.waits hq hlt), by rwa [List.append_nil], hlt⟩
    · obtain ⟨c₁, hnext, h₁, hc₁⟩ := h.next htail
      obtain ⟨new, later, c', rfl, hret, hs, hi⟩ := ih h₁ (hc₁ ▸ hmore)
      exact ⟨p :: new, later, c', rfl, .of_next hnext hret, by simpa using hs, hi⟩

theorem Synced.round {handled pending : List ServerPacket} {sent chunk more : List Byte}
    {c : TcpClient} (h : Synced handled sent c)
    (hi : Incomplete ServerPacket.toBytes c.mRecvBuffer.contents pending)
    (hcut : sent ++ chunk ++ more = stream ServerPacket.toBytes (handled ++ pending))
    (hshort : chunk.length ≤ 4096) :
    ∃ new later c', pending = new ++ later ∧
      (∃ fuel, networkRound fuel c chunk = some (.ok c')) ∧
      Synced (handled ++ new) (sent ++ chunk) c' ∧
      Incomplete ServerPacket.toBytes c'.mRecvBuffer.contents later := by
  by_cases hne : chunk.length < 1
  · obtain rfl : chunk = [] := List.eq_nil_of_length_eq_zero (by omega)
    exact ⟨[], pending, c, rfl, ⟨0, if_pos hne⟩, by simpa using h, hi⟩
  · -- Half of the ring, less the packet that is not whole, is more than a chunk.
    have hleft : c.mRecvBuffer.contents.length < 260 := hi.length_lt (by decide) fun p _ =>
      Nat.le_trans (Nat.le_of_eq p.length_toBytes) p.kind.structSize_le
    have hroom := h.inv.length_le_freeSpace
    rw [h.size, bufSize] at hroom
    have hbuf : chunk.length ≤ (inBuf chunk).length := by
      rw [inBuf, List.length_append]
      omega
    obtain ⟨b, hb, ha⟩ := h.inv.write_accepted hbuf (by omega)
    have htake : (inBuf chunk).take chunk.length = chunk := List.take_left
    rw [htake] at ha
    have hs : Synced handled (sent ++ chunk) { c with mRecvBuffer := b } := by
      refine ⟨ha.inv, ha.length_eq.trans h.size, h.decoded, h.scene, ?_⟩
      rw [ha.contents_eq, h.bytes, List.append_assoc]
    have hmore : b.contents ++ more = stream ServerPacket.toBytes pending := by
      rw [hs.bytes, Framing.stream_append, List.append_assoc,
        List.append_cancel_left_eq] at hcut
      exact hcut
    obtain ⟨new, later, c', hps, ⟨fuel, hret⟩, hs', hi'⟩ := hs.returns hmore
    refine ⟨new, later, c', hps, ⟨fuel, ?_⟩, hs', hi'⟩
    rw [networkRound, if_neg hne, hb]
    exact hret

theorem networkRound_mono {fuel fuel' : Nat} {c : TcpClient} {chunk : List Byte}
    {r : Except Fault TcpClient} (h : networkRound fuel c chunk = some r) (hle : fuel ≤ fuel') :
    networkRound fuel' c chunk = some r := by
  rw [networkRound] at h ⊢
  split_ifs at h ⊢ with hne
  · exact h
  · cases hw : c.mRecvBuffer.write (inBuf chunk) chunk.length with
    | error f => rwa [hw] at h
    | ok written =>
      obtain ⟨ok, b⟩ := written
      rw [hw] at h
      cases ok with
      | false => exact h
      | true => exact Loop.loop_mono h hle

theorem networkThread_mono {fuel fuel' : Nat} {c : TcpClient} {chunks : List (List Byte)}
    {r : Except Fault TcpClient} (h : networkThread fuel c chunks = some r)
    (hle : fuel ≤ fuel') : networkThread fuel' c chunks = some r := by
  induction chunks generalizing c with
  | nil => exact h
  | cons chunk chunks ih =>
    rw [networkThread] at h ⊢
    cases hr : networkRound fuel c chunk with
    | none =>
      rw [hr] at h
      cases h
    | some out =>
      rw [networkRound_mono hr hle]
      rw [hr] at h
      cases out with
      | error f => exact h
      | ok c' => exact ih h

theorem Synced.run {handled pending : List ServerPacket} {sent rest : List Byte}
    {chunks : List (List Byte)} {c : TcpClient} (h : Synced handled sent c)
    (hi : Incomplete ServerPacket.toBytes c.mRecvBuffer.contents pending)
    (hcut : sent ++ chunks.flatten ++ rest = stream ServerPacket.toBytes (handled ++ pending))
    (hshort : ∀ chunk ∈ chunks, chunk.length ≤ 4096) :
    ∃ new later c', pending = new ++ later ∧
      (∃ fuel, networkThread fuel c chunks = some (.ok c')) ∧
      Synced (handled ++ new) (sent ++ chunks.flatten) c' ∧
      Incomplete ServerPacket.toBytes c'.mRecvBuffer.contents later := by
  induction chunks generalizing handled pending sent c with
  | nil => exact ⟨[], pending, c, rfl, ⟨0, rfl⟩, by simpa using h, hi⟩
  | cons chunk chunks ih =>
    have hfirst : sent ++ chunk ++ (chunks.flatten ++ rest) =
        stream ServerPacket.toBytes (handled ++ pending) := by
      simpa [List.append_assoc] using hcut
    obtain ⟨new, later, c₁, rfl, ⟨f, hf⟩, h₁, hi₁⟩ :=
      h.round hi hfirst (hshort chunk List.mem_cons_self)
    have hlater : sent ++ chunk ++ chunks.flatten ++ rest =
        stream ServerPacket.toBytes (handled ++ new ++ later) := by
      simpa [List.append_assoc] using hcut
    obtain ⟨new', later', c', rfl, ⟨f', hf'⟩, h', hi'⟩ :=
      ih h₁ hi₁ hlater fun chunk hc => hshort chunk (List.mem_cons_of_mem _ hc)
    refine ⟨new ++ new', later', c', (List.append_assoc ..).symm, ⟨max f f', ?_⟩, ?_, hi'⟩
    · rw [networkThread, networkRound_mono hf (Nat.le_max_left ..)]
      exact networkThread_mono hf' (Nat.le_max_right ..)
    · simpa [List.append_assoc] using h'

end TcpClient

def ServerPacket.Terminated (p : ServerPacket) : Prop :=
  match p.kind with
  | .login => (cString (imagePlayerId p.toBytes)).isSome
  | .chat => (cString (imagePlayerId p.toBytes)).isSome ∧ (cString (imageChat p.toBytes)).isSome
  | .move => True

theorem Scene.handle_overread (s : Scene) {p : ServerPacket} (hp : p.Terminated) :
    (s.handle p.recvData).overread = s.overread := by
  rw [ServerPacket.Terminated] at hp
  rw [ServerPacket.recvData]
  cases hk : p.kind with
  | login =>
    simp only [hk] at hp
    obtain ⟨id, hid⟩ := Option.isSome_iff_exists.mp hp
    simp [handle, hid, call]
  | chat =>
    simp only [hk] at hp
    obtain ⟨id, hid⟩ := Option.isSome_iff_exists.mp hp.1
    obtain ⟨chat, hchat⟩ := Option.isSome_iff_exists.mp hp.2
    simp [handle, hid, hchat, call]
  | move =>
    rw [handle]
    split_ifs <;> rfl

theorem Scene.foldl_overread (s : Scene) {packets : List ServerPacket}
    (h : ∀ p ∈ packets, p.Terminated) :
    ((packets.map ServerPacket.recvData).foldl handle s).overread = s.overread := by
  induction packets generalizing s with
  | nil => rfl
  | cons p ps ih =>
    rw [List.map_cons, List.foldl_cons, ih _ fun q hq => h q (List.mem_cons_of_mem _ hq)]
    exact s.handle_overread (h p List.mem_cons_self)

namespace TcpClient

/-- However the server's packets are cut into chunks that fit `inBuf`, the thread comes
through every chunk without a failed assertion. It has then decoded, in order and once,
the packets that are complete, and the ring holds the start of the next. -/
theorem networkThread_decodes (block : Block) (hsize : block.cells.length = bufSize)
    (packets : List ServerPacket) (chunks : List (List Byte)) (rest : List Byte)
    (hcut : chunks.flatten ++ rest = stream ServerPacket.toBytes packets)
    (hshort : ∀ chunk ∈ chunks, chunk.length ≤ 4096) :
    ∃ handled pending c, packets = handled ++ pending ∧
      (∃ fuel, networkThread fuel (new block) chunks = some (.ok c)) ∧
      c.decoded = handled.map ServerPacket.recvData ∧
      c.scene = c.decoded.foldl Scene.handle .init ∧
      ((∀ p ∈ handled, p.Terminated) → c.scene.overread = 0) ∧
      chunks.flatten = stream ServerPacket.toBytes handled ++ c.mRecvBuffer.contents ∧
      Incomplete ServerPacket.toBytes c.mRecvBuffer.contents pending ∧
      (rest = [] → handled = packets ∧ c.mRecvBuffer.contents = []) := by
  have hnew : (new block).mRecvBuffer.contents = [] := CircularBuffer.contents_new block
  have hstart : Incomplete ServerPacket.toBytes (new block).mRecvBuffer.contents packets := by
    rw [hnew]
    cases packets with
    | nil => rfl
    | cons p ps =>
      have h4 := p.kind.header_le_structSize
      rw [← p.length_toBytes, sizeofPacketHeader] at h4
      exact Nat.lt_of_lt_of_le (by decide) h4
  have hall : [] ++ chunks.flatten ++ rest = stream ServerPacket.toBytes ([] ++ packets) := hcut
  obtain ⟨handled, pending, c, hps, hrun, hs, hi⟩ := (synced_new hsize).run hstart hall hshort
  rw [List.nil_append] at hs
  have hbytes := hs.bytes
  rw [List.nil_append] at hbytes
  refine ⟨handled, pending, c, hps, hrun, hs.decoded, hs.scene, ?_, hbytes, hi, ?_⟩
  · intro hterm
    rw [hs.scene, hs.decoded]
    exact Scene.foldl_overread _ hterm
  · rintro rfl
    rw [List.append_nil, hbytes, hps, Framing.stream_append, List.append_cancel_left_eq] at hcut
    obtain ⟨rfl, hnil⟩ := hi.finished hcut
    exact ⟨by rw [hps, List.append_nil], hnil⟩

def zeroed : Block :=
  ⟨List.replicate bufSize 0, Nat.lt_of_le_of_lt (Nat.le_of_eq List.length_replicate) (by decide)⟩

theorem networkThread_decodes_move :
    ∃ c, (∃ fuel, networkThread fuel (new zeroed)
        [headerBytes 16 22 ++ [1, 2, 3], [4, 5, 6, 7, 8, 9, 10, 11, 12]] = some (.ok c)) ∧
      c.decoded = [(.move, headerBytes 16 22 ++ [1, 2, 3, 4, 5, 6, 7, 8, 9, 10, 11, 12])] ∧
      c.mRecvBuffer.contents = [] := by
  let p : ServerPacket := ⟨.move, [1, 2, 3, 4, 5, 6, 7, 8, 9, 10, 11, 12], rfl⟩
  obtain ⟨handled, -, c, -, hrun, hdecoded, -, -, -, -, hend⟩ :=
    networkThread_decodes zeroed List.length_replicate [p]
      [headerBytes 16 22 ++ [1, 2, 3], [4, 5, 6, 7, 8, 9, 10, 11, 12]] [] (by decide) (by decide)
  obtain ⟨rfl, hnil⟩ := hend rfl
  exact ⟨c, hrun, hdecoded, hnil⟩

end TcpClient

end GameLift
