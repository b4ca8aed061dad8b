import GameLift.CircularBuffer

/-! The packed structs of PacketType.h as byte images: a four-byte header of two
little-endian shorts, then fixed-size fields. -/

namespace GameLift

def asciiBytes (s : String) : List Byte := s.toList.map fun c => UInt8.ofNat c.toNat

def maxChatLen : Nat := 128

def maxSessionLen : Nat := 128

def maxPlayerPerGame : Int := 8

def pktNone : Int := 0

def pktCsLogin : Nat := 1

def pktScLogin : Nat := 2

def pktCsChat : Nat := 11

def pktScChat : Nat := 12

def pktCsMove : Nat := 21

def pktScMove : Nat := 22

def pktCsExit : Nat := 31

def pktMax : Int := 1024

/-- The value of two bytes read as a signed 16-bit `short`. -/
def short (lo hi : Byte) : Int :=
  let n := lo.toNat + 256 * hi.toNat
  if n < 32768 then n else n - 65536

def shortBytes (n : Nat) : List Byte := [UInt8.ofNat n, UInt8.ofNat (n / 256)]

structure PacketHeader where
  mSize : Int
  mType : Int
deriving DecidableEq, Repr

def sizeofPacketHeader : Nat := 4

def PacketHeader.ofBytes (bytes : List Byte) : PacketHeader where
  mSize := short (bytes.getD 0 0) (bytes.getD 1 0)
  mType := short (bytes.getD 2 0) (bytes.getD 3 0)

inductive Request where
  | login
  | chat
  | move
  | exit
deriving DecidableEq, Repr

def Request.pktType : Request → Nat
  | .login => pktCsLogin
  | .chat => pktCsChat
  | .move => pktCsMove
  | .exit => pktCsExit

/-- `sizeof` of the struct, which its constructor also puts into `mSize`. -/
def Request.structSize : Request → Nat
  | .login => sizeofPacketHeader + maxSessionLen
  | .chat => sizeofPacketHeader + maxSessionLen + maxChatLen
  | .move => sizeofPacketHeader + 4 + 4 + 4
  | .exit => sizeofPacketHeader + maxSessionLen

/-- `none` stands for the entry `DefaultHandler`. -/
def handlerTable (mType : Int) : Option Request :=
  if mType = pktCsLogin then some .login
  else if mType = pktCsChat then some .chat
  else if mType = pktCsMove then some .move
  else if mType = pktCsExit then some .exit
  else none

def imagePlayerId (image : List Byte) : List Byte :=
  Region.slice image sizeofPacketHeader maxSessionLen

def imageChat (image : List Byte) : List Byte :=
  Region.slice image (sizeofPacketHeader + maxSessionLen) maxChatLen

def imageMove (image : List Byte) : List Byte := Region.slice image sizeofPacketHeader 12

/-- The string in a character array, `none` when no terminator follows in it. -/
def cString : List Byte → Option (List Byte)
  | [] => none
  | c :: cs => if c = 0 then some [] else (cString cs).map (c :: ·)

/-- `strcpy` of a terminated string into the array `dest`. -/
def strcpy (dest s : List Byte) : Except Fault (List Byte) :=
  if s.length < dest.length then .ok (s ++ 0 :: dest.drop (s.length + 1))
  else .error .outOfBounds

def headerBytes (mSize mType : Nat) : List Byte := shortBytes mSize ++ shortBytes mType

/-- A LoginResult after `strcpy(outPacket.mPlayerId, playerId)`. -/
def loginResult (playerId : List Byte) : Except Fault (List Byte) := do
  let mPlayerId ← strcpy (List.replicate maxSessionLen 0) playerId
  return headerBytes (sizeofPacketHeader + maxSessionLen) pktScLogin ++ mPlayerId

def chatBroadcastResult (playerId chat : List Byte) : Except Fault (List Byte) := do
  let mPlayerId ← strcpy (List.replicate maxSessionLen 0) playerId
  let mChat ← strcpy (List.replicate maxChatLen 0) chat
  return headerBytes (sizeofPacketHeader + maxSessionLen + maxChatLen) pktScChat ++
    (mPlayerId ++ mChat)

def moveBroadcastResult (fields : List Byte) : List Byte :=
  headerBytes (sizeofPacketHeader + 12) pktScMove ++ fields

/-- A well-formed client packet: the struct's own size and type before any payload. -/
structure ClientPacket where
  kind : Request
  payload : List Byte
  payload_length : sizeofPacketHeader + payload.length = kind.structSize

def ClientPacket.toBytes (p : ClientPacket) : List Byte :=
  headerBytes p.kind.structSize p.kind.pktType ++ p.payload

theorem short_shortBytes {n : Nat} (h : n < 32768) :
    short (UInt8.ofNat n) (UInt8.ofNat (n / 256)) = n := by
  have h1 : (UInt8.ofNat n).toNat = n % 256 := by simp
  have h2 : (UInt8.ofNat (n / 256)).toNat = n / 256 % 256 := by simp
  simp only [short, h1, h2]
  rw [if_pos (by omega)]
  omega

theorem short_bounds (lo hi : Byte) : -32768 ≤ short lo hi ∧ short lo hi < 32768 := by
  have h1 := lo.toNat_lt
  have h2 := hi.toNat_lt
  unfold short
  dsimp only
  split_ifs <;> omega

theorem ofBytes_headerBytes {mSize mType : Nat} (hs : mSize < 32768) (ht : mType < 32768)
    (rest : List Byte) :
    PacketHeader.ofBytes (headerBytes mSize mType ++ rest) = ⟨mSize, mType⟩ := by
  simp [PacketHeader.ofBytes, headerBytes, shortBytes, short_shortBytes hs, short_shortBytes ht]

theorem ofBytes_take {bytes : List Byte} :
    PacketHeader.ofBytes (bytes.take sizeofPacketHeader) = PacketHeader.ofBytes bytes := by
  simp [PacketHeader.ofBytes, sizeofPacketHeader]

theorem Request.structSize_pos (k : Request) : 0 < k.structSize := by cases k <;> decide

theorem Request.structSize_lt (k : Request) : k.structSize < 32768 := by cases k <;> decide

theorem Request.pktType_lt (k : Request) : k.pktType < 32768 := by cases k <;> decide

theorem Request.header_le_structSize (k : Request) : sizeofPacketHeader ≤ k.structSize := by
  cases k <;> decide

theorem handlerTable_pktType (k : Request) : handlerTable k.pktType = some k := by
  cases k <;> rfl

theorem ClientPacket.length_toBytes (p : ClientPacket) : p.toBytes.length = p.kind.structSize := by
  rw [← p.payload_length]
  simp [toBytes, headerBytes, shortBytes, sizeofPacketHeader]
  omega

theorem ClientPacket.header_toBytes (p : ClientPacket) (rest : List Byte) :
    PacketHeader.ofBytes (p.toBytes ++ rest) = ⟨p.kind.structSize, p.kind.pktType⟩ := by
  rw [toBytes, List.append_assoc]
  exact ofBytes_headerBytes p.kind.structSize_lt p.kind.pktType_lt _

end GameLift
