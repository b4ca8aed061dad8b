import GameLift.Region

/-! The byte ring of CircularBuffer.cpp: one block, a region A and, when A's
tail grows too short, a region B opened in front of it. Addresses are offsets
from `mBuffer`, and every copy and assertion is checked. -/

namespace GameLift

abbrev Byte := UInt8

/-- Conversion of an integer expression to a 64-bit `size_t`. -/
def sizeT (z : Int) : Nat := (z % 0x10000000000000000).toNat

/-- What the program may do that the language gives no meaning to. -/
inductive Fault where
  | outOfBounds
  | nullPointer
  | assertFailed
  | crashAssert
  | danglingIterator
deriving DecidableEq, Repr

/-- What `new char[capacity]` returns: `capacity` cells of any content. -/
structure Block where
  cells : List Byte
  size_lt : cells.length < 0x10000000000000000

structure CircularBuffer where
  mBuffer : List Byte
  mARegionPointer : Nat
  mARegionSize : Nat
  mBRegionPointer : Option Nat
  mBRegionSize : Nat
deriving DecidableEq, Repr

namespace CircularBuffer

def new (block : Block) : CircularBuffer := ⟨block.cells, 0, 0, none, 0⟩

def mBufferEnd (b : CircularBuffer) : Nat := b.mBuffer.length

def allocateB (b : CircularBuffer) : CircularBuffer := { b with mBRegionPointer := some 0 }

def getAFreeSpace (b : CircularBuffer) : Nat :=
  sizeT ((b.mBufferEnd : Int) - b.mARegionPointer - b.mARegionSize)

def getSpaceBeforeA (b : CircularBuffer) : Nat := sizeT ((b.mARegionPointer : Int) - 0)

def getBFreeSpace (b : CircularBuffer) : Nat :=
  match b.mBRegionPointer with
  | none => 0
  | some p => sizeT ((b.mARegionPointer : Int) - p - b.mBRegionSize)

def getFreeSpaceSize (b : CircularBuffer) : Nat × CircularBuffer :=
  if b.mBRegionPointer.isSome then (b.getBFreeSpace, b)
  -- Asking for the room may open region B.
  else if b.getAFreeSpace < b.getSpaceBeforeA then (b.allocateB.getBFreeSpace, b.allocateB)
  else (b.getAFreeSpace, b)

def getStoredSize (b : CircularBuffer) : Nat := sizeT (b.mARegionSize + b.mBRegionSize)

def getContiguiousBytes (b : CircularBuffer) : Nat :=
  if 0 < b.mARegionSize then b.mARegionSize else b.mBRegionSize

def getBuffer (b : CircularBuffer) : Nat :=
  match b.mBRegionPointer with
  | some p => p + b.mBRegionSize
  | none => b.mARegionPointer + b.mARegionSize

def getBufferStart (b : CircularBuffer) : Option Nat :=
  if 0 < b.mARegionSize then some b.mARegionPointer else b.mBRegionPointer

def commit (b : CircularBuffer) (len : Nat) : CircularBuffer :=
  if b.mBRegionPointer.isSome then { b with mBRegionSize := b.mBRegionSize + len }
  else { b with mARegionSize := b.mARegionSize + len }

def load (b : CircularBuffer) (p n : Nat) : Except Fault (List Byte) :=
  if p + n ≤ b.mBuffer.length then .ok (Region.slice b.mBuffer p n) else .error .outOfBounds

def loadAt (b : CircularBuffer) (p : Option Nat) (n : Nat) : Except Fault (List Byte) :=
  match p with
  | none => .error .nullPointer
  | some p => b.load p n

def storeAt (b : CircularBuffer) (p : Nat) (data : List Byte) (n : Nat) :
    Except Fault CircularBuffer :=
  if n ≤ data.length ∧ p + n ≤ b.mBuffer.length then
    .ok { b with mBuffer := Region.store b.mBuffer p (data.take n) }
  else .error .outOfBounds

/-- What `Peek` and `Read` copy to `destbuf`, and how much of it lay in A and in B. -/
def copyOut (b : CircularBuffer) (bytes : Nat) : Except Fault (List Byte × Nat × Nat) := do
  let aRead := if 0 < b.mARegionSize then min bytes b.mARegionSize else 0
  let fromA ← if 0 < b.mARegionSize then b.load b.mARegionPointer aRead else pure []
  let cnt := bytes - aRead
  if 0 < cnt ∧ 0 < b.mBRegionSize then
    if cnt ≤ b.mBRegionSize then
      let fromB ← b.loadAt b.mBRegionPointer cnt
      return (fromA ++ fromB, aRead, cnt)
    else .error .assertFailed
  else if cnt = 0 then return (fromA, aRead, 0)
  else .error .assertFailed

def advance (b : CircularBuffer) (aLen bLen : Nat) : CircularBuffer :=
  { b with
    mARegionPointer := b.mARegionPointer + aLen
    mARegionSize := b.mARegionSize - aLen
    mBRegionPointer := b.mBRegionPointer.map (· + bLen)
    mBRegionSize := b.mBRegionSize - bLen }

/-- The common end of `Read` and `Remove`: an emptied A takes over region B. -/
def relocate (b : CircularBuffer) : Except Fault CircularBuffer :=
  if b.mARegionSize = 0 then
    if 0 < b.mBRegionSize then do
      let kept ← b.loadAt b.mBRegionPointer b.mBRegionSize
      let b ← if b.mBRegionPointer ≠ some 0 then b.storeAt 0 kept b.mBRegionSize else pure b
      return { b with
        mARegionPointer := 0, mARegionSize := b.mBRegionSize
        mBRegionPointer := none, mBRegionSize := 0 }
    else
      return { b with
        mARegionPointer := 0, mARegionSize := 0, mBRegionPointer := none, mBRegionSize := 0 }
  else return b

/-- `none` is the answer false; otherwise the bytes now in `destbuf`. -/
def peek (b : CircularBuffer) (bytes : Nat) : Except Fault (Option (List Byte)) :=
  if b.getStoredSize < bytes then return none
  else do
    let (dest, _, _) ← b.copyOut bytes
    return some dest

def read (b : CircularBuffer) (bytes : Nat) :
    Except Fault (Option (List Byte) × CircularBuffer) :=
  if b.getStoredSize < bytes then return (none, b)
  else do
    let (dest, aRead, bRead) ← b.copyOut bytes
    let b ← (b.advance aRead bRead).relocate
    return (some dest, b)

def appendB (b : CircularBuffer) (data : List Byte) (bytes : Nat) :
    Except Fault (Bool × CircularBuffer) :=
  if b.getBFreeSpace < bytes then return (false, b)
  else
    match b.mBRegionPointer with
    | none => .error .nullPointer
    | some p => do
      let b ← b.storeAt (p + b.mBRegionSize) data bytes
      return (true, { b with mBRegionSize := b.mBRegionSize + bytes })

def appendA (b : CircularBuffer) (data : List Byte) (bytes : Nat) :
    Except Fault (Bool × CircularBuffer) :=
  if b.getAFreeSpace < bytes then return (false, b)
  else do
    let b ← b.storeAt (b.mARegionPointer + b.mARegionSize) data bytes
    return (true, { b with mARegionSize := b.mARegionSize + bytes })

/-- `data` is the memory readable at the source pointer, `bytes` the length asked for. -/
def write (b : CircularBuffer) (data : List Byte) (bytes : Nat) :
    Except Fault (Bool × CircularBuffer) :=
  if b.mBRegionPointer.isSome then b.appendB data bytes
  else if b.getAFreeSpace < b.getSpaceBeforeA then b.allocateB.appendB data bytes
  else b.appendA data bytes

def remove (b : CircularBuffer) (len : Nat) : Except Fault CircularBuffer :=
  let aRemove := if 0 < b.mARegionSize then min len b.mARegionSize else 0
  let cnt := len - aRemove
  let bRemove := if 0 < cnt ∧ 0 < b.mBRegionSize then min cnt b.mBRegionSize else 0
  (b.advance aRemove bRemove).relocate

/-- The stored bytes in the order they will be read: region A, then region B. -/
def contents (b : CircularBuffer) : List Byte :=
  Region.slice b.mBuffer b.mARegionPointer b.mARegionSize ++
    match b.mBRegionPointer with
    | none => []
    | some p => Region.slice b.mBuffer p b.mBRegionSize

end CircularBuffer

end GameLift
