import Mathlib.Data.Finset.Sort
import GameLift.GameLiftManager
import GameLift.PacketReader

/-! The single-threaded Linux server: its sessions, its client list, and the
functions of ClientSession.cpp, ClientManager.cpp and PacketHandler.cpp on
them. System calls and the service are the environment `E`. -/

namespace GameLift

open Loop (Iter)

abbrev Socket := Nat

def bufSize : Nat := 1024 * 10

def zeroBlock : Block :=
  ⟨List.replicate bufSize 0, (List.length_replicate ..).trans_lt (by decide)⟩

theorem zeroBlock_length : zeroBlock.cells.length = bufSize := List.length_replicate ..

theorem CircularBuffer.Inv.half_free {b : CircularBuffer} (h : b.Inv)
    (hsize : b.mBuffer.length = bufSize) : 5120 ≤ b.freeSpace + b.contents.length := by
  have hroom := h.length_le_freeSpace
  rw [hsize, bufSize] at hroom
  omega

inductive ReadResult where
  | data (bytes : List Byte)
  | eagain
  | error
deriving DecidableEq, Repr

inductive WriteResult where
  | sent (n : Nat)
  | eagain
  | error
deriving DecidableEq, Repr

/-- The order in which `read`'s arguments `GetBuffer()` and
`GetFreeSpaceSize()` are evaluated, which the language leaves open. -/
inductive ArgOrder where
  | pointerFirst
  | sizeFirst
deriving DecidableEq, Repr

/-- The service and the kernel. `starts` are the states a server can start in,
and `evolves` is what may change outside between two of its steps. -/
structure Env (ε : Type) extends Sdk ε where
  starts : ε → Prop
  setLinger : Socket → ε → Bool × ε
  read : Socket → Nat → ε → ReadResult × ε
  write : Socket → List Byte → ε → WriteResult × ε
  evolves : ε → ε → Prop
  argOrder : ArgOrder
  read_le : ∀ sock len e bytes, (read sock len e).1 = .data bytes → bytes.length ≤ len
  write_sent : ∀ sock data e n, data ≠ [] → (write sock data e).1 = .sent n →
    0 < n ∧ n ≤ data.length

structure ClientSession where
  mPlayerSessionId : PlayerId
  mConnected : Bool
  mSocket : Socket
  mSendBuffer : CircularBuffer
  mRecvBuffer : CircularBuffer
deriving DecidableEq

/-- `std::map<SOCKET, std::shared_ptr<ClientSession>>`; a `none` value is the null pointer. -/
structure ClientList where
  keys : Finset Socket
  value : Socket → Option SessionId

namespace ClientList

def insert (l : ClientList) (k : Socket) (sid : SessionId) : ClientList :=
  if k ∈ l.keys then l else ⟨Insert.insert k l.keys, Function.update l.value k (some sid)⟩

def erase (l : ClientList) (k : Socket) : ClientList := { l with keys := l.keys.erase k }

/-- `operator[]` inserts a null pointer under a missing key. -/
def subscript (l : ClientList) (k : Socket) : Option SessionId × ClientList :=
  if k ∈ l.keys then (l.value k, l)
  else (none, ⟨Insert.insert k l.keys, Function.update l.value k none⟩)

end ClientList

/-- `allocated` are the session objects made so far, `accepted` the bytes each
one's socket took, and `fault` the first undefined behaviour. -/
structure Server (ε : Type) where
  env : ε
  gameLift : GameLiftManager
  sessions : SessionId → ClientSession
  allocated : Finset SessionId
  mClientList : ClientList
  accepted : SessionId → List Byte
  fault : Option Fault

namespace Server

variable {ε : Type} (E : Env ε)

def modify (w : Server ε) (sid : SessionId) (f : ClientSession → ClientSession) : Server ε :=
  { w with sessions := Function.update w.sessions sid (f (w.sessions sid)) }

def raise (w : Server ε) (f : Fault) : Server ε := { w with fault := w.fault.or (some f) }

/-- `vsprintf` of the format with its one `%s` into `char buf[128]`. -/
def printOut (w : Server ε) (fmt : String) (arg : List Byte) : Server ε :=
  if fmt.length - 2 + arg.length < 128 then w else w.raise .outOfBounds

def acceptPlayerSession (w : Server ε) (sid : SessionId) (id : PlayerId) : Bool × Server ε :=
  let (ok, m, e) := w.gameLift.acceptPlayerSession E.toSdk sid id w.env
  let v := { w with gameLift := m, env := e }
  if ok then (true, v)
  else (false, v.printOut "[GAMELIFT] AcceptPlayerSession Fail: %s\n"
    (E.acceptErrorMessage id w.env))

/-- The line of a refused removal is left out: its error names are short enough for `buf`. -/
def removePlayerSession (w : Server ε) (sid : SessionId) (id : PlayerId) : Server ε :=
  let (m, e) := w.gameLift.removePlayerSession E.toSdk sid id w.env
  { w with gameLift := m, env := e }

def deleteClient (w : Server ε) (sid : SessionId) : Server ε :=
  { w with mClientList := w.mClientList.erase (w.sessions sid).mSocket }

def onDisconnect (w : Server ε) (sid : SessionId) : Server ε :=
  if (w.sessions sid).mPlayerSessionId ≠ [] then
    (w.removePlayerSession E sid (w.sessions sid).mPlayerSessionId).modify sid
      fun s => { s with mPlayerSessionId := [] }
  else w

def disconnect (w : Server ε) (sid : SessionId) : Server ε :=
  if (w.sessions sid).mConnected then
    let (ok, e) := E.setLinger (w.sessions sid).mSocket w.env
    let w := { w with env := e }
    if ok then
      ((w.modify sid fun s => { s with mConnected := false }).onDisconnect E sid).deleteClient sid
    -- The option could not be set: the session stays connected.
    else w
  else w

/-- `pkt` is the memory at the packet pointer; `mSize` is read from it. -/
def sendRequest (w : Server ε) (sid : SessionId) (pkt : List Byte) : Bool × Server ε :=
  if (w.sessions sid).mConnected then
    match (w.sessions sid).mSendBuffer.write pkt (sizeT (PacketHeader.ofBytes pkt).mSize) with
    | .error f => (false, w.raise f)
    | .ok (ok, b) =>
      let w := w.modify sid fun s => { s with mSendBuffer := b }
      if ok then (true, w) else (false, w.disconnect E sid)
  else (false, w)

inductive FlushEnd where
  | drained
  | again
  | failed
deriving DecidableEq, Repr

def FlushEnd.answer : FlushEnd → Bool
  | .failed => false
  | _ => true

def accept (w : Server ε) (sid : SessionId) (bytes : List Byte) : Server ε :=
  { w with accepted := Function.update w.accepted sid (w.accepted sid ++ bytes) }

def sendBody (sid : SessionId) (w : Server ε) : Iter (Server ε) (FlushEnd × Server ε) :=
  let b := (w.sessions sid).mSendBuffer
  if 0 < b.getContiguiousBytes then
    match b.loadAt b.getBufferStart b.getContiguiousBytes with
    | .error f => .done (.failed, w.raise f)
    | .ok data =>
      let (r, e) := E.write (w.sessions sid).mSocket data w.env
      let w := { w with env := e }
      match r with
      | .eagain => .done (.again, w)
      | .error => .done (.failed, w)
      | .sent n =>
        let w := w.accept sid (data.take n)
        match b.remove n with
        | .error f => .done (.failed, w.raise f)
        | .ok b => .next (w.modify sid fun s => { s with mSendBuffer := b })
  else .done (.drained, w)

def sendFlush (fuel : Nat) (w : Server ε) (sid : SessionId) : Option (FlushEnd × Server ε) :=
  if (w.sessions sid).mConnected then
    if (w.sessions sid).mSendBuffer.getContiguiousBytes = 0 then some (.drained, w)
    else Loop.loop (sendBody E sid) fuel w
  else some (.failed, w)

/-- One element of the range-for over `mPlayerSessions`. Going on from an
erased element is undefined. -/
def broadcastTo (pkt : List Byte) (w : Server ε) (sid : SessionId) : Server ε :=
  let (ok, w) := w.sendRequest E sid pkt
  let w := if ok then w else w.disconnect E sid
  if sid ∈ w.gameLift.mPlayerSessions then w else w.raise .danglingIterator

def broadcastMessage (w : Server ε) (pkt : List Byte) : Server ε :=
  (w.gameLift.mPlayerSessions.sort (· ≤ ·)).foldl (broadcastTo E pkt) w

/-- The tail of `PlayerLogin` once the service has accepted the id. -/
def welcome (w : Server ε) (sid : SessionId) (id : PlayerId) : Server ε :=
  let w := w.modify sid fun s => { s with mPlayerSessionId := id }
  let w := w.printOut "[PLAYER] PlayerLogin: %s \n" id
  match loginResult id with
  | .error f => w.raise f
  | .ok pkt =>
    let (ok, w) := w.sendRequest E sid pkt
    if ok then w else (w.printOut "send request error: %s \n" id).disconnect E sid

def playerLogin (w : Server ε) (sid : SessionId) (id : PlayerId) : Server ε :=
  let (ok, w) := w.acceptPlayerSession E sid id
  if ok then w.welcome E sid id else w.disconnect E sid

def playerLogout (w : Server ε) (sid : SessionId) (id : PlayerId) : Server ε :=
  let w := w.removePlayerSession E sid id
  let w := w.modify sid fun s => { s with mPlayerSessionId := [] }
  (w.printOut "[PLAYER] PlayerLogout: %s \n" id).disconnect E sid

/-- What each handler does with the struct `ParsePacket` filled. -/
def handlePacket (sid : SessionId) (kind : Request) (image : List Byte) (w : Server ε) :
    Server ε :=
  match kind with
  | .login =>
    match cString (imagePlayerId image) with
    | none => w.raise .outOfBounds
    | some id => w.playerLogin E sid id
  | .exit =>
    match cString (imagePlayerId image) with
    | none => w.raise .outOfBounds
    | some id => w.playerLogout E sid id
  | .chat =>
    match cString (imagePlayerId image), cString (imageChat image) with
    | some id, some chat =>
      match chatBroadcastResult id chat with
      | .error f => w.raise f
      | .ok pkt => w.broadcastMessage E pkt
    | _, _ => w.raise .outOfBounds
  | .move => w.broadcastMessage E (moveBroadcastResult (imageMove image))

def receiveWindow (order : ArgOrder) (b : CircularBuffer) : Nat × Nat × CircularBuffer :=
  match order with
  | .pointerFirst => (b.getBuffer, b.getFreeSpaceSize.1, b.getFreeSpaceSize.2)
  | .sizeFirst => (b.getFreeSpaceSize.2.getBuffer, b.getFreeSpaceSize.1, b.getFreeSpaceSize.2)

/-- One `read` of `OnReceive`, up to the call of `DispatchPacket`. -/
def receiveBody (sid : SessionId) (w : Server ε) : Iter (Server ε) (Server ε) :=
  let (pointer, room, b) := receiveWindow E.argOrder (w.sessions sid).mRecvBuffer
  let (r, e) := E.read (w.sessions sid).mSocket room w.env
  let w := { w.modify sid fun s => { s with mRecvBuffer := b } with env := e }
  match r with
  | .eagain => .done w
  | .error => .done (w.disconnect E sid)
  | .data bytes =>
    match b.storeAt pointer bytes bytes.length with
    | .error f => .done (w.raise f)
    | .ok b => .next (w.modify sid fun s => { s with mRecvBuffer := b.commit bytes.length })

end Server

end GameLift
