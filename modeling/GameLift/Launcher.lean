import Mathlib.Logic.Function.Basic
import GameLift.GameSession
import GameLift.Lockstep

/-! The launcher of the dummy clients: GameLiftManager.cpp with the player sessions of
GameSession.cpp. All clients are prepared first, for every game session; then each game
session is started, and its clients connected. -/

namespace GameLift

namespace DummyClients

/-- What `bind` and `CreateIoCompletionPort` say to the socket of a client. -/
structure SocketResults where
  bound : Bool
  attached : Bool
deriving DecidableEq, Repr

structure ConnectAddr where
  port : Int
  ip : String
deriving DecidableEq, Repr

/-- `mConnectAddr` is set when the connection is requested. -/
structure PlayerSession where
  mConnectAddr : Option ConnectAddr
  mPlayerSessionId : String
  mPlayerIdx : Int
deriving DecidableEq, Repr

def PlayerSession.new : PlayerSession := ⟨none, "", -1⟩

def prepareSession (r : SocketResults) : Bool :=
  if r.bound = false then false
  else if r.attached = false then false
  else true

/-- The I/O threads are part of the environment: they connect the clients they were asked to. -/
structure Host (ε : Type) extends AwsClient ε where
  connectEx : ClientId → ConnectAddr → ε → ε
  isConnected : ClientId → ε → Bool

structure Launcher (ε : Type) where
  env : ε
  allocated : Nat
  players : ClientId → PlayerSession

variable {ε : Type}

namespace Launcher

def new (e : ε) : Launcher ε := ⟨e, 0, fun _ => PlayerSession.new⟩

def allocate (w : Launcher ε) : Launcher ε :=
  { w with
    allocated := w.allocated + 1
    players := Function.update w.players w.allocated PlayerSession.new }

def set (w : Launcher ε) (c : ClientId) (p : PlayerSession) : Launcher ε :=
  { w with players := Function.update w.players c p }

/-- `mConnected`, which `ConnectCompletion` sets, thus never before a request. -/
def mConnected (E : Host ε) (w : Launcher ε) (c : ClientId) : Bool :=
  (w.players c).mConnectAddr.isSome && E.isConnected c w.env

end Launcher

/-- `TEST_PLAYER_SESSION_EXCEPT` for `DUMMY_PLAYER_SESSION_PER_GAME_SESSION`. -/
def testPlayerSessionExcept (dummySessionCountPerGameSession : Int) : Int :=
  maxPlayerPerGame - dummySessionCountPerGameSession

namespace GameSession

def playerCount (except : Int) (s : GameSession) : Nat := (s.mMaxPlayerCount - except).toNat

/-- The rounds of `PreparePlayerSessions` from the i-th on, of which `n` are left. -/
def prepareFrom (results : Nat → SocketResults) :
    Nat → Nat → GameSession → Launcher ε → Bool × GameSession × Launcher ε
  | 0, _, s, w => (true, s, w)
  | n + 1, i, s, w =>
    if prepareSession (results i) = false then (false, s, w.allocate)
    else prepareFrom results n (i + 1)
      { s with mReadySessionList := s.mReadySessionList ++ [w.allocated] } w.allocate

def preparePlayerSessions (except : Int) (results : Nat → SocketResults) (s : GameSession)
    (w : Launcher ε) : Bool × GameSession × Launcher ε :=
  prepareFrom results (s.playerCount except) 0 s w

def playerIds (except : Int) (s : GameSession) : List String :=
  (List.range (s.playerCount except)).map fun i : Nat =>
    "DummyPlayer" ++ toString (s.mStartPlayerId + i)

def createPlayerSessions (A : AwsClient ε) (except : Int) (s : GameSession) (e : ε) :
    Option (Bool × GameSession × ε) :=
  s.guarded fun s =>
    match A.createPlayerSessions s.mGameSessionId (s.playerIds except) e with
    | (.success l, e) => some (true, { s with mPlayerSessionList := l }, e)
    | (.failure, e) => some (false, s, e)

/-- Where the clients of the game session connect to; the port is cut to 16 bits. -/
def connectAddr (s : GameSession) : ConnectAddr := ⟨s.mPort % 0x10000, s.mIpAddress⟩

def connectRequest (E : Host ε) (s : GameSession) (c : ClientId) (playerSessionId : String)
    (idx : Int) (w : Launcher ε) : Except Fault Bool × Launcher ε :=
  if w.mConnected E c then (.error .crashAssert, w)
  else
    let w := { w with env := E.connectEx c s.connectAddr w.env }
    (.ok true, w.set c ⟨some s.connectAddr, playerSessionId, idx⟩)

/-- One round of `ConnectPlayerSessions`, with `idx`. -/
def connectRound (E : Host ε) (s : GameSession) (playerSessionId : String) (c : ClientId)
    (x : Int × Launcher ε) : Option (Except Fault Bool) × Int × Launcher ε :=
  match s.connectRequest E c playerSessionId x.1 x.2 with
  | (.ok true, w) => (none, x.1 + 1, { w with env := E.sleep 10 w.env })
  | (r, w) => (some r, x.1 + 1, w)

/-- `*it` at the end of `mReadySessionList` is what ends the walk if the clients run out. -/
def connectPlayerSessions (E : Host ε) (s : GameSession) (w : Launcher ε) :
    Option (Except Fault Bool × GameSession × Launcher ε) :=
  s.guarded fun s =>
    let (r, _, w) := Lockstep.walk (s.connectRound E) (.error .danglingIterator)
      s.mPlayerSessionList s.mReadySessionList (s.mStartPlayerId, w)
    some (r.getD (.ok true), s, w)

end GameSession

/-- The outcome of `PreparePlayerSessions` is dropped here. -/
def prepareGameSessions (except : Int) (results : Nat → Nat → SocketResults) :
    Nat → Launcher ε → List GameSession × Launcher ε
  | 0, w => ([], w)
  | n + 1, w =>
    let (l, w) := prepareGameSessions except results n w
    let newGs := GameSession.new (n * maxPlayerPerGame) maxPlayerPerGame
      ("MyTestGameSession" ++ toString (n + 1))
    let (_, newGs, w) := newGs.preparePlayerSessions except (results n) w
    (l ++ [newGs], w)

section

variable (start : GameSession → ε → Option (Except Fault Bool × GameSession × ε))
variable (E : Host ε) (except : Int)

/-- The nested ifs of the launch loop, for a game session that `start` starts. -/
def launch (s : GameSession) (w : Launcher ε) :
    Option (Except Fault Bool × GameSession × Launcher ε) := do
  let (r, s, e) ← start s w.env
  match r with
  | .ok true =>
    let (ok, s, e) ← s.createPlayerSessions E.toAwsClient except e
    if ok then s.connectPlayerSessions E { w with env := e }
    else some (.ok false, s, { w with env := e })
  | r => some (r, s, { w with env := e })

def launchEach : List GameSession → Launcher ε →
    Option (Except Fault Unit × List GameSession × Launcher ε)
  | [], w => some (.ok (), [], w)
  | s :: l, w => do
    let (r, s, w) ← launch start E except s w
    match r with
    | .error f => some (.error f, s :: l, w)
    | .ok _ =>
      let (r, l, w) ← launchEach l { w with env := E.sleep 1000 w.env }
      some (r, s :: l, w)

end

/-- Which launch loop runs; the other one is for `MATCH_QUEUE_NAME` not `NotUse`. -/
inductive LaunchMode where
  | launchGameSessions
  | launchGameSessionPlacement
deriving DecidableEq, Repr

def LaunchMode.start (A : AwsClient ε) (m : ManagerConfig) (fuel : Nat) :
    LaunchMode → GameSession → ε → Option (Except Fault Bool × GameSession × ε)
  | .launchGameSessions, s, e => s.createGameSession A m fuel e
  | .launchGameSessionPlacement, s, e => do
    let (ok, s, e) ← s.startGameSessionPlacement A m fuel e
    some (.ok ok, s, e)

def launchGameSessions (E : Host ε) (m : ManagerConfig) (except : Int) (fuel : Nat) :
    List GameSession → Launcher ε → Option (Except Fault Unit × List GameSession × Launcher ε) :=
  launchEach (LaunchMode.launchGameSessions.start E.toAwsClient m fuel) E except

def launchGameSessionPlacement (E : Host ε) (m : ManagerConfig) (except : Int) (fuel : Nat) :
    List GameSession → Launcher ε → Option (Except Fault Unit × List GameSession × Launcher ε) :=
  launchEach (LaunchMode.launchGameSessionPlacement.start E.toAwsClient m fuel) E except

end DummyClients

end GameLift
