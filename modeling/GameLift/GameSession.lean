import GameLift.PacketType
import GameLift.Polling

/-! The dummy clients' GameSession.cpp, as far as it talks to GameLift. A game session is
created, or placed by a queue, and then polled until it can take players. -/

namespace GameLift

namespace DummyClients

open Polling (Poll)

inductive GameSessionStatus where
  | notSet
  | active
  | activating
  | terminated
  | terminating
  | error
deriving DecidableEq, Repr

inductive GameSessionPlacementState where
  | notSet
  | pending
  | fulfilled
  | cancelled
  | timedOut
  | failed
deriving DecidableEq, Repr

inductive Outcome (α : Type) where
  | success (result : α)
  | failure
deriving DecidableEq, Repr

structure CreateGameSessionRequest where
  fleetId : Option String
  aliasId : Option String
  name : String
  maximumPlayerSessionCount : Int
deriving DecidableEq, Repr

structure StartGameSessionPlacementRequest where
  gameSessionQueueName : String
  maximumPlayerSessionCount : Int
  placementId : String
deriving DecidableEq, Repr

/-- What is read of the answer to `CreateGameSession`. -/
structure CreatedGameSession where
  port : Int
  ipAddress : String
  gameSessionId : String
deriving DecidableEq, Repr

structure GameSessionPlacement where
  status : GameSessionPlacementState
  gameSessionArn : String
  ipAddress : String
  port : Int
  gameSessionRegion : String
deriving DecidableEq, Repr

/-- The AWS client and the system. A game session that exists is always described. -/
structure AwsClient (ε : Type) where
  setUpAwsClient : String → ε → ε
  createGameSession : CreateGameSessionRequest → ε → Outcome CreatedGameSession × ε
  describeGameSessions : String → ε → Outcome (List GameSessionStatus) × ε
  startGameSessionPlacement :
    StartGameSessionPlacementRequest → ε → Outcome GameSessionPlacement × ε
  describeGameSessionPlacement : String → ε → Outcome GameSessionPlacement × ε
  createPlayerSessions : String → List String → ε → Outcome (List String) × ε
  uuidCreate : ε → String × ε
  sleep : Nat → ε → ε
  describe_found : ∀ id e l, (describeGameSessions id e).1 = .success l → l ≠ []

/-- The configuration, of which `mRegion` is also the endpoint in local mode. -/
structure ManagerConfig where
  mAliasId : String
  mRegion : String
  mMatchQueueName : String
deriving DecidableEq, Repr

abbrev ClientId := Nat

/-- `mLock` tells whether it is held; a player session is its `GetPlayerSessionId()`. -/
structure GameSession where
  mReadySessionList : List ClientId
  mLock : Bool
  mStartPlayerId : Int
  mMaxPlayerCount : Int
  mGameSessionName : String
  mPort : Int
  mIpAddress : String
  mGameSessionId : String
  mPlayerSessionList : List String
  mPlacementId : String
deriving DecidableEq, Repr

namespace GameSession

def new (startPlayerId maxPlayerCount : Int) (name : String) : GameSession where
  mReadySessionList := []
  mLock := false
  mStartPlayerId := startPlayerId
  mMaxPlayerCount := maxPlayerCount
  mGameSessionName := name
  mPort := -1
  mIpAddress := ""
  mGameSessionId := ""
  mPlayerSessionList := []
  mPlacementId := ""

def created (s : GameSession) (gs : CreatedGameSession) : GameSession :=
  { s with mPort := gs.port, mIpAddress := gs.ipAddress, mGameSessionId := gs.gameSessionId }

def placed (s : GameSession) (gs : GameSessionPlacement) : GameSession :=
  { s with mGameSessionId := gs.gameSessionArn, mIpAddress := gs.ipAddress, mPort := gs.port }

variable {ε β : Type}

def locked (s : GameSession) : GameSession := { s with mLock := true }

def unlocked (s : GameSession) : GameSession := { s with mLock := false }

/-- `FastSpinlockGuard guard(mLock)` around a body; `none` never comes back. -/
def guarded (s : GameSession) (body : GameSession → Option (β × GameSession × ε)) :
    Option (β × GameSession × ε) :=
  if s.mLock then none
  else do
    let (r, s, e) ← body s.locked
    return (r, s.unlocked, e)

def createRequest (m : ManagerConfig) (s : GameSession) : CreateGameSessionRequest :=
  if m.mAliasId = "TEST_LOCAL" then
    ⟨some ("fleet-" ++ s.mGameSessionName), none, s.mGameSessionName, s.mMaxPlayerCount⟩
  else ⟨none, some m.mAliasId, s.mGameSessionName, s.mMaxPlayerCount⟩

variable (A : AwsClient ε)

/-- One round of the wait in `CreateGameSession`; the first description is `[0]`. -/
def waitAnswer (s : GameSession) (r : Outcome (List GameSessionStatus)) (e : ε) :
    Option (Except Fault Bool × GameSession × ε) :=
  match r with
  | .success [] => some (.error .outOfBounds, s, e)
  | .success (status :: _) => if status = .active then some (.ok true, s, e) else none
  | .failure => some (.ok false, s, e)

def waitPoll (s : GameSession) :
    Poll ε (Outcome (List GameSessionStatus)) (Except Fault Bool × GameSession × ε) where
  ask := A.describeGameSessions s.mGameSessionId
  pause := A.sleep 500
  react := s.waitAnswer

def createGameSession (m : ManagerConfig) (fuel : Nat) (s : GameSession) (e : ε) :
    Option (Except Fault Bool × GameSession × ε) :=
  s.guarded fun s =>
    match A.createGameSession (createRequest m s) e with
    | (.success gs, e) => Loop.loop (waitPoll A (s.created gs)).body fuel e
    | (.failure, e) => some (.ok false, s, e)

/-- One round of `CheckGameSessionPlacement`. -/
def placementAnswer (s : GameSession) (r : Outcome GameSessionPlacement) (e : ε) :
    Option (Bool × GameSession × ε) :=
  match r with
  | .success gs =>
    if gs.status = .fulfilled then
      some (true, s.placed gs, A.setUpAwsClient gs.gameSessionRegion e)
    else none
  | .failure => some (false, s, e)

def placementPoll (s : GameSession) :
    Poll ε (Outcome GameSessionPlacement) (Bool × GameSession × ε) where
  ask := A.describeGameSessionPlacement s.mPlacementId
  pause := A.sleep 500
  react := s.placementAnswer A

def checkGameSessionPlacement (fuel : Nat) (s : GameSession) (e : ε) :
    Option (Bool × GameSession × ε) := Loop.loop (placementPoll A s).body fuel e

def generatePlacementId (s : GameSession) (e : ε) : GameSession × ε :=
  let (id, e) := A.uuidCreate e
  ({ s with mPlacementId := id }, e)

def startGameSessionPlacement (m : ManagerConfig) (fuel : Nat) (s : GameSession) (e : ε) :
    Option (Bool × GameSession × ε) :=
  s.guarded fun s =>
    let (s, e) := s.generatePlacementId A (A.setUpAwsClient m.mRegion e)
    match A.startGameSessionPlacement ⟨m.mMatchQueueName, maxPlayerPerGame, s.mPlacementId⟩ e with
    | (.success gs, e) =>
      if gs.status = .pending then s.checkGameSessionPlacement A fuel e
      else if gs.status = .fulfilled then
        some (true, s.placed gs, A.setUpAwsClient gs.gameSessionRegion e)
      else some (false, s, e)
    | (.failure, e) => some (false, s, e)

variable {A}

theorem guarded_eq_some {s : GameSession} (h : s.mLock = false)
    {body : GameSession → Option (β × GameSession × ε)} {r : β} {t : GameSession} {e : ε} :
    s.guarded body = some (r, t, e) ↔ ∃ u, body s.locked = some (r, u, e) ∧ t = u.unlocked := by
  have hfree : ¬s.mLock = true := by rw [h]; exact Bool.false_ne_true
  rw [guarded, if_neg hfree]
  cases hb : body s.locked with
  | none =>
    refine iff_of_false (fun hn => by cases hn) ?_
    rintro ⟨u, hu, -⟩
    cases hu
  | some result =>
    obtain ⟨r', u, e'⟩ := result
    constructor
    · intro heq
      cases heq
      exact ⟨u, rfl, rfl⟩
    · rintro ⟨u', heq, rfl⟩
      cases heq
      rfl

end GameSession

end DummyClients

end GameLift
