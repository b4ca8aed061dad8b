import Mathlib.Data.Finset.Card
import GameLift.PacketType

/-! GameLiftManager of the Linux server. The service behind the server SDK is a
parameter: a hidden state `ε` and what each request answers and does to it. -/

namespace GameLift

abbrev SessionId := Nat

/-- A player session id, as the bytes of a `std::string`. -/
abbrev PlayerId := List Byte

/-- `acceptErrorMessage` is what `GetErrorMessage().c_str()` shows of a refusal of that id. -/
structure Sdk (ε : Type) where
  acceptPlayerSession : PlayerId → ε → Bool × ε
  acceptErrorMessage : PlayerId → ε → List Byte
  removePlayerSession : PlayerId → ε → Bool × ε
  activateGameSession : ε → ε
  terminateGameSession : ε → ε
  processEnding : ε → ε

/-- `GetDefaultMessageForErrorType(SERVICE_CALL_FAILED)`. -/
def serviceCallFailed : List Byte :=
  asciiBytes "An AWS service call has failed. See the root cause error for more information."

theorem serviceCallFailed_length : serviceCallFailed.length = 78 := by decide +kernel

/-- A request sent to the service, with its answer. -/
inductive SdkCall where
  | acceptPlayerSession (psess : SessionId) (id : PlayerId) (ok : Bool)
  | removePlayerSession (psess : SessionId) (id : PlayerId) (ok : Bool)
  | activateGameSession
  | terminateGameSession
  | processEnding
deriving DecidableEq, Repr

/-- `issued` records the requests, latest first; the other fields are the source's. -/
structure GameLiftManager where
  mActivated : Bool
  mAcceptedCount : Int
  mRemovedCount : Int
  mPlayerSessions : Finset SessionId
  issued : List SdkCall
deriving DecidableEq

namespace GameLiftManager

variable {ε : Type} (S : Sdk ε)

def initialized : GameLiftManager := ⟨true, 0, 0, ∅, []⟩

def acceptPlayerSession (psess : SessionId) (id : PlayerId) (m : GameLiftManager) (e : ε) :
    Bool × GameLiftManager × ε :=
  let (ok, e) := S.acceptPlayerSession id e
  let m := { m with issued := .acceptPlayerSession psess id ok :: m.issued }
  if ok then
    (true, { m with
      mAcceptedCount := m.mAcceptedCount + 1
      mPlayerSessions := insert psess m.mPlayerSessions }, e)
  else (false, m, e)

/-- `TerminateGameSession(); ProcessEnding(); mActivated = false;` -/
def endGame (m : GameLiftManager) (e : ε) : GameLiftManager × ε :=
  ({ m with mActivated := false, issued := .processEnding :: .terminateGameSession :: m.issued },
    S.processEnding (S.terminateGameSession e))

def checkTerminateGameSession (m : GameLiftManager) (e : ε) : GameLiftManager × ε :=
  if maxPlayerPerGame ≤ m.mAcceptedCount ∧ maxPlayerPerGame ≤ m.mRemovedCount then endGame S m e
  else (m, e)

def removePlayerSession (psess : SessionId) (id : PlayerId) (m : GameLiftManager) (e : ε) :
    GameLiftManager × ε :=
  let (ok, e) := S.removePlayerSession id e
  let m := { m with issued := .removePlayerSession psess id ok :: m.issued }
  let m := if ok then
      { m with
        mPlayerSessions := m.mPlayerSessions.erase psess
        mRemovedCount := m.mRemovedCount + 1 }
    else m
  checkTerminateGameSession S m e

def onStartGameSession (m : GameLiftManager) (e : ε) : GameLiftManager × ε :=
  ({ m with issued := .activateGameSession :: m.issued }, S.activateGameSession e)

def onProcessTerminate (m : GameLiftManager) (e : ε) : GameLiftManager × ε := endGame S m e

variable {S}

@[simp] theorem endGame_counts (m : GameLiftManager) (e : ε) :
    (endGame S m e).1.mAcceptedCount = m.mAcceptedCount ∧
      (endGame S m e).1.mRemovedCount = m.mRemovedCount ∧
      (endGame S m e).1.mPlayerSessions = m.mPlayerSessions := ⟨rfl, rfl, rfl⟩

theorem checkTerminateGameSession_counts (m : GameLiftManager) (e : ε) :
    (checkTerminateGameSession S m e).1.mAcceptedCount = m.mAcceptedCount ∧
      (checkTerminateGameSession S m e).1.mRemovedCount = m.mRemovedCount ∧
      (checkTerminateGameSession S m e).1.mPlayerSessions = m.mPlayerSessions := by
  rw [checkTerminateGameSession]
  split_ifs
  · exact endGame_counts m e
  · exact ⟨rfl, rfl, rfl⟩

theorem acceptPlayerSession_cases (psess : SessionId) (id : PlayerId) (m : GameLiftManager)
    (e : ε) :
    acceptPlayerSession S psess id m e =
      ((S.acceptPlayerSession id e).1,
        { m with
          issued := .acceptPlayerSession psess id (S.acceptPlayerSession id e).1 :: m.issued
          mAcceptedCount := m.mAcceptedCount + if (S.acceptPlayerSession id e).1 then 1 else 0
          mPlayerSessions := if (S.acceptPlayerSession id e).1
            then insert psess m.mPlayerSessions else m.mPlayerSessions },
        (S.acceptPlayerSession id e).2) := by
  rw [acceptPlayerSession]
  rcases S.acceptPlayerSession id e with ⟨ok, e'⟩
  cases ok <;> simp

theorem removePlayerSession_counts (psess : SessionId) (id : PlayerId) (m : GameLiftManager)
    (e : ε) :
    (removePlayerSession S psess id m e).1.mAcceptedCount = m.mAcceptedCount ∧
      (removePlayerSession S psess id m e).1.mRemovedCount =
        m.mRemovedCount + (if (S.removePlayerSession id e).1 then 1 else 0) ∧
      (removePlayerSession S psess id m e).1.mPlayerSessions =
        if (S.removePlayerSession id e).1 then m.mPlayerSessions.erase psess
        else m.mPlayerSessions := by
  rw [removePlayerSession]
  rcases S.removePlayerSession id e with ⟨ok, e'⟩
  dsimp only
  obtain ⟨h1, h2, h3⟩ := checkTerminateGameSession_counts (S := S) (if ok = true then
    { m with
      issued := .removePlayerSession psess id ok :: m.issued
      mPlayerSessions := m.mPlayerSessions.erase psess
      mRemovedCount := m.mRemovedCount + 1 }
    else { m with issued := .removePlayerSession psess id ok :: m.issued }) e'
  rw [h1, h2, h3]
  cases ok <;> simp

/-- What a removal does outside depends on the two counts only. -/
theorem removePlayerSession_env {m m' : GameLiftManager}
    (haccepted : m.mAcceptedCount = m'.mAcceptedCount) (hremoved : m.mRemovedCount = m'.mRemovedCount)
    (psess : SessionId) (id : PlayerId) (e : ε) :
    (removePlayerSession S psess id m e).2 = (removePlayerSession S psess id m' e).2 := by
  unfold removePlayerSession
  cases (S.removePlayerSession id e).1 <;>
    simp only [checkTerminateGameSession, haccepted, hremoved] <;>
    split_ifs <;>
    rfl

end GameLiftManager

end GameLift
