import GameLift.GameLiftManager

/-! GameLiftManager and GameSession of the Windows server. Every function runs
under `mLock`; ending the game session also ends the process. -/

namespace GameLift

/-- `mGameSession` is the `mPlayerSessions` of the game session, `none` the null
pointer; `exitCode` is set once `TerminateProcess` was called. -/
structure WindowsManager where
  mActivated : Bool
  mAcceptedCount : Int
  mRemovedCount : Int
  mGameSession : Option (Finset SessionId)
  exitCode : Option Nat
deriving DecidableEq

namespace WindowsManager

variable {ε : Type} (S : Sdk ε)

def initialized : WindowsManager := ⟨true, 0, 0, none, none⟩

def acceptPlayerSession (psess : SessionId) (id : PlayerId) (m : WindowsManager) (e : ε) :
    Except Fault (Bool × WindowsManager × ε) :=
  let (ok, e) := S.acceptPlayerSession id e
  if ok then
    match m.mGameSession with
    | none => .error .nullPointer
    | some players => .ok (true, { m with
        mAcceptedCount := m.mAcceptedCount + 1
        mGameSession := some (insert psess players) }, e)
  else .ok (false, m, e)

def terminateGameSession (exitCode : Nat) (m : WindowsManager) (e : ε) : WindowsManager × ε :=
  ({ m with mGameSession := none, mActivated := false, exitCode := some exitCode },
    S.processEnding (S.terminateGameSession e))

def checkTerminateGameSession (m : WindowsManager) (e : ε) : WindowsManager × ε :=
  if maxPlayerPerGame ≤ m.mAcceptedCount ∧ maxPlayerPerGame ≤ m.mRemovedCount ∧ m.mActivated then
    terminateGameSession S 37 m e
  else (m, e)

def removePlayerSession (psess : SessionId) (id : PlayerId) (m : WindowsManager) (e : ε) :
    Except Fault (WindowsManager × ε) :=
  let (ok, e) := S.removePlayerSession id e
  if ok then
    match m.mGameSession with
    | none => .error .nullPointer
    | some players => .ok (checkTerminateGameSession S { m with
        mGameSession := some (players.erase psess)
        mRemovedCount := m.mRemovedCount + 1 } e)
  else .ok (checkTerminateGameSession S m e)

def onStartGameSession (m : WindowsManager) (e : ε) : WindowsManager × ε :=
  ({ m with mGameSession := some ∅ }, S.activateGameSession e)

def onProcessTerminate (m : WindowsManager) (e : ε) : WindowsManager × ε :=
  if m.mActivated then terminateGameSession S 0xDEAD m e else (m, e)

variable {S}

theorem checkTerminateGameSession_counts (m : WindowsManager) (e : ε) :
    (checkTerminateGameSession S m e).1.mAcceptedCount = m.mAcceptedCount ∧
      (checkTerminateGameSession S m e).1.mRemovedCount = m.mRemovedCount := by
  rw [checkTerminateGameSession]
  split_ifs
  · exact ⟨rfl, rfl⟩
  · exact ⟨rfl, rfl⟩

theorem acceptPlayerSession_ok {psess : SessionId} {id : PlayerId} {m m' : WindowsManager}
    {e e' : ε} {ok : Bool} (h : acceptPlayerSession S psess id m e = .ok (ok, m', e')) :
    m'.mAcceptedCount = m.mAcceptedCount + (if (S.acceptPlayerSession id e).1 then 1 else 0) ∧
      m'.mRemovedCount = m.mRemovedCount ∧ e' = (S.acceptPlayerSession id e).2 := by
  cases hok : (S.acceptPlayerSession id e).1 with
  | false =>
    simp only [acceptPlayerSession, hok, Bool.false_eq_true, if_false, Except.ok.injEq,
      Prod.mk.injEq] at h
    obtain ⟨-, rfl, rfl⟩ := h
    simp
  | true =>
    cases hg : m.mGameSession with
    | none => simp [acceptPlayerSession, hok, hg] at h
    | some players =>
      simp only [acceptPlayerSession, hok, hg, if_true, Except.ok.injEq, Prod.mk.injEq] at h
      obtain ⟨-, rfl, rfl⟩ := h
      simp

theorem removePlayerSession_ok {psess : SessionId} {id : PlayerId} {m : WindowsManager} {e : ε}
    {r : WindowsManager × ε} (h : removePlayerSession S psess id m e = .ok r) :
    ∃ m₁, m₁.mAcceptedCount = m.mAcceptedCount ∧
      m₁.mRemovedCount = m.mRemovedCount + (if (S.removePlayerSession id e).1 then 1 else 0) ∧
      m₁.mActivated = m.mActivated ∧ m₁.exitCode = m.exitCode ∧
      r = checkTerminateGameSession S m₁ (S.removePlayerSession id e).2 := by
  cases hok : (S.removePlayerSession id e).1 with
  | false =>
    simp only [removePlayerSession, hok, Bool.false_eq_true, if_false, Except.ok.injEq] at h
    exact ⟨m, rfl, by simp, rfl, rfl, h.symm⟩
  | true =>
    cases hg : m.mGameSession with
    | none => simp [removePlayerSession, hok, hg] at h
    | some players =>
      simp only [removePlayerSession, hok, hg, if_true, Except.ok.injEq] at h
      refine ⟨{ m with
        mGameSession := some (players.erase psess)
        mRemovedCount := m.mRemovedCount + 1 }, rfl, ?_, rfl, rfl, h.symm⟩
      rw [if_pos rfl]

end WindowsManager

end GameLift
