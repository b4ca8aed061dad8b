import GameLift.Playback
import GameLift.WindowsManager

/-! Ending the game when nobody is left. The two counters are compared with a
threshold one by one, although both only ever grow. -/

namespace GameLift

variable {ε : Type}

/-- The managers of the Linux server that a run of joins, leaves and service
events reaches, from a game without players. -/
inductive LinuxGame (S : Sdk ε) (status : ε → PlayerId → Status) : GameLiftManager → ε → Prop where
  | initialized {e} : activeIds status e = ∅ → LinuxGame S status .initialized e
  | accept {m e} (psess : SessionId) (id : PlayerId) : LinuxGame S status m e →
      LinuxGame S status (m.acceptPlayerSession S psess id e).2.1
        (m.acceptPlayerSession S psess id e).2.2
  | remove {m e} (psess : SessionId) (id : PlayerId) : LinuxGame S status m e →
      LinuxGame S status (m.removePlayerSession S psess id e).1
        (m.removePlayerSession S psess id e).2
  | startGameSession {m e} : LinuxGame S status m e →
      LinuxGame S status (m.onStartGameSession S e).1 (m.onStartGameSession S e).2
  | processTerminate {m e} : LinuxGame S status m e →
      LinuxGame S status (m.onProcessTerminate S e).1 (m.onProcessTerminate S e).2
  | outside {m e e'} : LinuxGame S status m e → activeIds status e' = activeIds status e →
      LinuxGame S status m e'

/-- The same for the Windows server, whose process is gone once the game ended. -/
inductive WindowsGame (S : Sdk ε) (status : ε → PlayerId → Status) : WindowsManager → ε → Prop where
  | initialized {e} : activeIds status e = ∅ → WindowsGame S status .initialized e
  | accept {m e ok m' e'} (psess : SessionId) (id : PlayerId) : WindowsGame S status m e →
      m.exitCode = none → m.acceptPlayerSession S psess id e = .ok (ok, m', e') →
      WindowsGame S status m' e'
  | remove {m e m' e'} (psess : SessionId) (id : PlayerId) : WindowsGame S status m e →
      m.exitCode = none → m.removePlayerSession S psess id e = .ok (m', e') →
      WindowsGame S status m' e'
  | startGameSession {m e} : WindowsGame S status m e → m.exitCode = none →
      WindowsGame S status (m.onStartGameSession S e).1 (m.onStartGameSession S e).2
  | processTerminate {m e} : WindowsGame S status m e → m.exitCode = none →
      WindowsGame S status (m.onProcessTerminate S e).1 (m.onProcessTerminate S e).2
  | outside {m e e'} : WindowsGame S status m e → activeIds status e' = activeIds status e →
      WindowsGame S status m e'

theorem Counted.initial {status : ε → PlayerId → Status} {e : ε} (h : activeIds status e = ∅) :
    Counted status 0 0 e := ⟨by simp [h], by simp [h]⟩

namespace LinuxGame

variable {S : Sdk ε} {status : ε → PlayerId → Status}

theorem counted_remove (hS : Lawful S status) {m : GameLiftManager} {e : ε}
    (h : Counted status m.mAcceptedCount m.mRemovedCount e) (psess : SessionId) (id : PlayerId) :
    Counted status (m.removePlayerSession S psess id e).1.mAcceptedCount
      (m.removePlayerSession S psess id e).1.mRemovedCount
      (m.removePlayerSession S psess id e).2 := by
  obtain ⟨ha, hr, -⟩ := GameLiftManager.removePlayerSession_counts (S := S) psess id m e
  rw [ha, hr]
  exact (h.remove hS id).of_eq (hS.activeIds_check _ _)

theorem counted (hS : Lawful S status) {m : GameLiftManager} {e : ε}
    (h : LinuxGame S status m e) : Counted status m.mAcceptedCount m.mRemovedCount e := by
  induction h with
  | initialized he => exact .initial he
  | accept psess id _ ih =>
    rw [GameLiftManager.acceptPlayerSession_cases]
    exact ih.accept hS id
  | remove psess id _ ih => exact counted_remove hS ih psess id
  | startGameSession _ ih =>
    exact ih.of_eq (by simp only [activeIds, GameLiftManager.onStartGameSession, hS.activate])
  | processTerminate _ ih => exact ih.of_eq (hS.activeIds_end _ _)
  | outside _ he ih => exact ih.of_eq he

end LinuxGame

namespace WindowsGame

variable {S : Sdk ε} {status : ε → PlayerId → Status}

theorem activeIds_end (hS : Lawful S status) (exitCode : Nat) (m : WindowsManager) (e : ε) :
    activeIds status (m.terminateGameSession S exitCode e).2 = activeIds status e := by
  simp only [activeIds, WindowsManager.terminateGameSession, hS.ending, hS.terminate]

theorem activeIds_check (hS : Lawful S status) (m : WindowsManager) (e : ε) :
    activeIds status (m.checkTerminateGameSession S e).2 = activeIds status e := by
  rw [WindowsManager.checkTerminateGameSession]
  split_ifs
  · exact activeIds_end hS 37 m e
  · rfl

theorem counted_remove (hS : Lawful S status) {m m' : WindowsManager} {e e' : ε}
    (h : Counted status m.mAcceptedCount m.mRemovedCount e) {psess : SessionId} {id : PlayerId}
    (hr : m.removePlayerSession S psess id e = .ok (m', e')) :
    Counted status m'.mAcceptedCount m'.mRemovedCount e' := by
  obtain ⟨m₁, ha, hrem, -, -, he⟩ := WindowsManager.removePlayerSession_ok hr
  obtain ⟨ha', hr'⟩ := WindowsManager.checkTerminateGameSession_counts (S := S) m₁
    (S.removePlayerSession id e).2
  rw [← he] at ha' hr'
  have hact := activeIds_check hS m₁ (S.removePlayerSession id e).2
  rw [← he] at hact
  change m'.mAcceptedCount = _ at ha'
  change m'.mRemovedCount = _ at hr'
  rw [ha', ha, hr', hrem]
  exact (h.remove hS id).of_eq hact

theorem counted (hS : Lawful S status) {m : WindowsManager} {e : ε}
    (h : WindowsGame S status m e) : Counted status m.mAcceptedCount m.mRemovedCount e := by
  induction h with
  | initialized he => exact .initial he
  | accept psess id _ _ hacc ih =>
    obtain ⟨ha, hr, rfl⟩ := WindowsManager.acceptPlayerSession_ok hacc
    rw [ha, hr]
    exact ih.accept hS id
  | remove psess id _ _ hr ih => exact counted_remove hS ih hr
  | startGameSession _ _ ih =>
    exact ih.of_eq (by simp only [activeIds, WindowsManager.onStartGameSession, hS.activate])
  | @processTerminate m e _ _ ih =>
    rw [WindowsManager.onProcessTerminate]
    split_ifs
    · exact ih.of_eq (activeIds_end hS _ _ _)
    · exact ih
  | outside _ he ih => exact ih.of_eq he

end WindowsGame

def gamesEnded (m : GameLiftManager) : Nat := m.issued.count .terminateGameSession

/-- With this removal fewer than eight players were removed, or as many as came. -/
def ChecksOut (status : ε → PlayerId → Status) (accepted removed : Int) (id : PlayerId)
    (e : ε) : Prop :=
  maxPlayerPerGame ≤ removed + (if status e id = .active then 1 else 0) →
    accepted ≤ removed + (if status e id = .active then 1 else 0)

theorem Lawful.remove_count {S : Sdk ε} {status : ε → PlayerId → Status} (hS : Lawful S status)
    (id : PlayerId) (e : ε) : (if (S.removePlayerSession id e).1 then (1 : Int) else 0) =
      if status e id = .active then 1 else 0 := by
  by_cases h : status e id = .active
  · rw [if_pos h, if_pos ((hS.remove_ok id e).mpr h)]
  · rw [if_neg h, if_neg (by rwa [hS.remove_ok id e])]

theorem LinuxGame.ends_iff {S : Sdk ε} (psess : SessionId) (id : PlayerId) (m : GameLiftManager)
    (e : ε) : gamesEnded (m.removePlayerSession S psess id e).1 ≠ gamesEnded m ↔
      maxPlayerPerGame ≤ (m.removePlayerSession S psess id e).1.mAcceptedCount ∧
        maxPlayerPerGame ≤ (m.removePlayerSession S psess id e).1.mRemovedCount := by
  have hcheck : ∀ (m' : GameLiftManager) (e' : ε), gamesEnded m' = gamesEnded m →
      (gamesEnded (m'.checkTerminateGameSession S e').1 ≠ gamesEnded m ↔
        maxPlayerPerGame ≤ (m'.checkTerminateGameSession S e').1.mAcceptedCount ∧
          maxPlayerPerGame ≤ (m'.checkTerminateGameSession S e').1.mRemovedCount) := by
    intro m' e' he
    rw [GameLiftManager.checkTerminateGameSession]
    split_ifs with ht
    · refine ⟨fun _ => ht, fun _ => ?_⟩
      rw [← he]
      simp [gamesEnded, GameLiftManager.endGame]
    · exact ⟨fun hne => absurd he hne, fun h => absurd h ht⟩
  rw [GameLiftManager.removePlayerSession]
  rcases S.removePlayerSession id e with ⟨ok, e₁⟩
  cases ok
  · exact hcheck _ _ (by simp [gamesEnded])
  · exact hcheck _ _ (by simp [gamesEnded])

/-- A player, on a connection of the same number, joins or leaves. -/
inductive Turn where
  | join (player : Nat)
  | leave (player : Nat)
deriving DecidableEq, Repr

def Turn.play (S : Sdk ε) : GameLiftManager × ε → Turn → GameLiftManager × ε
  | (m, e), .join i => (m.acceptPlayerSession S i [UInt8.ofNat i] e).2
  | (m, e), .leave i => m.removePlayerSession S i [UInt8.ofNat i] e

theorem LinuxGame.play {S : Sdk ε} {status : ε → PlayerId → Status} (turns : List Turn)
    {m : GameLiftManager} {e : ε} (h : LinuxGame S status m e) :
    LinuxGame S status (turns.foldl (Turn.play S) (m, e)).1
      (turns.foldl (Turn.play S) (m, e)).2 := by
  induction turns generalizing m e with
  | nil => exact h
  | cons t ts ih =>
    cases t with
    | join i => exact ih (h.accept i _)
    | leave i => exact ih (h.remove i _)

def played (turns : List Turn) : GameLiftManager × Playback :=
  turns.foldl (Turn.play ledger) (.initialized, ⟨fun _ => .reserved, []⟩)

theorem played_linuxGame (turns : List Turn) :
    LinuxGame ledger Playback.status (played turns).1 (played turns).2 := by
  have hempty : activeIds Playback.status ⟨fun _ => .reserved, []⟩ = ∅ := by simp [activeIds]
  exact (LinuxGame.initialized hempty).play turns

/-- Eight players come and seven of them go. -/
def lastPlayer : List Turn :=
  [1, 2, 3, 4, 5, 6, 7, 8].map .join ++ [1, 2, 3, 4, 5, 6, 7].map .leave

/-- Seven players come and go, two more come, and one of these goes. -/
def revolvingDoor : List Turn :=
  [1, 2, 3, 4, 5, 6, 7].flatMap (fun i => [.join i, .leave i]) ++ [.join 8, .join 9, .leave 8]

/-- A removal that ends the game ends an empty one exactly when, from the eighth
removal on, as many were removed as accepted; so on both servers, in every run. -/
theorem endsEmpty_iff (S : Sdk ε) (status : ε → PlayerId → Status) (hS : Lawful S status) :
    (∀ m e, LinuxGame S status m e → ∀ (psess : SessionId) (id : PlayerId),
      (gamesEnded (m.removePlayerSession S psess id e).1 ≠ gamesEnded m →
        activeIds status (m.removePlayerSession S psess id e).2 = ∅) ↔
      ChecksOut status m.mAcceptedCount m.mRemovedCount id e) ∧
    (∀ m e, WindowsGame S status m e → m.exitCode = none →
      ∀ (psess : SessionId) (id : PlayerId) m' e',
        m.removePlayerSession S psess id e = .ok (m', e') →
        ((m'.exitCode ≠ none → activeIds status e' = ∅) ↔
          (m.mActivated = true → ChecksOut status m.mAcceptedCount m.mRemovedCount id e))) := by
  refine ⟨fun m e h psess id => ?_, fun m e h hrun psess id m' e' hr => ?_⟩
  · have hcount := LinuxGame.counted_remove hS (h.counted hS) psess id
    obtain ⟨ha, hrem, -⟩ := GameLiftManager.removePlayerSession_counts (S := S) psess id m e
    have hle := hcount.removed_le
    rw [LinuxGame.ends_iff, hcount.empty_iff, ha, hrem, hS.remove_count]
    rw [ha, hrem, hS.remove_count] at hle
    rw [ChecksOut]
    omega
  · have hcount := WindowsGame.counted_remove hS (h.counted hS) hr
    have hle := hcount.removed_le
    obtain ⟨m₁, ha, hrem, hact, hexit, he⟩ := WindowsManager.removePlayerSession_ok hr
    have hcheck := WindowsManager.checkTerminateGameSession_counts (S := S) m₁
      (S.removePlayerSession id e).2
    rw [← he] at hcheck
    rw [hcheck.1, hcheck.2] at hle
    rw [hS.remove_count] at hrem
    rw [WindowsManager.checkTerminateGameSession] at he
    rw [ChecksOut, ← hact, ← ha, ← hrem]
    split_ifs at he with ht
    · obtain ⟨rfl, rfl⟩ := Prod.mk.inj he
      rw [hcount.empty_iff]
      change (_ → m₁.mAcceptedCount = m₁.mRemovedCount) ↔ _
      constructor
      · intro hends _ _
        exact (hends (by simp)).le
      · intro hall _
        exact Int.le_antisymm (hall ht.2.2 ht.2.1) hle
    · obtain ⟨rfl, rfl⟩ := Prod.mk.inj he
      constructor
      · intro _ hon h1
        exact absurd ⟨h1.trans hle, h1, hon⟩ ht
      · intro _ hne
        exact absurd (hexit.trans hrun) hne

theorem endsEmpty_lastPlayer :
    gamesEnded ((played lastPlayer).1.removePlayerSession ledger 8 [8] (played lastPlayer).2).1 = 1 ∧
      activeIds Playback.status
        ((played lastPlayer).1.removePlayerSession ledger 8 [8] (played lastPlayer).2).2 = ∅ := by
  have hh := (endsEmpty_iff ledger Playback.status ledger_lawful).1 _ _
    (played_linuxGame lastPlayer) 8 [8]
  refine ⟨by decide +kernel, hh.mpr (fun _ => by decide +kernel) (by decide +kernel)⟩

/-- The ninth player is in the game when it is ended; there are never more than two. -/
theorem endsOccupied :
    LinuxGame ledger Playback.status (played revolvingDoor).1 (played revolvingDoor).2 ∧
      (∀ n < 18, (played (revolvingDoor.take n)).1.mAcceptedCount -
        (played (revolvingDoor.take n)).1.mRemovedCount ≤ 2) ∧
      gamesEnded (played revolvingDoor).1 = 1 ∧ (played revolvingDoor).1.mActivated = false ∧
      9 ∈ (played revolvingDoor).1.mPlayerSessions ∧
      [9] ∈ activeIds Playback.status (played revolvingDoor).2 := by
  refine ⟨played_linuxGame revolvingDoor, ?_, ?_, ?_, ?_, ?_⟩
  · decide +kernel
  · decide +kernel
  · decide +kernel
  · decide +kernel
  · change _ = Status.active
    decide +kernel

end GameLift
