import GameLift.GameEnd

/-! How often the Linux server ends the game. The Windows server asks
`mActivated` first; here the service callback and every removal may do it again. -/

namespace GameLift

variable {ε : Type}

/-- What happens to the manager; outside it the service may change at any time. The service
calls back on threads of its own, and a callback is taken to run between two other events. -/
inductive Occasion (ε : Type) where
  | login (psess : SessionId) (id : PlayerId)
  | removal (psess : SessionId) (id : PlayerId)
  | startGameSession
  | processTerminate
  | outside (e : ε)

namespace Occasion

def play (S : Sdk ε) : GameLiftManager × ε → Occasion ε → GameLiftManager × ε
  | (m, e), .login psess id => (m.acceptPlayerSession S psess id e).2
  | (m, e), .removal psess id => m.removePlayerSession S psess id e
  | (m, e), .startGameSession => m.onStartGameSession S e
  | (m, e), .processTerminate => m.onProcessTerminate S e
  | (m, _), .outside e => (m, e)

/-- A callback, or a removal after which both counters are at the threshold. -/
def Ends (S : Sdk ε) : GameLiftManager × ε → Occasion ε → Prop
  | (m, e), .removal _ id => maxPlayerPerGame ≤ m.mAcceptedCount ∧
      maxPlayerPerGame ≤ m.mRemovedCount + if (S.removePlayerSession id e).1 then 1 else 0
  | _, .processTerminate => True
  | _, _ => False

instance (S : Sdk ε) (p : GameLiftManager × ε) (o : Occasion ε) : Decidable (o.Ends S p) :=
  match p, o with
  | _, .login _ _ => instDecidableFalse
  | (_, _), .removal _ _ => instDecidableAnd
  | _, .startGameSession => instDecidableFalse
  | _, .processTerminate => instDecidableTrue
  | _, .outside _ => instDecidableFalse

/-- How many of these occasions are to end the game. -/
def endings (S : Sdk ε) : GameLiftManager × ε → List (Occasion ε) → Nat
  | _, [] => 0
  | p, o :: os => (if o.Ends S p then 1 else 0) + endings S (o.play S p) os

/-- Occasions to end the game come only while `mActivated` is set: there is one at most. -/
def Guarded (S : Sdk ε) : GameLiftManager × ε → List (Occasion ε) → Prop
  | _, [] => True
  | p, o :: os => (o.Ends S p → p.1.mActivated = true) ∧ Guarded S (o.play S p) os

end Occasion

def run (S : Sdk ε) (p : GameLiftManager × ε) (os : List (Occasion ε)) : GameLiftManager × ε :=
  os.foldl (Occasion.play S) p

/-- The calls of `TerminateGameSession` and of `ProcessEnding` are as many, and
`mActivated` is set as long as there are none. -/
structure Paired (m : GameLiftManager) : Prop where
  ending : m.issued.count .processEnding = gamesEnded m
  activated : m.mActivated = true ↔ gamesEnded m = 0

section
variable {S : Sdk ε}

theorem paired_initialized : Paired .initialized :=
  ⟨rfl, by simp [gamesEnded, GameLiftManager.initialized]⟩

theorem endGame_ends {m : GameLiftManager} (h : Paired m) (e : ε) :
    gamesEnded (m.endGame S e).1 = gamesEnded m + 1 ∧ Paired (m.endGame S e).1 := by
  have hcount : gamesEnded (m.endGame S e).1 = gamesEnded m + 1 := by
    simp [gamesEnded, GameLiftManager.endGame]
  have hend := h.ending
  refine ⟨hcount, ?_, ?_⟩
  · rw [hcount, ← hend]
    simp [GameLiftManager.endGame]
  · rw [hcount]
    simp [GameLiftManager.endGame]

theorem Paired.of_quiet {m : GameLiftManager} (h : Paired m) (m' : GameLiftManager)
    (ht : m'.issued.count .terminateGameSession = m.issued.count .terminateGameSession)
    (he : m'.issued.count .processEnding = m.issued.count .processEnding)
    (ha : m'.mActivated = m.mActivated) : gamesEnded m' = gamesEnded m ∧ Paired m' := by
  have hcount : gamesEnded m' = gamesEnded m := ht
  have hend := h.ending
  have hact := h.activated
  exact ⟨hcount, by rw [he, hcount, hend], by rw [ha, hcount, hact]⟩

theorem checkTerminate_ends {m : GameLiftManager} (h : Paired m) (e : ε) :
    (maxPlayerPerGame ≤ m.mAcceptedCount ∧ maxPlayerPerGame ≤ m.mRemovedCount →
      gamesEnded (m.checkTerminateGameSession S e).1 = gamesEnded m + 1) ∧
    (¬(maxPlayerPerGame ≤ m.mAcceptedCount ∧ maxPlayerPerGame ≤ m.mRemovedCount) →
      gamesEnded (m.checkTerminateGameSession S e).1 = gamesEnded m) ∧
    Paired (m.checkTerminateGameSession S e).1 := by
  rw [GameLiftManager.checkTerminateGameSession]
  split_ifs with ht
  · obtain ⟨hcount, hpaired⟩ := endGame_ends (S := S) h e
    exact ⟨fun _ => hcount, fun hn => absurd ht hn, hpaired⟩
  · exact ⟨fun hy => absurd hy ht, fun _ => rfl, h⟩

theorem removal_ends {m : GameLiftManager} (h : Paired m) (psess : SessionId) (id : PlayerId)
    (e : ε) :
    (Occasion.Ends S (m, e) (.removal psess id) →
      gamesEnded (m.removePlayerSession S psess id e).1 = gamesEnded m + 1) ∧
    (¬Occasion.Ends S (m, e) (.removal psess id) →
      gamesEnded (m.removePlayerSession S psess id e).1 = gamesEnded m) ∧
    Paired (m.removePlayerSession S psess id e).1 := by
  rw [Occasion.Ends, GameLiftManager.removePlayerSession]
  rcases S.removePlayerSession id e with ⟨ok, e'⟩
  cases ok with
  | true =>
    obtain ⟨hcount, hpaired⟩ := h.of_quiet { m with
      issued := .removePlayerSession psess id true :: m.issued
      mPlayerSessions := m.mPlayerSessions.erase psess
      mRemovedCount := m.mRemovedCount + 1 } (by simp) (by simp) rfl
    have hh := checkTerminate_ends (S := S) hpaired e'
    rw [hcount] at hh
    exact hh
  | false =>
    obtain ⟨hcount, hpaired⟩ := h.of_quiet { m with
      issued := .removePlayerSession psess id false :: m.issued } (by simp) (by simp) rfl
    have hh := checkTerminate_ends (S := S) hpaired e'
    rw [hcount] at hh
    simpa using hh

/-- An occasion ends the game once more exactly when it is one to end it. -/
theorem Occasion.play_ends {p : GameLiftManager × ε} (h : Paired p.1) (o : Occasion ε) :
    (o.Ends S p → gamesEnded (o.play S p).1 = gamesEnded p.1 + 1) ∧
      (¬o.Ends S p → gamesEnded (o.play S p).1 = gamesEnded p.1) ∧ Paired (o.play S p).1 := by
  obtain ⟨m, e⟩ := p
  have hquiet : ∀ m', gamesEnded m' = gamesEnded m ∧ Paired m' →
      (False → gamesEnded m' = gamesEnded m + 1) ∧ (¬False → gamesEnded m' = gamesEnded m) ∧
        Paired m' := fun m' hh => ⟨False.elim, fun _ => hh.1, hh.2⟩
  cases o with
  | login psess id =>
    simp only [play, GameLiftManager.acceptPlayerSession_cases]
    exact hquiet _ (h.of_quiet _ (by simp) (by simp) rfl)
  | removal psess id => exact removal_ends h psess id e
  | startGameSession =>
    exact hquiet _ (h.of_quiet { m with issued := .activateGameSession :: m.issued }
      (by simp) (by simp) rfl)
  | processTerminate =>
    obtain ⟨hcount, hpaired⟩ := endGame_ends (S := S) h e
    exact ⟨fun _ => hcount, fun hn => absurd trivial hn, hpaired⟩
  | outside e' => exact hquiet _ ⟨rfl, h⟩

theorem run_endings (os : List (Occasion ε)) {p : GameLiftManager × ε} (h : Paired p.1) :
    gamesEnded (run S p os).1 = gamesEnded p.1 + Occasion.endings S p os ∧
      Paired (run S p os).1 := by
  induction os generalizing p with
  | nil => exact ⟨rfl, h⟩
  | cons o os ih =>
    obtain ⟨hmore, hsame, hpaired⟩ := o.play_ends (S := S) h
    obtain ⟨hcount, hlast⟩ := ih hpaired
    refine ⟨?_, hlast⟩
    change gamesEnded (run S (o.play S p) os).1 = _
    rw [hcount, Occasion.endings]
    split_ifs with hends
    · rw [hmore hends]
      omega
    · rw [hsame hends]
      omega

theorem run_ends_iff (os : List (Occasion ε)) {p : GameLiftManager × ε} (h : Paired p.1)
    (hle : gamesEnded p.1 ≤ 1) : gamesEnded (run S p os).1 ≤ 1 ↔ Occasion.Guarded S p os := by
  induction os generalizing p with
  | nil => exact ⟨fun _ => trivial, fun _ => hle⟩
  | cons o os ih =>
    obtain ⟨hmore, hsame, hpaired⟩ := o.play_ends (S := S) h
    have hact := h.activated
    change gamesEnded (run S (o.play S p) os).1 ≤ 1 ↔ (_ → _) ∧ _
    by_cases hends : o.Ends S p
    · have hcount := hmore hends
      by_cases hzero : gamesEnded p.1 = 0
      · rw [ih hpaired (by omega)]
        exact ⟨fun hg => ⟨fun _ => hact.mpr hzero, hg⟩, fun hg => hg.2⟩
      · -- The game was ended before: this occasion ends it again.
        have hmono := (run_endings (S := S) os hpaired).1
        refine ⟨fun hone => absurd hone (by omega), fun hg => absurd (hact.mp (hg.1 hends)) hzero⟩
    · have hcount := hsame hends
      rw [ih hpaired (by omega)]
      exact ⟨fun hg => ⟨fun he => absurd he hends, hg⟩, fun hg => hg.2⟩

end

def Played (S : Sdk ε) (w : Server ε) : Prop :=
  ∃ e os, run S (.initialized, e) os = (w.gameLift, w.env)

section
variable {S : Sdk ε}

theorem Played.after {w w' : Server ε} (h : Played S w) (o : Occasion ε)
    (ho : o.play S (w.gameLift, w.env) = (w'.gameLift, w'.env)) : Played S w' := by
  obtain ⟨e, os, hrun⟩ := h
  refine ⟨e, os ++ [o], ?_⟩
  rw [run, List.foldl_append]
  change o.play S (run S (.initialized, e) os) = _
  rw [hrun, ho]

end

theorem upheld_played {E : Env ε} :
    Server.Upheld E (fun _ => True) (Played E.toSdk : Server ε → Prop) where
  stable := by
    refine .of_closed ?_ ?_ ?_
    · intro w w' hq h
      refine h.after (.outside w'.env) ?_
      rw [hq.gameLift]
      rfl
    · intro w sid _ _ h
      exact h.after (.outside w.env) rfl
    · intro w sid _ _ h
      exact h.after (.removal sid (w.sessions sid).mPlayerSessionId) rfl
  receive h := h.after (.outside _) rfl
  lookup := by
    intro w sock _ h
    rcases Server.startReceive_cases w sock with ⟨sid, -, -, he⟩ | ⟨f, he⟩ | ⟨-, he⟩ <;> rw [he]
    · exact h
    · exact h.after (.outside _) rfl
    · exact h.after (.outside _) rfl
  create _ _ _ h := h.after (.outside _) rfl
  accepted := by
    intro w sid id b _ _ _ h _
    exact h.after (.login sid id) (congrArg Prod.snd (GameLiftManager.acceptPlayerSession_cases ..))
  rejected := by
    intro w sid id b _ _ _ h _
    exact h.after (.login sid id) (congrArg Prod.snd (GameLiftManager.acceptPlayerSession_cases ..))
  removed := by
    intro w sid id b _ _ _ h
    exact h.after (.removal sid id) rfl
  started h := h.after .startGameSession rfl
  terminated h := h.after .processTerminate rfl
  outside _ h := h.after (.outside _) rfl

/-- The manager of a running server went through such a run, and a run ends the
game at most once exactly when each occasion to end it finds `mActivated` set,
that is when there is one such occasion at most. -/
theorem terminatesOnce_iff (E : Env ε) :
    (∀ c, Reachable E (fun _ _ => True) c → ∃ e os,
      run E.toSdk (.initialized, e) os = (c.server.gameLift, c.server.env)) ∧
    ∀ e os, (gamesEnded (run E.toSdk (.initialized, e) os).1 ≤ 1 ∧
        (run E.toSdk (.initialized, e) os).1.issued.count .processEnding ≤ 1 ↔
      Occasion.Guarded E.toSdk (.initialized, e) os) ∧
      (Occasion.Guarded E.toSdk (.initialized, e) os ↔
        Occasion.endings E.toSdk (.initialized, e) os ≤ 1) := by
  constructor
  · intro c hc
    refine hc.invariant upheld_played (fun w hw => ⟨w.env, [], ?_⟩) fun _ _ _ => trivial
    rw [hw.gameLift]
    rfl
  · intro e os
    obtain ⟨hcount, hpaired⟩ :=
      run_endings (S := E.toSdk) (p := (.initialized, e)) os paired_initialized
    have hiff := run_ends_iff (S := E.toSdk) (p := (.initialized, e)) os paired_initialized
      (Nat.zero_le 1)
    have hnone : gamesEnded (GameLiftManager.initialized, e).1 = 0 := rfl
    rw [hnone, Nat.zero_add] at hcount
    rw [hpaired.ending, and_self, ← hiff, hcount]
    exact ⟨Iff.rfl, Iff.rfl⟩

/-- Eight players come and go. -/
def fullGame : List (Occasion Playback) :=
  [1, 2, 3, 4, 5, 6, 7, 8].flatMap fun i => [.login i [UInt8.ofNat i], .removal i [UInt8.ofNat i]]

theorem terminatesOnce_fullGame :
    Occasion.endings ledger (.initialized, ⟨fun _ => .reserved, []⟩) fullGame = 1 ∧
      gamesEnded (run ledger (.initialized, ⟨fun _ => .reserved, []⟩) fullGame).1 ≤ 1 := by
  have hone : Occasion.endings ledger (.initialized, ⟨fun _ => .reserved, []⟩) fullGame = 1 := by
    decide +kernel
  obtain ⟨honce, hguarded⟩ :=
    (terminatesOnce_iff playback).2 ⟨fun _ => .reserved, []⟩ fullGame
  exact ⟨hone, (honce.mpr (hguarded.mpr (Nat.le_of_eq hone))).1⟩

/-- Players `1` to `7` come and go, `8` and `9` come, and both go. -/
def lateLeaver : List (Occasion Playback) :=
  [1, 2, 3, 4, 5, 6, 7].flatMap (fun i => [.login i [UInt8.ofNat i], .removal i [UInt8.ofNat i]]) ++
    [.login 8 [8], .login 9 [9], .removal 8 [8], .removal 9 [9]]

theorem terminatesTwice :
    gamesEnded (run ledger (.initialized, ⟨fun _ => .reserved, []⟩) lateLeaver).1 = 2 ∧
      (run ledger (.initialized, ⟨fun _ => .reserved, []⟩) lateLeaver).1.issued.count
        .processEnding = 2 := by
  decide +kernel

end GameLift
