import GameLift.GameSession

/-! How the polls of GameSession.cpp end. Both loops leave on the status they hope for and on
a failed request, and wait through every other status, also one that never changes again. -/

namespace GameLift

namespace DummyClients

open Polling (Poll Settles Succeeds Watches)

def GameSessionPlacementState.Final : GameSessionPlacementState → Prop
  | .fulfilled | .cancelled | .timedOut | .failed => True
  | _ => False

def GameSessionStatus.Final : GameSessionStatus → Prop
  | .active | .terminated | .error => True
  | _ => False

variable {ε : Type} {A : AwsClient ε} {m : ManagerConfig} {s : GameSession} {e : ε}

def placementSeen (A : AwsClient ε) (s : GameSession) (e : ε) (n : Nat) :
    Option GameSessionPlacementState :=
  match (s.placementPoll A).answer e n with
  | .success gs => some gs.status
  | .failure => none

def statusSeen (A : AwsClient ε) (s : GameSession) (e : ε) (n : Nat) : Option GameSessionStatus :=
  match (s.waitPoll A).answer e n with
  | .success l => l.head?
  | .failure => none

theorem watches_placement (A : AwsClient ε) (s : GameSession) (e : ε) :
    Watches (s.placementPoll A) e (placementSeen A s e) .fulfilled
      fun r ok => r.1 = ok := by
  intro n
  have hreact : (s.placementPoll A).reaction e n = s.placementAnswer A
      ((s.placementPoll A).answer e n) ((s.placementPoll A).ask ((s.placementPoll A).before e n)).2 :=
    rfl
  rw [hreact, placementSeen]
  cases (s.placementPoll A).answer e n with
  | failure => exact Or.inl ⟨rfl, _, rfl, rfl⟩
  | success gs =>
    right
    by_cases hstatus : gs.status = .fulfilled
    · exact Or.inl ⟨congrArg some hstatus, _, if_pos hstatus, rfl⟩
    · exact Or.inr ⟨gs.status, rfl, hstatus, if_neg hstatus⟩

theorem watches_status (A : AwsClient ε) (s : GameSession) (e : ε) :
    Watches (s.waitPoll A) e (statusSeen A s e) .active
      fun r ok => r.1 = .ok ok := by
  intro n
  have hreact : (s.waitPoll A).reaction e n = s.waitAnswer
      ((s.waitPoll A).answer e n) ((s.waitPoll A).ask ((s.waitPoll A).before e n)).2 := rfl
  have hfound : ∀ l, (s.waitPoll A).answer e n = .success l → l ≠ [] := fun l hl =>
    A.describe_found _ _ l hl
  rw [hreact, statusSeen]
  cases hans : (s.waitPoll A).answer e n with
  | failure => exact Or.inl ⟨rfl, _, rfl, rfl⟩
  | success l =>
    cases l with
    | nil => exact absurd rfl (hfound [] hans)
    | cons status rest =>
      right
      by_cases hstatus : status = .active
      · exact Or.inl ⟨congrArg some hstatus, _, if_pos hstatus, rfl⟩
      · exact Or.inr ⟨status, rfl, hstatus, if_neg hstatus⟩

/-- The queue has taken the placement on: `t` and `e₁` are what the first poll meets. -/
structure Pending (A : AwsClient ε) (m : ManagerConfig) (s : GameSession) (e : ε)
    (t : GameSession) (e₁ : ε) : Prop where
  free : s.mLock = false
  session : t = (s.locked.generatePlacementId A (A.setUpAwsClient m.mRegion e)).1
  answered : ∃ gs, A.startGameSessionPlacement
      ⟨m.mMatchQueueName, maxPlayerPerGame, t.mPlacementId⟩
      (s.locked.generatePlacementId A (A.setUpAwsClient m.mRegion e)).2 = (.success gs, e₁) ∧
    gs.status = .pending

structure Created (A : AwsClient ε) (m : ManagerConfig) (s : GameSession) (e : ε)
    (t : GameSession) (e₁ : ε) : Prop where
  free : s.mLock = false
  answered : ∃ gs, A.createGameSession (GameSession.createRequest m s.locked) e =
    (.success gs, e₁) ∧ t = s.locked.created gs

theorem Pending.start_eq {t : GameSession} {e₁ : ε} (h : Pending A m s e t e₁) {fuel : Nat}
    {ok : Bool} {u : GameSession} {e' : ε} :
    s.startGameSessionPlacement A m fuel e = some (ok, u, e') ↔
      ∃ v, t.checkGameSessionPlacement A fuel e₁ = some (ok, v, e') ∧ u = v.unlocked := by
  obtain ⟨gs, hgs, hstatus⟩ := h.answered
  rw [h.session] at hgs
  rw [GameSession.startGameSessionPlacement, GameSession.guarded_eq_some h.free, h.session]
  dsimp only
  rw [hgs]
  dsimp only
  rw [if_pos hstatus]

theorem Created.create_eq {t : GameSession} {e₁ : ε} (h : Created A m s e t e₁) {fuel : Nat}
    {r : Except Fault Bool} {u : GameSession} {e' : ε} :
    s.createGameSession A m fuel e = some (r, u, e') ↔
      ∃ v, Loop.loop (t.waitPoll A).body fuel e₁ = some (r, v, e') ∧ u = v.unlocked := by
  obtain ⟨gs, hgs, rfl⟩ := h.answered
  rw [GameSession.createGameSession, GameSession.guarded_eq_some h.free]
  rw [hgs]

theorem check_ends_iff (A : AwsClient ε) (s : GameSession) (e : ε)
    (hs : Settles GameSessionPlacementState.Final (placementSeen A s e)) :
    (∃ fuel ok t e', s.checkGameSessionPlacement A fuel e = some (ok, t, e') ∧
      (ok = true ↔ Succeeds GameSessionPlacementState.Final .fulfilled (placementSeen A s e))) ↔
      ∃ n, placementSeen A s e n = none ∨ placementSeen A s e n = some .fulfilled := by
  rw [← (watches_placement A s e).returns_iff hs]
  constructor
  · rintro ⟨fuel, ok, t, e', hrun, hright⟩
    exact ⟨(ok, t, e'), ok, ⟨fuel, hrun⟩, rfl, hright⟩
  · rintro ⟨⟨ok, t, e'⟩, -, ⟨fuel, hrun⟩, rfl, hright⟩
    exact ⟨fuel, ok, t, e', hrun, hright⟩

theorem wait_ends_iff (A : AwsClient ε) (s : GameSession) (e : ε)
    (hs : Settles GameSessionStatus.Final (statusSeen A s e)) :
    (∃ fuel ok t e', Loop.loop (s.waitPoll A).body fuel e = some (.ok ok, t, e') ∧
      (ok = true ↔ Succeeds GameSessionStatus.Final .active (statusSeen A s e))) ↔
      ∃ n, statusSeen A s e n = none ∨ statusSeen A s e n = some .active := by
  rw [← (watches_status A s e).returns_iff hs]
  constructor
  · rintro ⟨fuel, ok, t, e', hrun, hright⟩
    exact ⟨(.ok ok, t, e'), ok, ⟨fuel, hrun⟩, rfl, hright⟩
  · rintro ⟨⟨r, t, e'⟩, ok, ⟨fuel, hrun⟩, rfl, hright⟩
    exact ⟨fuel, ok, t, e', hrun, hright⟩

/-- Provided that what is polled settles, or a request fails: each wait comes to the right
end, and frees the lock it is under, exactly if some poll fails or meets the status waited for. -/
theorem polling_ends_iff (A : AwsClient ε) (m : ManagerConfig) (s : GameSession) (e : ε) :
    (Settles GameSessionPlacementState.Final (placementSeen A s e) →
      ((∃ fuel ok t e', s.checkGameSessionPlacement A fuel e = some (ok, t, e') ∧
        (ok = true ↔ Succeeds GameSessionPlacementState.Final .fulfilled (placementSeen A s e))) ↔
      ∃ n, placementSeen A s e n = none ∨ placementSeen A s e n = some .fulfilled)) ∧
    (∀ t e₁, Pending A m s e t e₁ →
      Settles GameSessionPlacementState.Final (placementSeen A t e₁) →
      ((∃ fuel ok u e', s.startGameSessionPlacement A m fuel e = some (ok, u, e') ∧
        u.mLock = false ∧
        (ok = true ↔ Succeeds GameSessionPlacementState.Final .fulfilled (placementSeen A t e₁))) ↔
      ∃ n, placementSeen A t e₁ n = none ∨ placementSeen A t e₁ n = some .fulfilled)) ∧
    (∀ t e₁, Created A m s e t e₁ → Settles GameSessionStatus.Final (statusSeen A t e₁) →
      ((∃ fuel ok u e', s.createGameSession A m fuel e = some (.ok ok, u, e') ∧
        u.mLock = false ∧
        (ok = true ↔ Succeeds GameSessionStatus.Final .active (statusSeen A t e₁))) ↔
      ∃ n, statusSeen A t e₁ n = none ∨ statusSeen A t e₁ n = some .active)) := by
  refine ⟨check_ends_iff A s e, fun t e₁ hp hs => ?_, fun t e₁ hc hs => ?_⟩
  · rw [← check_ends_iff A t e₁ hs]
    constructor
    · rintro ⟨fuel, ok, u, e', hrun, -, hright⟩
      obtain ⟨v, hv, -⟩ := hp.start_eq.mp hrun
      exact ⟨fuel, ok, v, e', hv, hright⟩
    · rintro ⟨fuel, ok, v, e', hv, hright⟩
      exact ⟨fuel, ok, v.unlocked, e', hp.start_eq.mpr ⟨v, hv, rfl⟩, rfl, hright⟩
  · rw [← wait_ends_iff A t e₁ hs]
    constructor
    · rintro ⟨fuel, ok, u, e', hrun, -, hright⟩
      obtain ⟨v, hv, -⟩ := hc.create_eq.mp hrun
      exact ⟨fuel, ok, v, e', hv, hright⟩
    · rintro ⟨fuel, ok, v, e', hv, hright⟩
      exact ⟨fuel, ok, v.unlocked, e', hc.create_eq.mpr ⟨v, hv, rfl⟩, rfl, hright⟩

/-- A service that gives every object the same status, from the first answer on. -/
def steady (placement : GameSessionPlacementState) (status : GameSessionStatus) :
    AwsClient Unit where
  setUpAwsClient _ e := e
  createGameSession _ e := (.success ⟨7777, "10.0.0.1", "gsess-1"⟩, e)
  describeGameSessions _ e := (.success [status], e)
  startGameSessionPlacement _ e := (.success ⟨.pending, "", "", 0, ""⟩, e)
  describeGameSessionPlacement _ e :=
    (.success ⟨placement, "gsess-1", "10.0.0.1", 7777, "us-east-1"⟩, e)
  createPlayerSessions _ ids e := (.success (ids.map ("psess-" ++ ·)), e)
  uuidCreate e := ("placement-1", e)
  sleep _ e := e
  describe_found _ _ l h := by
    cases h
    exact List.cons_ne_nil _ _

theorem settles_steady {σ : Type} {final : σ → Prop} {seen : Nat → Option σ} {status : σ}
    (h : ∀ n, seen n = some status) (hf : final status) : Settles final seen where
  event := ⟨0, by rw [h 0]; exact hf⟩
  stays m n f _ hm _ := Or.inl ((h n).trans ((h m).symm.trans hm))

def queued : ManagerConfig := ⟨"TEST_LOCAL", "us-east-1", "MatchQueue"⟩

/-- A service that is ready after three pauses. -/
def warming : AwsClient Nat where
  setUpAwsClient _ e := e
  createGameSession _ e := (.success ⟨7777, "10.0.0.1", "gsess-1"⟩, e)
  describeGameSessions _ e := (.success [if e < 3 then .activating else .active], e)
  startGameSessionPlacement _ e := (.success ⟨.pending, "", "", 0, ""⟩, e)
  describeGameSessionPlacement _ e :=
    (.success ⟨if e < 3 then .pending else .fulfilled, "gsess-1", "10.0.0.1", 7777, "us-east-1"⟩, e)
  createPlayerSessions _ ids e := (.success (ids.map ("psess-" ++ ·)), e)
  uuidCreate e := ("placement-1", e)
  sleep _ e := e + 1
  describe_found _ _ l h := by
    cases h
    exact List.cons_ne_nil _ _

theorem warming_placement (s : GameSession) (n : Nat) :
    placementSeen warming s 0 n = some (if n < 3 then .pending else .fulfilled) := by
  have hbefore : (s.placementPoll warming).before 0 n = n := by
    induction n with
    | zero => rfl
    | succ n ih =>
      change (s.placementPoll warming).before 0 n + 1 = n + 1
      rw [ih]
  rw [placementSeen, Polling.Poll.answer, hbefore]
  rfl

theorem warming_status (s : GameSession) (n : Nat) :
    statusSeen warming s 0 n = some (if n < 3 then .activating else .active) := by
  have hbefore : (s.waitPoll warming).before 0 n = n := by
    induction n with
    | zero => rfl
    | succ n ih =>
      change (s.waitPoll warming).before 0 n + 1 = n + 1
      rw [ih]
  rw [statusSeen, Polling.Poll.answer, hbefore]
  rfl

section
variable {σ : Type} {final : σ → Prop} {seen : Nat → Option σ} {early late : σ}

theorem settles_after (h : ∀ n, seen n = some (if n < 3 then early else late))
    (hearly : ¬final early) (hlate : final late) : Settles final seen where
  event := ⟨3, by rw [h]; exact hlate⟩
  stays m n status hle hm hstatus := by
    rw [h, Option.some.injEq] at hm
    have hlast : ¬m < 3 := by
      intro hlt
      rw [if_pos hlt] at hm
      exact hearly (hm ▸ hstatus)
    rw [if_neg hlast] at hm
    rw [h, if_neg (by omega), hm]
    exact Or.inl rfl

theorem succeeds_after (h : ∀ n, seen n = some (if n < 3 then early else late))
    (hearly : ¬final early) : Succeeds final late seen := by
  refine ⟨3, h 3, fun i hi hevent => ?_⟩
  rw [h, if_pos hi] at hevent
  exact hearly hevent

end

/-- The launcher polls four times in each of its waits. -/
theorem waits_end :
    (∃ fuel t e, (GameSession.new 0 8 "").checkGameSessionPlacement warming fuel 0 =
      some (true, t, e)) ∧
    (∃ fuel u e, (GameSession.new 0 8 "").startGameSessionPlacement warming queued fuel 0 =
      some (true, u, e) ∧ u.mLock = false) ∧
    ∃ fuel u e, (GameSession.new 0 8 "").createGameSession warming queued fuel 0 =
      some (.ok true, u, e) ∧ u.mLock = false := by
  obtain ⟨hcheck, hstart, hcreate⟩ := polling_ends_iff warming queued (GameSession.new 0 8 "") 0
  have hpending : ¬GameSessionPlacementState.Final .pending := fun h => h
  have hactivating : ¬GameSessionStatus.Final .activating := fun h => h
  have hp : Pending warming queued (GameSession.new 0 8 "") 0
      { (GameSession.new 0 8 "").locked with mPlacementId := "placement-1" } 0 :=
    ⟨rfl, rfl, ⟨⟨.pending, "", "", 0, ""⟩, rfl, rfl⟩⟩
  have hc : Created warming queued (GameSession.new 0 8 "") 0
      ((GameSession.new 0 8 "").locked.created ⟨7777, "10.0.0.1", "gsess-1"⟩) 0 :=
    ⟨rfl, ⟨_, rfl, rfl⟩⟩
  refine ⟨?_, ?_, ?_⟩
  · obtain ⟨fuel, ok, t, e, hrun, hright⟩ :=
      (hcheck (settles_after (warming_placement _) hpending trivial)).mpr
        ⟨3, Or.inr (warming_placement _ 3)⟩
    obtain rfl := hright.mpr (succeeds_after (warming_placement _) hpending)
    exact ⟨fuel, t, e, hrun⟩
  · obtain ⟨fuel, ok, u, e, hrun, hlock, hright⟩ :=
      (hstart _ _ hp (settles_after (warming_placement _) hpending trivial)).mpr
        ⟨3, Or.inr (warming_placement _ 3)⟩
    obtain rfl := hright.mpr (succeeds_after (warming_placement _) hpending)
    exact ⟨fuel, u, e, hrun, hlock⟩
  · obtain ⟨fuel, ok, u, e, hrun, hlock, hright⟩ :=
      (hcreate _ _ hc (settles_after (warming_status _) hactivating trivial)).mpr
        ⟨3, Or.inr (warming_status _ 3)⟩
    obtain rfl := hright.mpr (succeeds_after (warming_status _) hactivating)
    exact ⟨fuel, u, e, hrun, hlock⟩

/-- The queue runs out of capacity and cancels the placement: the launcher polls for ever,
with the lock in its hands. -/
theorem placement_cancelled :
    Settles GameSessionPlacementState.Final
      (placementSeen (steady .cancelled .error) (GameSession.new 0 8 "") ()) ∧
    (∀ fuel, (GameSession.new 0 8 "").checkGameSessionPlacement (steady .cancelled .error) fuel () =
      none) ∧
    ∀ fuel, (GameSession.new 0 8 "").startGameSessionPlacement (steady .cancelled .error) queued
      fuel () = none := by
  have hnever : ∀ s fuel, GameSession.checkGameSessionPlacement (steady .cancelled .error) fuel s
      () = none := by
    intro s fuel
    have hseen : ∀ n, placementSeen (steady .cancelled .error) s () n = some .cancelled :=
      fun _ => rfl
    have hhang := (watches_placement (steady .cancelled .error) s ()).not_terminates (by
      rintro ⟨n, hn | hn⟩ <;>
        rw [hseen n] at hn <;>
        cases hn)
    rw [Option.eq_none_iff_forall_ne_some]
    exact fun r hr => hhang ⟨r, fuel, hr⟩
  refine ⟨settles_steady (fun _ => rfl) trivial, hnever _, fun fuel => ?_⟩
  rw [Option.eq_none_iff_forall_ne_some]
  rintro ⟨ok, u, e'⟩ hr
  have hp : Pending (steady .cancelled .error) queued (GameSession.new 0 8 "") ()
      { (GameSession.new 0 8 "").locked with mPlacementId := "placement-1" } () :=
    ⟨rfl, rfl, ⟨⟨.pending, "", "", 0, ""⟩, rfl, rfl⟩⟩
  obtain ⟨v, hv, -⟩ := hp.start_eq.mp hr
  rw [hnever] at hv
  cases hv

end DummyClients

end GameLift
