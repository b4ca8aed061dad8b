import Mathlib.Data.List.TakeWhile
import GameLift.Launcher
import GameLift.SessionPolling

/-! Which player sessions of a game session get a client of their own. -/

namespace GameLift

namespace DummyClients

variable {ε β : Type}

/-- What is not touched between the preparation of a game session and its connections. -/
structure Keeps (s t : GameSession) : Prop where
  ready : t.mReadySessionList = s.mReadySessionList
  count : t.mMaxPlayerCount = s.mMaxPlayerCount

theorem guarded_some {s t : GameSession} {body : GameSession → Option (β × GameSession × ε)}
    {r : β} {e : ε} (h : s.guarded body = some (r, t, e)) :
    s.mLock = false ∧ ∃ u, body s.locked = some (r, u, e) ∧ t = u.unlocked := by
  by_cases hfree : s.mLock = false
  · exact ⟨hfree, (GameSession.guarded_eq_some hfree).mp h⟩
  · rw [GameSession.guarded, if_pos (Bool.of_not_eq_false hfree)] at h
    cases h

theorem guarded_keeps {s t : GameSession} {body : GameSession → Option (β × GameSession × ε)}
    {r : β} {e : ε} (hbody : ∀ u, body s.locked = some (r, u, e) → Keeps s.locked u)
    (h : s.guarded body = some (r, t, e)) : Keeps s t ∧ t.mLock = false := by
  obtain ⟨-, u, hu, rfl⟩ := guarded_some h
  exact ⟨⟨(hbody u hu).ready, (hbody u hu).count⟩, rfl⟩

theorem createGameSession_keeps {A : AwsClient ε} {m : ManagerConfig} {fuel : Nat}
    {s t : GameSession} {e e' : ε} {r : Except Fault Bool}
    (h : s.createGameSession A m fuel e = some (r, t, e')) : Keeps s t ∧ t.mLock = false := by
  apply guarded_keeps _ h
  intro u hu
  rcases hcreate : A.createGameSession (GameSession.createRequest m s.locked) e with ⟨_ | _, e₁⟩ <;>
    rw [hcreate] at hu
  · obtain ⟨a, e₂, hreact⟩ := Polling.Poll.exists_react ⟨fuel, hu⟩
    simp only [GameSession.waitPoll, GameSession.waitAnswer] at hreact
    split at hreact
    · cases hreact
      exact ⟨rfl, rfl⟩
    · split at hreact <;> cases hreact
      exact ⟨rfl, rfl⟩
    · cases hreact
      exact ⟨rfl, rfl⟩
  · cases hu
    exact ⟨rfl, rfl⟩

theorem checkGameSessionPlacement_keeps {A : AwsClient ε} {fuel : Nat} {s t : GameSession}
    {e e' : ε} {ok : Bool} (h : s.checkGameSessionPlacement A fuel e = some (ok, t, e')) :
    Keeps s t := by
  obtain ⟨a, e₂, hreact⟩ := Polling.Poll.exists_react ⟨fuel, h⟩
  simp only [GameSession.placementPoll, GameSession.placementAnswer] at hreact
  split at hreact
  · split at hreact <;> cases hreact
    exact ⟨rfl, rfl⟩
  · cases hreact
    exact ⟨rfl, rfl⟩

theorem startGameSessionPlacement_keeps {A : AwsClient ε} {m : ManagerConfig} {fuel : Nat}
    {s t : GameSession} {e e' : ε} {ok : Bool}
    (h : s.startGameSessionPlacement A m fuel e = some (ok, t, e')) :
    Keeps s t ∧ t.mLock = false := by
  apply guarded_keeps _ h
  intro u hu
  dsimp only at hu
  split at hu
  · split at hu
    · have hcheck := checkGameSessionPlacement_keeps hu
      exact ⟨hcheck.ready, hcheck.count⟩
    · split at hu <;> cases hu <;> exact ⟨rfl, rfl⟩
  · cases hu
    exact ⟨rfl, rfl⟩

theorem start_keeps {A : AwsClient ε} {m : ManagerConfig} {fuel : Nat} {mode : LaunchMode}
    {s t : GameSession} {e e' : ε} {r : Except Fault Bool}
    (h : mode.start A m fuel s e = some (r, t, e')) : Keeps s t ∧ t.mLock = false := by
  cases mode with
  | launchGameSessions => exact createGameSession_keeps h
  | launchGameSessionPlacement =>
    obtain ⟨⟨ok, u, e₁⟩, hstart, heq⟩ := Option.bind_eq_some_iff.mp h
    cases heq
    exact startGameSessionPlacement_keeps hstart

theorem createPlayerSessions_keeps {A : AwsClient ε} {except : Int} {s t : GameSession} {e e' : ε}
    {ok : Bool} (h : s.createPlayerSessions A except e = some (ok, t, e')) :
    Keeps s t ∧ t.mLock = false := by
  apply guarded_keeps _ h
  intro u hu
  split at hu <;> cases hu <;> exact ⟨rfl, rfl⟩

/-- How many clients the rounds of `PreparePlayerSessions` from the i-th on get ready. -/
def readyCount (results : Nat → SocketResults) (i n : Nat) : Nat :=
  ((List.range' i n).takeWhile fun j => prepareSession (results j)).length

section

variable {results : Nat → SocketResults}

theorem readyCount_of_failed {i n : Nat} (h : prepareSession (results i) = false) :
    readyCount results i (n + 1) = 0 := by
  simp only [readyCount, List.range'_succ, List.takeWhile_cons, h]
  rfl

theorem readyCount_of_prepared {i n : Nat} (h : prepareSession (results i) = true) :
    readyCount results i (n + 1) = readyCount results (i + 1) n + 1 := by
  simp only [readyCount, List.range'_succ, List.takeWhile_cons, h]
  rfl

theorem le_readyCount_iff {n : Nat} :
    n ≤ readyCount results 0 n ↔ ∀ i < n, prepareSession (results i) = true := by
  constructor
  · intro h i hi
    have hall := (List.takeWhile_prefix fun j => prepareSession (results j)).eq_of_length_le
      (by rwa [List.length_range'])
    exact List.takeWhile_eq_self_iff.mp hall i (List.mem_range'_1.mpr ⟨Nat.zero_le i, by omega⟩)
  · intro h
    have hall : (List.range' 0 n).takeWhile (fun j => prepareSession (results j)) =
        List.range' 0 n := by
      apply List.takeWhile_eq_self_iff.mpr
      intro i hi
      have hlt := (List.mem_range'_1.mp hi).2
      exact h i (by omega)
    rw [readyCount, hall, List.length_range']

theorem prepareFrom_session (results : Nat → SocketResults) (n i : Nat) (s : GameSession) (w : Launcher ε) :
    (GameSession.prepareFrom results n i s w).2.1 = { s with
      mReadySessionList :=
        s.mReadySessionList ++ List.range' w.allocated (readyCount results i n) } := by
  induction n generalizing i s w with
  | zero => exact congrArg (fun l => { s with mReadySessionList := l }) (List.append_nil _).symm
  | succ n ih =>
    rw [GameSession.prepareFrom]
    by_cases hfail : prepareSession (results i) = false
    · rw [if_pos hfail, readyCount_of_failed hfail]
      exact congrArg (fun l => { s with mReadySessionList := l }) (List.append_nil _).symm
    · rw [if_neg hfail, ih, readyCount_of_prepared (Bool.of_not_eq_false hfail), List.range'_succ,
        ← List.append_cons]
      rfl

theorem prepareFrom_allocated (n i : Nat) (s : GameSession) (w : Launcher ε) :
    w.allocated + readyCount results i n ≤
      (GameSession.prepareFrom results n i s w).2.2.allocated := by
  induction n generalizing i s w with
  | zero => exact Nat.le_refl _
  | succ n ih =>
    rw [GameSession.prepareFrom]
    by_cases hfail : prepareSession (results i) = false
    · rw [if_pos hfail, readyCount_of_failed hfail]
      exact Nat.le_succ _
    · have hrest := ih (i + 1)
        { s with mReadySessionList := s.mReadySessionList ++ [w.allocated] } w.allocate
      rw [if_neg hfail, readyCount_of_prepared (Bool.of_not_eq_false hfail)]
      have hone : w.allocate.allocated = w.allocated + 1 := rfl
      omega

theorem allocate_idle {w : Launcher ε} (h : ∀ c, (w.players c).mConnectAddr = none)
    (c : ClientId) : (w.allocate.players c).mConnectAddr = none := by
  by_cases hc : c = w.allocated
  · simp only [Launcher.allocate, hc, Function.update_self]
    rfl
  · simp only [Launcher.allocate, Function.update_of_ne hc]
    exact h c

theorem prepareFrom_idle (n i : Nat) (s : GameSession) {w : Launcher ε}
    (h : ∀ c, (w.players c).mConnectAddr = none) (c : ClientId) :
    ((GameSession.prepareFrom results n i s w).2.2.players c).mConnectAddr = none := by
  induction n generalizing i s w with
  | zero => exact h c
  | succ n ih =>
    rw [GameSession.prepareFrom]
    by_cases hfail : prepareSession (results i) = false
    · rw [if_pos hfail]
      exact allocate_idle h c
    · rw [if_neg hfail]
      exact ih _ _ (allocate_idle h)

end

/-- The clients are handed out in order, so that no two game sessions share one. -/
structure Prepared (except : Int) (results : Nat → Nat → SocketResults) (l : List GameSession)
    (w : Launcher ε) : Prop where
  idle : ∀ c, (w.players c).mConnectAddr = none
  below : ∀ s ∈ l, ∀ c ∈ s.mReadySessionList, c < w.allocated
  apart : l.Pairwise fun s t => s.mReadySessionList.Disjoint t.mReadySessionList
  nodup : ∀ s ∈ l, s.mReadySessionList.Nodup
  count : ∀ s ∈ l, s.mMaxPlayerCount = maxPlayerPerGame
  ready : ∀ g s, l[g]? = some s →
    s.mReadySessionList.length = readyCount (results g) 0 (s.playerCount except)

theorem length_prepareGameSessions (except : Int) (results : Nat → Nat → SocketResults) (n : Nat)
    (w : Launcher ε) : (prepareGameSessions except results n w).1.length = n := by
  induction n with
  | zero => rfl
  | succ n ih =>
    rw [prepareGameSessions, List.length_append, ih]
    rfl

theorem Prepared.append {except : Int} {results : Nat → Nat → SocketResults}
    {l : List GameSession} {w w' : Launcher ε} {s : GameSession} (h : Prepared except results l w)
    (hidle : ∀ c, (w'.players c).mConnectAddr = none)
    (hready : s.mReadySessionList =
      List.range' w.allocated (readyCount (results l.length) 0 (s.playerCount except)))
    (hw : w.allocated + readyCount (results l.length) 0 (s.playerCount except) ≤ w'.allocated)
    (hcount : s.mMaxPlayerCount = maxPlayerPerGame) : Prepared except results (l ++ [s]) w' := by
  have hrange : ∀ c ∈ s.mReadySessionList, w.allocated ≤ c ∧ c < w'.allocated := by
    intro c hc
    rw [hready] at hc
    obtain ⟨hge, hlt⟩ := List.mem_range'_1.mp hc
    exact ⟨hge, Nat.lt_of_lt_of_le hlt hw⟩
  constructor
  · exact hidle
  · rw [List.forall_mem_append, List.forall_mem_singleton]
    constructor
    · intro t ht c hc
      exact Nat.lt_of_lt_of_le (h.below t ht c hc) (Nat.le_of_add_right_le hw)
    · exact fun c hc => (hrange c hc).2
  · rw [List.pairwise_append]
    refine ⟨h.apart, List.pairwise_singleton _ _, ?_⟩
    intro t ht u hu c hc hcs
    rw [List.mem_singleton.mp hu] at hcs
    exact Nat.not_lt_of_le (hrange c hcs).1 (h.below t ht c hc)
  · rw [List.forall_mem_append, List.forall_mem_singleton, hready]
    exact ⟨h.nodup, List.nodup_range'⟩
  · exact List.forall_mem_append.mpr ⟨h.count, List.forall_mem_singleton.mpr hcount⟩
  · intro g t hg
    rcases Nat.lt_trichotomy g l.length with hlt | heq | hgt
    · rw [List.getElem?_append_left hlt] at hg
      exact h.ready g t hg
    · rw [heq, List.getElem?_concat_length] at hg
      cases hg
      rw [heq, hready, List.length_range']
    · rw [List.getElem?_eq_none (by rw [List.length_append]; exact hgt)] at hg
      cases hg

theorem prepareGameSessions_spec (except : Int) (results : Nat → Nat → SocketResults) (n : Nat) (e : ε) :
    Prepared except results (prepareGameSessions except results n (Launcher.new e)).1
      (prepareGameSessions except results n (Launcher.new e)).2 := by
  induction n with
  | zero =>
    refine ⟨fun _ => rfl, ?_, List.Pairwise.nil, ?_, ?_, fun g s hs => by cases hs⟩ <;>
      exact fun s hs => absurd hs List.not_mem_nil
  | succ n ih =>
    have hlen := length_prepareGameSessions except results n (Launcher.new e)
    rw [prepareGameSessions]
    generalize hp : prepareGameSessions except results n (Launcher.new e) = p at ih hlen
    generalize hnew : GameSession.new (n * maxPlayerPerGame) maxPlayerPerGame
      ("MyTestGameSession" ++ toString (n + 1)) = newGs
    have hempty : newGs.mReadySessionList = [] := by rw [← hnew]; rfl
    have hcount : newGs.mMaxPlayerCount = maxPlayerPerGame := by rw [← hnew]; rfl
    have hs := prepareFrom_session (results n) (newGs.playerCount except) 0 newGs p.2
    rw [hempty, List.nil_append, ← hlen] at hs
    have hsame : (newGs.preparePlayerSessions except (results p.1.length) p.2).2.1.playerCount
        except = newGs.playerCount except := by
      rw [GameSession.preparePlayerSessions, hs]
      rfl
    have hstep : Prepared except results
        (p.1 ++ [(newGs.preparePlayerSessions except (results p.1.length) p.2).2.1])
        (newGs.preparePlayerSessions except (results p.1.length) p.2).2.2 := by
      apply ih.append
      · exact prepareFrom_idle _ 0 newGs ih.idle
      · rw [hsame, GameSession.preparePlayerSessions, hs]
      · rw [hsame]
        exact prepareFrom_allocated _ 0 newGs p.2
      · rw [GameSession.preparePlayerSessions, hs]
        exact hcount
    rw [hlen] at hstep
    exact hstep

section

variable {E : Host ε} {s t : GameSession} {w w' : Launcher ε}

theorem connectRound_players {playerSessionId : String} {c c' : ClientId}
    {x : Int × Launcher ε} (hne : c' ≠ c) :
    (s.connectRound E playerSessionId c x).2.2.players c' = x.2.players c' := by
  rw [GameSession.connectRound, GameSession.connectRequest]
  split
  · next hok =>
    split at hok <;> cases hok
    exact Function.update_of_ne hne _ _
  · next hok =>
    split at hok <;> cases hok
    · rfl
    · exact Function.update_of_ne hne _ _

/-- A client whose connection was not requested is taken, and the walk goes on. -/
theorem connectRound_idle (playerSessionId : String) {c : ClientId} {x : Int × Launcher ε}
    (h : (x.2.players c).mConnectAddr = none) :
    (s.connectRound E playerSessionId c x).1 = none ∧
      (s.connectRound E playerSessionId c x).2.2.players c =
        ⟨some s.connectAddr, playerSessionId, x.1⟩ := by
  have hfree : ¬x.2.mConnected E c = true := by
    rw [Launcher.mConnected, h]
    exact Bool.false_ne_true
  rw [GameSession.connectRound, GameSession.connectRequest, if_neg hfree]
  exact ⟨rfl, Function.update_self _ _ _⟩

theorem connectPlayerSessions_players {r : Except Fault Bool}
    (h : s.connectPlayerSessions E w = some (r, t, w')) {c : ClientId}
    (hc : c ∉ s.mReadySessionList) : w'.players c = w.players c := by
  obtain ⟨-, u, hu, -⟩ := guarded_some h
  cases hu
  apply Lockstep.walk_keeps (Q := fun x : Int × Launcher ε => x.2.players c = w.players c)
  · intro p c' hc' x hx
    have hne : c ≠ c' := by
      rintro rfl
      exact hc hc'
    rw [connectRound_players hne]
    exact hx
  · rfl

theorem launch_players {m : ManagerConfig} {except : Int} {fuel : Nat} {mode : LaunchMode}
    {r : Except Fault Bool}
    (h : launch (mode.start E.toAwsClient m fuel) E except s w = some (r, t, w')) {c : ClientId}
    (hc : c ∉ s.mReadySessionList) : w'.players c = w.players c := by
  obtain ⟨⟨r₁, s₁, e₁⟩, hstart, h⟩ := Option.bind_eq_some_iff.mp h
  dsimp only at h
  split at h
  · obtain ⟨⟨ok, s₂, e₂⟩, hcreate, h⟩ := Option.bind_eq_some_iff.mp h
    dsimp only at h
    split at h
    · rw [← (start_keeps hstart).1.ready, ← (createPlayerSessions_keeps hcreate).1.ready] at hc
      exact connectPlayerSessions_players h hc
    · cases h
      rfl
  · cases h
    rfl

theorem launchEach_players {m : ManagerConfig} {except : Int} {fuel : Nat} {mode : LaunchMode}
    {l l' : List GameSession} {r : Except Fault Unit}
    (h : launchEach (mode.start E.toAwsClient m fuel) E except l w = some (r, l', w'))
    {c : ClientId} (hc : ∀ s ∈ l, c ∉ s.mReadySessionList) : w'.players c = w.players c := by
  induction l generalizing w r l' with
  | nil =>
    cases h
    rfl
  | cons s l ih =>
    obtain ⟨⟨r₁, s₁, w₁⟩, hlaunch, h⟩ := Option.bind_eq_some_iff.mp h
    have hfirst := launch_players hlaunch (hc s List.mem_cons_self)
    dsimp only at h
    split at h
    · cases h
      exact hfirst
    · obtain ⟨⟨r₂, l₂, w₂⟩, hrest, h⟩ := Option.bind_eq_some_iff.mp h
      cases h
      exact (ih hrest fun s hs => hc s (List.mem_cons_of_mem _ hs)).trans hfirst

end

/-- `w'` comes of `w` by connecting the clients of the pairs, and no others. -/
structure Connected (s : GameSession) (w : Launcher ε) (pairs : List (String × ClientId))
    (w' : Launcher ε) : Prop where
  connected : ∀ pair ∈ pairs, (w'.players pair.2).mConnectAddr = some s.connectAddr ∧
    (w'.players pair.2).mPlayerSessionId = pair.1
  others : ∀ c ∉ pairs.map Prod.snd, w'.players c = w.players c

/-- Every player session of `s` has a prepared client of its own. -/
structure Pairing (s : GameSession) (w : Launcher ε) (pairs : List (String × ClientId))
    (w' : Launcher ε) : Prop extends Connected s w pairs w' where
  sessions : pairs.map Prod.fst = s.mPlayerSessionList
  clients : pairs.map Prod.snd ⊆ s.mReadySessionList
  distinct : (pairs.map Prod.snd).Nodup
  idle : ∀ pair ∈ pairs, (w.players pair.2).mConnectAddr = none

/-- `ConnectPlayerSessions` never reads past the end, and pairs off what it connects. -/
def Paired (E : Host ε) (s : GameSession) (w : Launcher ε) : Prop :=
  ∃ t w' pairs, s.connectPlayerSessions E w = some (.ok true, t, w') ∧ Pairing s w pairs w'

theorem Connected.round {E : Host ε} {s : GameSession} {w : Launcher ε}
    {pairs : List (String × ClientId)} {x : Int × Launcher ε} (h : Connected s w pairs x.2)
    {playerSessionId : String} {c : ClientId} (hc : c ∉ pairs.map Prod.snd)
    (hidle : (w.players c).mConnectAddr = none) :
    (s.connectRound E playerSessionId c x).1 = none ∧
      Connected s w (pairs ++ [(playerSessionId, c)]) (s.connectRound E playerSessionId c x).2.2 := by
  have hx : (x.2.players c).mConnectAddr = none := by
    rw [h.others c hc]
    exact hidle
  obtain ⟨hgo, hnew⟩ := connectRound_idle (E := E) (s := s) playerSessionId hx
  refine ⟨hgo, ?_, ?_⟩
  · intro pair hpair
    rcases List.mem_append.mp hpair with hold | hlast
    · have hne : pair.2 ≠ c := fun heq => hc (heq ▸ List.mem_map_of_mem hold)
      rw [connectRound_players hne]
      exact h.connected pair hold
    · rw [List.mem_singleton.mp hlast, hnew]
      exact ⟨rfl, rfl⟩
  · intro c' hc'
    rw [List.map_append, List.mem_append, not_or] at hc'
    rw [connectRound_players (fun heq => hc'.2 (List.mem_singleton.mpr heq))]
    exact h.others c' hc'.1

theorem walk_connected {E : Host ε} {s : GameSession} {w : Launcher ε} (f : Except Fault Bool)
    (l : List String) (idx : Int) (hnodup : s.mReadySessionList.Nodup)
    (hidle : ∀ c ∈ s.mReadySessionList, (w.players c).mConnectAddr = none) :
    (Lockstep.walk (s.connectRound E) f l s.mReadySessionList (idx, w)).1 =
        (if l.length ≤ s.mReadySessionList.length then none else some f) ∧
      Connected s w (l.zip s.mReadySessionList)
        (Lockstep.walk (s.connectRound E) f l s.mReadySessionList (idx, w)).2.2 := by
  apply Lockstep.walk_spec (P := fun pairs (x : Int × Launcher ε) => Connected s w pairs x.2)
  · intro pairs playerSessionId c x hpre hpairs
    have hinit := (hpre.map Prod.snd).trans (Lockstep.map_snd_zip_prefix _ _)
    rw [List.map_append] at hinit
    have hc : c ∉ pairs.map Prod.snd := by
      have hn := hinit.sublist.nodup hnodup
      rw [List.nodup_append] at hn
      exact fun hmem => hn.2.2 c hmem c (List.mem_singleton_self c) rfl
    have hready : c ∈ s.mReadySessionList :=
      hinit.subset (List.mem_append_right _ (List.mem_singleton_self c))
    exact hpairs.round hc (hidle c hready)
  · exact ⟨fun pair hpair => absurd hpair List.not_mem_nil, fun _ _ => rfl⟩

theorem connectPlayerSessions_spec {E : Host ε} {s : GameSession} {w : Launcher ε}
    (hfree : s.mLock = false) (hnodup : s.mReadySessionList.Nodup)
    (hidle : ∀ c ∈ s.mReadySessionList, (w.players c).mConnectAddr = none) :
    ∃ w', s.connectPlayerSessions E w =
        some (if s.mPlayerSessionList.length ≤ s.mReadySessionList.length then .ok true
          else .error .danglingIterator, s.locked.unlocked, w') ∧
      Connected s w (s.mPlayerSessionList.zip s.mReadySessionList) w' := by
  obtain ⟨hr, hconnected⟩ := walk_connected (E := E) (s := s.locked) (.error .danglingIterator)
    s.mPlayerSessionList s.mStartPlayerId hnodup hidle
  refine ⟨_, (GameSession.guarded_eq_some hfree).mpr ⟨s.locked, ?_, rfl⟩,
    hconnected.connected, hconnected.others⟩
  have hresult : (if s.mPlayerSessionList.length ≤ s.mReadySessionList.length then none
      else some (.error .danglingIterator)).getD (.ok true) =
        if s.mPlayerSessionList.length ≤ s.mReadySessionList.length then (.ok true : Except Fault Bool)
        else .error .danglingIterator := by
    split <;> rfl
  rw [← hresult]
  exact congrArg (fun r => some (Option.getD r (.ok true), s.locked, _)) hr

theorem paired_iff_length {E : Host ε} {s : GameSession} {w : Launcher ε}
    (hfree : s.mLock = false) (hnodup : s.mReadySessionList.Nodup)
    (hidle : ∀ c ∈ s.mReadySessionList, (w.players c).mConnectAddr = none) :
    Paired E s w ↔ s.mPlayerSessionList.length ≤ s.mReadySessionList.length := by
  obtain ⟨w', hconnect, hconnected⟩ := connectPlayerSessions_spec (E := E) hfree hnodup hidle
  have hinit := Lockstep.map_snd_zip_prefix s.mPlayerSessionList s.mReadySessionList
  constructor
  · rintro ⟨t, u, pairs, hpaired, -⟩
    by_contra hlong
    rw [hconnect, if_neg hlong] at hpaired
    cases hpaired
  · intro hle
    rw [if_pos hle] at hconnect
    refine ⟨_, w', _, hconnect, hconnected, List.map_fst_zip hle, hinit.subset,
      hinit.sublist.nodup hnodup, ?_⟩
    intro pair hpair
    exact hidle pair.2 (hinit.subset (List.mem_map_of_mem hpair))

/-- A run of the launcher: its host, its configuration and what it is told of the sockets. -/
structure Scenario (ε : Type) where
  host : Host ε
  config : ManagerConfig
  dummySessionCountPerGameSession : Int
  maxGameSessionCount : Nat
  results : Nat → Nat → SocketResults
  mode : LaunchMode
  fuel : Nat
  env : ε

namespace Scenario

def except (S : Scenario ε) : Int := testPlayerSessionExcept S.dummySessionCountPerGameSession

def prepared (S : Scenario ε) : List GameSession × Launcher ε :=
  prepareGameSessions S.except S.results S.maxGameSessionCount (Launcher.new S.env)

def start (S : Scenario ε) : GameSession → ε → Option (Except Fault Bool × GameSession × ε) :=
  S.mode.start S.host.toAwsClient S.config S.fuel

def launch (S : Scenario ε) :
    List GameSession → Launcher ε → Option (Except Fault Unit × List GameSession × Launcher ε) :=
  match S.mode with
  | .launchGameSessions => launchGameSessions S.host S.config S.except S.fuel
  | .launchGameSessionPlacement => launchGameSessionPlacement S.host S.config S.except S.fuel

theorem launch_eq (S : Scenario ε) : S.launch = launchEach S.start S.host S.except := by
  rw [launch, start]
  cases S.mode <;> rfl

end Scenario

/-- The launch loop comes to the g-th game session. -/
structure Arrives (S : Scenario ε) (g : Nat) (s : GameSession) (w : Launcher ε) : Prop where
  session : S.prepared.1[g]? = some s
  launched : ∃ l, S.launch (S.prepared.1.take g) S.prepared.2 = some (.ok (), l, w)

/-- The game session is started, and GameLift returns a player session for each player id. -/
structure Started (S : Scenario ε) (s : GameSession) (w : Launcher ε) (t : GameSession) (e : ε) :
    Prop where
  created : ∃ u e₁, S.start s w.env = some (.ok true, u, e₁) ∧
    u.createPlayerSessions S.host.toAwsClient S.except e₁ = some (true, t, e) ∧
    t.mPlayerSessionList.length = (u.playerIds S.except).length

theorem Scenario.prepared_spec (S : Scenario ε) :
    Prepared S.except S.results S.prepared.1 S.prepared.2 :=
  prepareGameSessions_spec S.except S.results S.maxGameSessionCount S.env

variable {S : Scenario ε} {g : Nat} {s t : GameSession} {w : Launcher ε} {e : ε}

/-- No client of the game session has been asked to connect yet. -/
theorem Arrives.idle (h : Arrives S g s w) :
    ∀ c ∈ s.mReadySessionList, (w.players c).mConnectAddr = none := by
  intro c hc
  obtain ⟨l, hl⟩ := h.launched
  rw [S.launch_eq] at hl
  obtain ⟨hg, hs⟩ := List.getElem?_eq_some_iff.mp h.session
  have hsame : w.players c = S.prepared.2.players c := by
    apply launchEach_players hl
    intro u hu hcu
    obtain ⟨i, hi, rfl⟩ := List.mem_take_iff_getElem.mp hu
    have happart := List.pairwise_iff_getElem.mp S.prepared_spec.apart i g (by omega) hg
      (by omega)
    rw [hs] at happart
    exact happart hcu hc
  rw [hsame]
  exact S.prepared_spec.idle c

theorem Arrives.playerCount (h : Arrives S g s w) :
    s.playerCount S.except = S.dummySessionCountPerGameSession.toNat := by
  have hcount := S.prepared_spec.count s (List.mem_of_getElem? h.session)
  rw [GameSession.playerCount, hcount, Scenario.except, testPlayerSessionExcept]
  congr 1
  omega

theorem Started.keeps (h : Started S s w t e) : Keeps s t ∧ t.mLock = false := by
  obtain ⟨u, e₁, hstart, hcreate, -⟩ := h.created
  have hs := start_keeps hstart
  have ht := createPlayerSessions_keeps hcreate
  exact ⟨⟨ht.1.ready.trans hs.1.ready, ht.1.count.trans hs.1.count⟩, ht.2⟩

theorem Started.length (h : Started S s w t e) :
    t.mPlayerSessionList.length = s.playerCount S.except := by
  obtain ⟨u, e₁, hstart, -, hlen⟩ := h.created
  rw [hlen, GameSession.playerIds, List.length_map, List.length_range, GameSession.playerCount,
    (start_keeps hstart).1.count]
  rfl

/-- The launch loop then calls `ConnectPlayerSessions`, in just this state. -/
theorem Started.launch_eq (h : Started S s w t e) :
    launch S.start S.host S.except s w = t.connectPlayerSessions S.host { w with env := e } := by
  obtain ⟨u, e₁, hstart, hcreate, -⟩ := h.created
  rw [launch, hstart]
  show (u.createPlayerSessions S.host.toAwsClient S.except e₁).bind _ = _
  rw [hcreate]
  rfl

/-- However the launcher came to a game session that gets all its player sessions: they are
paired off with its clients exactly if none of its `PrepareSession` calls failed. -/
theorem paired_iff (ha : Arrives S g s w) (hs : Started S s w t e) :
    Paired S.host t { w with env := e } ↔
      ∀ i < S.dummySessionCountPerGameSession.toNat, prepareSession (S.results g i) = true := by
  have hprepared := S.prepared_spec
  have hready := hs.keeps.1.ready
  rw [paired_iff_length hs.keeps.2, hs.length, hready, hprepared.ready g s ha.session,
    le_readyCount_iff, ha.playerCount]
  · rw [hready]
    exact hprepared.nodup s (List.mem_of_getElem? ha.session)
  · rw [hready]
    exact ha.idle

/-- One game session with eight dummy players, through a queue that has room for it. -/
def placing (results : Nat → Nat → SocketResults) : Scenario Unit where
  host := { steady .fulfilled .active with
    connectEx := fun _ _ e => e
    isConnected := fun _ _ => true }
  config := queued
  dummySessionCountPerGameSession := 8
  maxGameSessionCount := 1
  results := results
  mode := .launchGameSessionPlacement
  fuel := 1
  env := ()

theorem arrives_placing (results : Nat → Nat → SocketResults) :
    ∃ s, Arrives (placing results) 0 s (placing results).prepared.2 ∧ s.mLock = false := by
  have hs := prepareFrom_session (results 0) 8 0
    (GameSession.new 0 8 "MyTestGameSession1") (Launcher.new ())
  exact ⟨_, ⟨rfl, [], rfl⟩, congrArg GameSession.mLock hs⟩

theorem started_placing (results : Nat → Nat → SocketResults) {s : GameSession}
    {w : Launcher Unit} (h : s.mLock = false) : ∃ t, Started (placing results) s w t () := by
  cases s
  cases h
  exact ⟨_, _, (), rfl, rfl, List.length_map _⟩

theorem all_prepared_paired : ∃ s w t, Arrives (placing fun _ _ => ⟨true, true⟩) 0 s w ∧
    Started (placing fun _ _ => ⟨true, true⟩) s w t () ∧
    Paired (placing fun _ _ => ⟨true, true⟩).host t { w with env := () } := by
  obtain ⟨s, ha, hfree⟩ := arrives_placing fun _ _ => ⟨true, true⟩
  obtain ⟨t, hs⟩ := started_placing (fun _ _ => ⟨true, true⟩) hfree
  exact ⟨s, _, t, ha, hs, (paired_iff ha hs).mpr fun _ _ => rfl⟩

/-- One client of eight cannot be bound: the launcher connects the five before it, and reads
the end of the list for the sixth player session. -/
theorem sixth_client_missing : ∃ s w t u, Arrives (placing fun _ i => ⟨i != 5, true⟩) 0 s w ∧
    Started (placing fun _ i => ⟨i != 5, true⟩) s w t () ∧
    t.connectPlayerSessions (placing fun _ i => ⟨i != 5, true⟩).host { w with env := () } =
      some (.error .danglingIterator, u) ∧
    ¬Paired (placing fun _ i => ⟨i != 5, true⟩).host t { w with env := () } := by
  obtain ⟨s, ha, hfree⟩ := arrives_placing fun _ i => ⟨i != 5, true⟩
  obtain ⟨t, hs⟩ := started_placing (fun _ i => ⟨i != 5, true⟩)
    (w := (placing fun _ i => ⟨i != 5, true⟩).prepared.2) hfree
  have hprepared := (placing fun _ i => ⟨i != 5, true⟩).prepared_spec
  have hready : t.mReadySessionList.length = 5 := by
    rw [hs.keeps.1.ready, hprepared.ready 0 s ha.session, ha.playerCount]
    rfl
  have hsessions : t.mPlayerSessionList.length = 8 := by
    rw [hs.length, ha.playerCount]
    rfl
  obtain ⟨w', hconnect, -⟩ := connectPlayerSessions_spec hs.keeps.2
    (hs.keeps.1.ready ▸ hprepared.nodup s (List.mem_of_getElem? ha.session))
    (hs.keeps.1.ready ▸ ha.idle)
  rw [hready, hsessions] at hconnect
  refine ⟨s, _, t, _, ha, hs, hconnect, ?_⟩
  rintro ⟨t', u, pairs, hpaired, -⟩
  cases hconnect.symm.trans hpaired

end DummyClients

end GameLift
