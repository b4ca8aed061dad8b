import GameLift.WindowsLocks

/-! The game session object of the Windows server. GameLift's callbacks create and release
it while the packets of clients use it. -/

namespace GameLift

namespace GameSessionLife

inductive Callback where
  | onStartGameSession
  | onProcessTerminate
deriving DecidableEq, Repr

/-- What a thread has to do: a call of the server, or a callback before and after it has
taken `mLock`. -/
inductive Code where
  | call (i : Instr)
  | callback (c : Callback)
  | callbackBody (c : Callback)
deriving DecidableEq, Repr

variable {T ε : Type}

def Callback.run (S : Sdk ε) : Callback → WindowsManager → ε → WindowsManager × ε
  | onStartGameSession => WindowsManager.onStartGameSession S
  | onProcessTerminate => WindowsManager.onProcessTerminate S

/-- A session accepted by `StartAccept`. -/
def connect (x : Shared T ε) (s : SessionId) : Shared T ε :=
  { x with
    mConnected := Function.update x.mConnected s true
    mPlayerSessionId := Function.update x.mPlayerSessionId s []
    mSendPendingCount := Function.update x.mSendPendingCount s 0 }

section Steps
variable [DecidableEq T]

def Code.run (S : Sdk ε) (ok : Bool) (t : T) (x : Shared T ε) :
    Code → Option (Shared T ε × List Code)
  | .call i => (x.run S ok t i).map fun r => (r.1, r.2.map .call)
  | .callback c =>
    if x.owner .manager = none then
      some ({ x with owner := Function.update x.owner .manager (some t) },
        [.callbackBody c, .call (.leave .manager)])
    else none
  | .callbackBody c =>
    let (m, e) := c.run S x.manager x.env
    some ({ x with manager := m, env := e }, [])

inductive Begin (x : Shared T ε) : Shared T ε → List Code → Prop where
  | call {i : Instr} : i.IsCall → Begin x x [.call i]
  | callback {c} : Begin x x [.callback c]
  | connect {s} : x.mConnected s = false → Begin x (connect x s) []

/-- The server from the end of `InitializeGameLift` until `TerminateProcess`. -/
def machine (S : Sdk ε) : Threads.Machine T (Shared T ε) Code where
  start _ x x' push := x.manager.exitCode = none ∧ Begin x x' push
  exec t c x x' push := x.manager.exitCode = none ∧ ∃ ok, c.run S ok t x = some (x', push)

end Steps

abbrev State (T ε : Type) := Threads.State T (Shared T ε) Code

/-- What GameLift promises: it accepts players only for a game session that has been
activated, and removes only players it has accepted. -/
structure Hosting (S : Sdk ε) (live : ε → Prop) (active : ε → PlayerId → Prop) : Prop where
  accept_live : ∀ id e, (S.acceptPlayerSession id e).1 = true → live e
  live_accept : ∀ id e, live (S.acceptPlayerSession id e).2 → live e
  live_remove : ∀ id e, live (S.removePlayerSession id e).2 → live e
  remove_active : ∀ id e, (S.removePlayerSession id e).1 = true → active e id
  active_accept : ∀ id e id', active (S.acceptPlayerSession id e).2 id' →
    (S.acceptPlayerSession id e).1 = true ∨ active e id'
  active_remove : ∀ id e id', active (S.removePlayerSession id e).2 id' → active e id'

/-- `InitializeGameLift` has succeeded; `OnStartGameSession` may have run by then. -/
structure Initial (live : ε → Prop) (active : ε → PlayerId → Prop) (x : Shared T ε) : Prop where
  unlocked : x.Unlocked
  manager : x.manager = .initialized ∧ ¬live x.env ∨
    x.manager = { WindowsManager.initialized with mGameSession := some ∅ }
  unaccepted : ∀ id, ¬active x.env id
  unconnected : ∀ s, x.mConnected s = false

/-- The instruction is about to follow `mGameSession`. -/
def Dereferences (S : Sdk ε) (x : Shared T ε) : Instr → Prop
  | .acceptBody _ id => (S.acceptPlayerSession id x.env).1 = true
  | .removeBody _ id => (S.removePlayerSession id x.env).1 = true
  | .broadcastBody => True
  | _ => False

def NonNull (S : Sdk ε) (s : State T ε) : Prop :=
  s.shared.manager.exitCode = none → ∀ t i rest, s.stack t = .call i :: rest →
    Dereferences S s.shared i → s.shared.manager.mGameSession ≠ none

/-- When `t` enters `BroadcastMessage`, GameLift has started a game session. -/
def Hosted (s : State T ε) (t : T) : Prop :=
  ∀ rest, s.stack t = .call .broadcastMessage :: rest → s.shared.manager.mGameSession ≠ none

section Runs
variable [DecidableEq T] {S : Sdk ε} {live : ε → Prop} {active : ε → PlayerId → Prop}

inductive Managed (S : Sdk ε) (x : Shared T ε) (i : Instr) (x' : Shared T ε)
    (push : List Instr) : Prop where
  | same : x'.manager = x.manager → x'.env = x.env →
      (.broadcastBody ∈ push → i = .broadcastMessage) → Managed S x i x' push
  | accept {sid id b} : i = .acceptBody sid id → push = [] →
      x.manager.acceptPlayerSession S sid id x.env = .ok (b, x'.manager, x'.env) →
      Managed S x i x' push
  | remove {sid id} : i = .removeBody sid id → push = [] →
      x.manager.removePlayerSession S sid id x.env = .ok (x'.manager, x'.env) →
      Managed S x i x' push

theorem run_managed {ok : Bool} {t : T} {x x' : Shared T ε} {i : Instr} {push : List Instr}
    (h : x.run S ok t i = some (x', push)) : Managed S x i x' push := by
  cases i with
  | acceptBody sid id =>
    rw [Shared.run] at h
    cases hr : x.manager.acceptPlayerSession S sid id x.env with
    | error f => simp [hr] at h
    | ok r =>
      simp only [hr, Option.some.injEq, Prod.mk.injEq] at h
      obtain ⟨rfl, rfl⟩ := h
      exact .accept rfl rfl hr
  | removeBody sid id =>
    rw [Shared.run] at h
    cases hr : x.manager.removePlayerSession S sid id x.env with
    | error f => simp [hr] at h
    | ok r =>
      simp only [hr, Option.some.injEq, Prod.mk.injEq] at h
      obtain ⟨rfl, rfl⟩ := h
      exact .remove rfl rfl hr
  | broadcastBody =>
    rw [Shared.run] at h
    cases hg : x.manager.mGameSession with
    | none => simp [hg] at h
    | some players =>
      simp only [hg, Option.some.injEq, Prod.mk.injEq] at h
      obtain ⟨rfl, rfl⟩ := h
      exact .same rfl rfl (by simp)
  | acceptPlayerSession _ _ | removePlayerSession _ _ | broadcastMessage | lockedSend _
  | sendCompletion _ =>
    obtain ⟨-, rfl, rfl⟩ := Shared.guarded_eq h
    exact .same rfl rfl (by simp)
  | _ =>
    simp only [Shared.run] at h
    try split_ifs at h
    all_goals
      simp only [Option.some.injEq, Prod.mk.injEq] at h
      obtain ⟨rfl, rfl⟩ := h
      refine .same rfl rfl ?_
      try split_ifs
    all_goals simp

omit [DecidableEq T] in
theorem accept_keeps {sid : SessionId} {id : PlayerId} {b : Bool} {m m' : WindowsManager}
    {e e' : ε} (h : m.acceptPlayerSession S sid id e = .ok (b, m', e')) :
    e' = (S.acceptPlayerSession id e).2 ∧ m'.exitCode = m.exitCode ∧
      (m.mGameSession ≠ none → m'.mGameSession ≠ none) := by
  rw [WindowsManager.acceptPlayerSession] at h
  dsimp only at h
  split_ifs at h
  · cases hg : m.mGameSession with
    | none => simp [hg] at h
    | some players =>
      simp only [hg, Except.ok.injEq, Prod.mk.injEq] at h
      obtain ⟨-, rfl, rfl⟩ := h
      exact ⟨rfl, rfl, fun _ hn => by cases hn⟩
  · simp only [Except.ok.injEq, Prod.mk.injEq] at h
    obtain ⟨-, rfl, rfl⟩ := h
    exact ⟨rfl, rfl, fun hne => hne⟩

omit [DecidableEq T] in
theorem check_keeps {m m' : WindowsManager} {e e' : ε}
    (h : m.checkTerminateGameSession S e = (m', e')) (hexit : m'.exitCode = none) :
    m' = m ∧ e' = e := by
  rw [WindowsManager.checkTerminateGameSession] at h
  split_ifs at h
  · cases h
    cases hexit
  · cases h
    exact ⟨rfl, rfl⟩

omit [DecidableEq T] in
theorem remove_keeps {sid : SessionId} {id : PlayerId} {m m' : WindowsManager} {e e' : ε}
    (h : m.removePlayerSession S sid id e = .ok (m', e')) (hexit : m'.exitCode = none) :
    e' = (S.removePlayerSession id e).2 ∧ (m.mGameSession ≠ none → m'.mGameSession ≠ none) := by
  rw [WindowsManager.removePlayerSession] at h
  dsimp only at h
  split_ifs at h
  · cases hg : m.mGameSession with
    | none => simp [hg] at h
    | some players =>
      simp only [hg, Except.ok.injEq] at h
      obtain ⟨rfl, rfl⟩ := check_keeps h hexit
      exact ⟨rfl, fun _ hn => by cases hn⟩
  · obtain ⟨rfl, rfl⟩ := check_keeps (Except.ok.inj h) hexit
    exact ⟨rfl, fun hne => hne⟩

def Used (live : ε → Prop) (active : ε → PlayerId → Prop) (s : State T ε) : Prop :=
  live s.shared.env ∨ (∃ id, active s.shared.env id) ∨ ∃ t, .call .broadcastBody ∈ s.stack t

def Kept (live : ε → Prop) (active : ε → PlayerId → Prop) (s : State T ε) : Prop :=
  s.shared.manager.exitCode = none → Used live active s → s.shared.manager.mGameSession ≠ none

theorem Used.of_move {s : State T ε} {t : T} {x : Shared T ε} {stack : List Code}
    (h : Used live active (s.move t x stack)) (hlive : live x.env → live s.shared.env)
    (hactive : ∀ id, active x.env id → active s.shared.env id)
    (hstack : .call .broadcastBody ∈ stack → .call .broadcastBody ∈ s.stack t) :
    Used live active s := by
  rcases h with hl | ⟨id, ha⟩ | ⟨u, hu⟩
  · exact Or.inl (hlive hl)
  · exact Or.inr (Or.inl ⟨id, hactive id ha⟩)
  · refine Or.inr (Or.inr ?_)
    by_cases hut : u = t
    · subst hut
      rw [Threads.State.move_stack_self] at hu
      exact ⟨u, hstack hu⟩
    · rw [Threads.State.move_stack_of_ne _ hut] at hu
      exact ⟨u, hu⟩

theorem Kept.start {s : State T ε} {t : T} (h : Kept live active s) {x : Shared T ε}
    {push : List Code} (hb : Begin s.shared x push) :
    Kept live active (s.move t x push) := by
  intro hexit hused
  cases hb with
  | @call i hi =>
    refine h hexit (hused.of_move id (fun _ => id) fun hm => ?_)
    rw [List.mem_singleton, Code.call.injEq] at hm
    subst hm
    exact hi.elim
  | callback =>
    refine h hexit (hused.of_move id (fun _ => id) fun hm => ?_)
    rw [List.mem_singleton] at hm
    cases hm
  | connect _ => exact h hexit (hused.of_move id (fun _ => id) nofun)

theorem Kept.call {s : State T ε} {t : T} {i : Instr} {rest : List Code} (h : Kept live active s)
    (hL : Hosting S live active) (hrun : s.shared.manager.exitCode = none) (hosted : Hosted s t)
    (hs : s.stack t = .call i :: rest) {x : Shared T ε} {push : List Instr}
    (hm : Managed S s.shared i x push) :
    Kept live active (s.move t x (push.map .call ++ rest)) := by
  have hrest : ∀ c ∈ rest, c ∈ s.stack t := fun c hc => hs ▸ List.mem_cons_of_mem _ hc
  intro hexit hused
  cases hm with
  | same hmanager henv hbody =>
    by_cases hi : i = .broadcastMessage
    · subst hi
      rw [Threads.State.move_shared, hmanager]
      exact hosted rest hs
    · rw [Threads.State.move_shared, hmanager]
      refine h hrun (hused.of_move (fun hl => henv ▸ hl) (fun id ha => henv ▸ ha) fun hin => ?_)
      refine (List.mem_append.mp hin).elim (fun hp => absurd ?_ hi) (hrest _)
      obtain ⟨j, hj, hcode⟩ := List.mem_map.mp hp
      rw [Code.call.injEq] at hcode
      exact hbody (hcode ▸ hj)
  | @accept sid id b hi hpush hr =>
    subst hi hpush
    obtain ⟨henv, -, hkeeps⟩ := accept_keeps hr
    refine hkeeps (h hrun ?_)
    by_cases hok : (S.acceptPlayerSession id s.shared.env).1 = true
    · exact Or.inl (hL.accept_live id _ hok)
    · refine hused.of_move (fun hl => hL.live_accept id _ (henv ▸ hl)) (fun id' ha => ?_) (hrest _)
      exact (hL.active_accept id _ id' (henv ▸ ha)).resolve_left hok
  | @remove sid id hi hpush hr =>
    subst hi hpush
    obtain ⟨henv, hkeeps⟩ := remove_keeps hr hexit
    refine hkeeps (h hrun ?_)
    exact hused.of_move (fun hl => hL.live_remove id _ (henv ▸ hl))
      (fun id' ha => hL.active_remove id _ id' (henv ▸ ha)) (hrest _)

theorem Kept.step {s s' : State T ε} {t : T} (h : Kept live active s) (hL : Hosting S live active)
    (hosted : Hosted s t) (hstep : Threads.Step (machine S) s t s') : Kept live active s' := by
  cases hstep with
  | start _ hbegin => exact h.start hbegin.2
  | @exec c rest x push hs hrun =>
    obtain ⟨hexit, ok, hrun⟩ := hrun
    have hrest : ∀ c ∈ rest, c ∈ s.stack t := fun c hc => hs ▸ List.mem_cons_of_mem _ hc
    cases c with
    | call i =>
      obtain ⟨⟨y, l⟩, hr, he⟩ := Option.map_eq_some_iff.mp hrun
      rw [Prod.mk.injEq] at he
      obtain ⟨rfl, rfl⟩ := he
      exact h.call hL hexit hosted hs (run_managed hr)
    | callback c =>
      rw [Code.run] at hrun
      split_ifs at hrun
      cases hrun
      intro _ hused
      refine h hexit (hused.of_move id (fun _ => id) fun hin => ?_)
      simpa using hrest _ (by simpa using hin)
    | callbackBody c =>
      cases hrun
      cases c with
      | onStartGameSession => exact fun _ _ => nofun
      | onProcessTerminate =>
        intro hexit' hused
        simp only [WindowsManager.onProcessTerminate, Threads.State.move_shared]
          at hexit' hused ⊢
        split_ifs at hexit' hused ⊢
        · cases hexit'
        · exact h hexit (hused.of_move (fun hl => hl) (fun _ ha => ha) (hrest _))

omit [DecidableEq T] in
theorem kept_initial {x : Shared T ε} (hx : Initial live active x) :
    Kept live active (⟨x, fun _ => []⟩ : State T ε) := by
  rintro - (hl | ⟨id, ha⟩ | ⟨t, ht⟩)
  · rcases hx.manager with ⟨-, hdead⟩ | hm
    · exact absurd hl hdead
    · rw [hm]
      exact nofun
  · exact absurd ha (hx.unaccepted id)
  · cases ht

omit [DecidableEq T] in
theorem Kept.nonNull {s : State T ε} (h : Kept live active s) (hL : Hosting S live active) :
    NonNull S s := by
  intro hexit t i rest hs hderef
  refine h hexit ?_
  cases i with
  | acceptBody sid id => exact Or.inl (hL.accept_live id _ hderef)
  | removeBody sid id => exact Or.inr (Or.inl ⟨id, hL.remove_active id _ hderef⟩)
  | broadcastBody => exact Or.inr (Or.inr ⟨t, hs ▸ List.mem_cons_self⟩)
  | _ => exact hderef.elim

/-- A thread that enters `BroadcastMessage` with no game session is about to follow the
null pointer. -/
theorem NonNull.hosted {s s' : State T ε} {t : T} (h : NonNull S s')
    (hstep : Threads.Step (machine S) s t s') : Hosted s t := by
  intro rest hs
  cases hstep with
  | start hidle _ =>
    rw [hs] at hidle
    cases hidle
  | exec htop hrun =>
    rw [hs, List.cons.injEq] at htop
    obtain ⟨rfl, rfl⟩ := htop
    obtain ⟨hexit, ok, hrun⟩ := hrun
    obtain ⟨⟨y, l⟩, hr, he⟩ := Option.map_eq_some_iff.mp hrun
    rw [Prod.mk.injEq] at he
    obtain ⟨rfl, rfl⟩ := he
    obtain ⟨-, rfl, rfl⟩ := Shared.guarded_eq hr
    exact h hexit t .broadcastBody _ (Threads.State.move_stack_self ..) trivial

/-- In every run in which `BroadcastMessage` is entered only while there is a game session,
`mGameSession` is not null wherever it is followed; and a next step that enters it without
one leads to a null pointer being followed. -/
theorem mGameSession_nonNull_iff (S : Sdk ε) (live : ε → Prop) (active : ε → PlayerId → Prop)
    (hL : Hosting S live active) :
    (∀ s : State T ε, Threads.Reachable (machine S) (Initial live active) Hosted s →
      NonNull S s) ∧
    ∀ (s s' : State T ε) (t : T),
      Threads.Reachable (machine S) (Initial live active) Hosted s →
        Threads.Step (machine S) s t s' → (NonNull S s' ↔ Hosted s t) := by
  have hkept : ∀ s : State T ε,
      Threads.Reachable (machine S) (Initial live active) Hosted s → Kept live active s :=
    fun s h => h.invariant (fun _ hx => kept_initial hx) fun _ _ _ hk hs hok => hk.step hL hok hs
  refine ⟨fun s h => (hkept s h).nonNull hL, fun s s' t h hs => ⟨fun hn => hn.hosted hs, ?_⟩⟩
  exact fun hok => ((hkept s h).step hL hok hs).nonNull hL

end Runs

/-- A service that hosts one game session for any players: whether it is activated, and
who is in. -/
def hosting : Sdk (Bool × List PlayerId) where
  acceptPlayerSession id e :=
    let ok := e.1 && !e.2.contains id
    (ok, (e.1, if ok then id :: e.2 else e.2))
  acceptErrorMessage _ _ := serviceCallFailed
  removePlayerSession id e := (e.2.contains id, (e.1, e.2.erase id))
  activateGameSession e := (true, e.2)
  terminateGameSession e := (false, e.2)
  processEnding e := e

theorem hosting_hosting : Hosting hosting (fun e => e.1 = true) (fun e id => id ∈ e.2) where
  accept_live _ _ hok := (Bool.and_eq_true_iff.mp hok).1
  live_accept _ _ hl := hl
  live_remove _ _ hl := hl
  remove_active _ _ hok := List.contains_iff_mem.mp hok
  active_accept id e id' hm := by
    by_cases hok : (hosting.acceptPlayerSession id e).1 = true
    · exact Or.inl hok
    · have hsame : (hosting.acceptPlayerSession id e).2.2 = e.2 := if_neg hok
      exact Or.inr (hsame ▸ hm)
  active_remove _ _ _ hm := List.mem_of_mem_erase hm

def ready : Shared Unit (Bool × List PlayerId) where
  owner _ := none
  manager := .initialized
  env := (false, [])
  mConnected _ := false
  mPlayerSessionId _ := []
  mSendPendingCount _ := 0
  returned _ := false

theorem ready_initial : Initial (fun e => e.1 = true) (fun e id => id ∈ e.2) ready where
  unlocked _ := rfl
  manager := Or.inl ⟨rfl, Bool.false_ne_true⟩
  unaccepted _ := List.not_mem_nil
  unconnected _ := rfl

theorem mGameSession_nonNull_started :
    ∃ s : State Unit (Bool × List PlayerId), NonNull hosting s ∧
      s.shared.manager.exitCode = none ∧
      (∃ rest, s.stack () = .call .broadcastBody :: rest) ∧
      s.shared.manager.mGameSession = some ∅ := by
  have hready : Threads.Reachable (machine hosting) (Initial _ _) Hosted ⟨ready, fun _ => []⟩ :=
    .init ready_initial
  have hstart := hready.begin nofun ⟨rfl, .callback (c := .onStartGameSession)⟩
  have hlocked := hstart.exec nofun ⟨rfl, true, rfl⟩
  have hmade := hlocked.exec nofun ⟨rfl, true, rfl⟩
  have hleft := hmade.exec nofun ⟨rfl, true, rfl⟩
  have hpacket := hleft.begin nofun ⟨rfl, .call (i := .broadcastMessage) trivial⟩
  have hbody := hpacket.exec (fun _ _ => nofun) ⟨rfl, true, rfl⟩
  have hiff := mGameSession_nonNull_iff (T := Unit) hosting _ _ hosting_hosting
  exact ⟨_, hiff.1 _ hbody, rfl, ⟨_, rfl⟩, rfl⟩

/-- A client connects and sends a chat or a move before GameLift starts a game session. -/
theorem mGameSession_null :
    ∃ s : State Unit (Bool × List PlayerId),
      Threads.Reachable (machine hosting) (Initial (fun e => e.1 = true) (fun e id => id ∈ e.2))
        (fun _ _ => True) s ∧ ¬NonNull hosting s := by
  have hready : Threads.Reachable (machine hosting)
      (Initial (fun e => e.1 = true) (fun e id => id ∈ e.2)) (fun _ _ => True)
      ⟨ready, fun _ => []⟩ := .init ready_initial
  have hconnected := hready.begin trivial ⟨rfl, .connect (s := 0) rfl⟩
  have hpacket := hconnected.begin trivial ⟨rfl, .call (i := .broadcastMessage) trivial⟩
  have hbody := hpacket.exec trivial ⟨rfl, true, rfl⟩
  exact ⟨_, hbody, fun hn => hn rfl () .broadcastBody _ rfl trivial rfl⟩

end GameSessionLife

end GameLift
