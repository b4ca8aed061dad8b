import GameLift.Playback
import GameLift.Threads
import GameLift.WindowsManager

/-! The locks of the Windows server: `mLock` of the manager, and the
`mSendBufferLock` of each session. Both are taken across calls in either direction. -/

namespace GameLift

inductive Lock where
  | manager
  | send (s : SessionId)
deriving DecidableEq, Repr

/-- The functions that take or pass on a lock, cut where a lock, a flag or the
outside is touched. A `FastSpinlockGuard` is left through `leave`. -/
inductive Instr where
  | playerLogin (s : SessionId) (id : PlayerId)
  | acceptPlayerSession (s : SessionId) (id : PlayerId)
  | acceptBody (s : SessionId) (id : PlayerId)
  | loginAnswer (s : SessionId) (id : PlayerId)
  | playerLogout (s : SessionId) (id : PlayerId)
  | removePlayerSession (s : SessionId) (id : PlayerId)
  | removeBody (s : SessionId) (id : PlayerId)
  | clearId (s : SessionId)
  | broadcastMessage
  | broadcastBody
  | sendAnswer (s : SessionId)
  | postSend (s : SessionId)
  | lockedSend (s : SessionId)
  | writeBuffer (s : SessionId)
  | flushSend (s : SessionId)
  | sendCompletion (s : SessionId)
  | completeSend (s : SessionId)
  | disconnect (s : SessionId)
  | onDisconnect (s : SessionId)
  | answer (b : Bool)
  | leave (l : Lock)
deriving DecidableEq, Repr

namespace Instr

def takes : Instr → Option Lock
  | acceptPlayerSession _ _ | removePlayerSession _ _ | broadcastMessage => some .manager
  | lockedSend s | sendCompletion s => some (.send s)
  | _ => none

def IsCall : Instr → Prop
  | playerLogin _ _ | playerLogout _ _ | broadcastMessage | postSend _ | sendCompletion _
  | disconnect _ => True
  | _ => False

end Instr

/-- `returned` is what the function a thread came back from last returned. -/
structure Shared (T ε : Type) where
  owner : Lock → Option T
  manager : WindowsManager
  env : ε
  mConnected : SessionId → Bool
  mPlayerSessionId : SessionId → PlayerId
  mSendPendingCount : SessionId → Nat
  returned : T → Bool

namespace Shared

variable {T ε : Type} [DecidableEq T] (S : Sdk ε)

/-- `FastSpinlockGuard`: `none` while the lock is taken, also by the thread itself. -/
def guarded (x : Shared T ε) (l : Lock) (t : T) (body : Instr) :
    Option (Shared T ε × List Instr) :=
  if x.owner l = none then
    some ({ x with owner := Function.update x.owner l (some t) }, [body, .leave l])
  else none

def answer (x : Shared T ε) (t : T) (b : Bool) : Shared T ε :=
  { x with returned := Function.update x.returned t b }

def setId (x : Shared T ε) (s : SessionId) (id : PlayerId) : Shared T ε :=
  { x with mPlayerSessionId := Function.update x.mPlayerSessionId s id }

/-- One instruction of thread `t`. `ok` is what the outside lets happen: that `Write`
has room, that `WSASend` starts, that bytes remain to send. `none` is a lock that is
taken, a null pointer or a failed assertion. -/
def run (ok : Bool) (t : T) (x : Shared T ε) : Instr → Option (Shared T ε × List Instr)
  | .playerLogin s id => some (x, [.acceptPlayerSession s id, .loginAnswer s id])
  | .acceptPlayerSession s id => x.guarded .manager t (.acceptBody s id)
  | .acceptBody s id =>
    match x.manager.acceptPlayerSession S s id x.env with
    | .error _ => none
    | .ok (b, m, e) => some ({ x with manager := m, env := e }.answer t b, [])
  | .loginAnswer s id =>
    if x.returned t then some (x.setId s id, [.postSend s]) else some (x, [.disconnect s])
  | .playerLogout s id => some (x, [.removePlayerSession s id, .clearId s, .disconnect s])
  | .removePlayerSession s id => x.guarded .manager t (.removeBody s id)
  | .removeBody s id =>
    match x.manager.removePlayerSession S s id x.env with
    | .error _ => none
    | .ok (m, e) => some ({ x with manager := m, env := e }, [])
  | .clearId s => some (x.setId s [], [])
  | .broadcastMessage => x.guarded .manager t .broadcastBody
  | .broadcastBody =>
    match x.manager.mGameSession with
    | none => none
    | some players =>
      some (x, (players.sort (· ≤ ·)).flatMap fun s => [.postSend s, .sendAnswer s])
  | .sendAnswer s => some (x, if x.returned t then [] else [.disconnect s])
  | .postSend s =>
    if x.mConnected s then some (x, [.lockedSend s]) else some (x.answer t false, [])
  | .lockedSend s => x.guarded (.send s) t (.writeBuffer s)
  | .writeBuffer s =>
    if ok then
      if 0 < x.mSendPendingCount s then some (x.answer t true, []) else some (x, [.flushSend s])
    else some (x.answer t false, [])
  | .flushSend s =>
    if ok then
      if x.mSendPendingCount s + 1 = 1 then
        some ({ x with mSendPendingCount := Function.update x.mSendPendingCount s 1 }.answer t true,
          [])
      else none
    else some (x, [.disconnect s, .answer false])
  | .sendCompletion s => x.guarded (.send s) t (.completeSend s)
  | .completeSend s =>
    if 0 < x.mSendPendingCount s ∧ x.mSendPendingCount s - 1 = 0 then
      some ({ x with mSendPendingCount := Function.update x.mSendPendingCount s 0 },
        if ok then [.flushSend s] else [])
    else none
  | .disconnect s =>
    if x.mConnected s then
      some ({ x with mConnected := Function.update x.mConnected s false }, [.onDisconnect s])
    else some (x, [])
  | .onDisconnect s =>
    some (x, if x.mPlayerSessionId s ≠ [] then
      [.removePlayerSession s (x.mPlayerSessionId s), .clearId s] else [])
  | .answer b => some (x.answer t b, [])
  | .leave l => some ({ x with owner := Function.update x.owner l none }, [])

end Shared

variable {T ε : Type} [DecidableEq T]

/-- Worker threads of the server, until `TerminateProcess`. -/
def workers (S : Sdk ε) : Threads.Machine T (Shared T ε) Instr where
  start _ x x' push := x.manager.exitCode = none ∧ x' = x ∧ ∃ i : Instr, i.IsCall ∧ push = [i]
  exec t i x x' push := x.manager.exitCode = none ∧ ∃ ok, x.run S ok t i = some (x', push)

abbrev Workers (T ε : Type) := Threads.State T (Shared T ε) Instr

def Shared.Unlocked (x : Shared T ε) : Prop := ∀ l, x.owner l = none

/-- `t` is about to take a lock that `u` holds. -/
def WaitsFor (s : Workers T ε) (t u : T) : Prop :=
  ∃ i rest l, s.stack t = i :: rest ∧ i.takes = some l ∧ s.shared.owner l = some u

def DeadlockFree (s : Workers T ε) : Prop := ∀ t, ¬Relation.TransGen (WaitsFor s) t t

/-- When `OnDisconnect` finds the session logged in, its thread does not hold `mLock`,
and no thread that holds `mLock` waits for the send lock it may hold. -/
def SafeDisconnect (s : Workers T ε) (t : T) : Prop :=
  ∀ sid rest, s.stack t = .onDisconnect sid :: rest → s.shared.mPlayerSessionId sid ≠ [] →
    s.shared.owner .manager ≠ some t ∧
      (s.shared.owner (.send sid) = some t →
        ∀ u rest', s.stack u = .lockedSend sid :: rest' → s.shared.owner .manager ≠ some u)

namespace Instr

/-- The instruction may run in a thread that holds `l` and leaves it later. -/
def Under : Instr → Lock → Prop
  | playerLogin _ _, _ | acceptPlayerSession _ _, _ | loginAnswer _ _, _ | playerLogout _ _, _
  | broadcastMessage, _ | sendCompletion _, _ => False
  | removePlayerSession s _, l => l = .send s
  | writeBuffer s, l | flushSend s, l | completeSend s, l | disconnect s, l | onDisconnect s, l =>
    l = .manager ∨ l = .send s
  | broadcastBody, l | sendAnswer _, l | postSend _, l | lockedSend _, l => l = .manager
  | acceptBody _ _, _ | removeBody _ _, _ | clearId _, _ | answer _, _ | leave _, _ => True

/-- What may stand deeper in the stack than `i`. Locks are only taken at the top. -/
def Below (i j : Instr) : Prop := (∀ l, j = leave l → i.Under l) ∧ j.takes = none

def Plain (j : Instr) : Prop := (∀ l, j ≠ leave l) ∧ j.takes = none

theorem Plain.below {i j : Instr} (h : j.Plain) : Below i j :=
  ⟨fun l he => absurd he (h.1 l), h.2⟩

theorem pairwise_plain {i : Instr} {l : List Instr} (h : ∀ j ∈ l, j.Plain) :
    (i :: l).Pairwise Below := by
  induction l generalizing i with
  | nil => exact List.pairwise_singleton _ _
  | cons j l ih =>
    refine List.pairwise_cons.mpr ⟨fun k hk => (h k hk).below, ?_⟩
    exact ih fun k hk => h k (List.mem_cons_of_mem j hk)

end Instr

namespace Shared

open Instr (Below Plain)

variable {S : Sdk ε} {ok : Bool} {t : T} {x x' : Shared T ε} {i : Instr} {push : List Instr}

omit [DecidableEq T] in
theorem guarded_eq {l : Lock} {body : Instr} (h : x.guarded l t body = some (x', push)) :
    x.owner l = none ∧ x' = { x with owner := Function.update x.owner l (some t) } ∧
      push = [body, .leave l] := by
  rw [guarded] at h
  split_ifs at h with hfree
  simp only [Option.some.injEq, Prod.mk.injEq] at h
  exact ⟨hfree, h.1.symm, h.2.symm⟩

/-- An instruction that neither takes nor leaves a lock, and does not remove a player. -/
structure Calm (x : Shared T ε) (i : Instr) (x' : Shared T ε) (push : List Instr) : Prop where
  plain : i.Plain
  owner : x'.owner = x.owner
  connected : ∀ s, x'.mConnected s = true → x.mConnected s = true
  gone : ∀ s, .onDisconnect s ∈ push → x'.mConnected s = false
  tail : ∀ a ∈ push.tail, a.Plain
  under : ∀ a ∈ push, ∀ l, i.Under l → a.Under l
  noLeave : ∀ a ∈ push, ∀ l, a ≠ .leave l
  sends : ∀ s, push.head? = some (.lockedSend s) → x.mConnected s = true
  removes : ∀ s id, push.head? = some (.removePlayerSession s id) → ∀ l, ¬i.Under l

omit [DecidableEq T] in
theorem calm_of_plain (hi : i.Plain) (ho : x'.owner = x.owner)
    (hc : x'.mConnected = x.mConnected)
    (h : ∀ a ∈ push, a.Plain ∧ (∀ s, a ≠ .onDisconnect s) ∧ ∀ l, i.Under l → a.Under l) :
    Calm x i x' push where
  plain := hi
  owner := ho
  connected s hs := hc ▸ hs
  gone s hs := absurd rfl ((h _ hs).2.1 s)
  tail a ha := (h a (List.mem_of_mem_tail ha)).1
  under a ha := (h a ha).2.2
  noLeave a ha := (h a ha).1.1
  sends s hs := by
    have hp := (h _ (List.mem_of_mem_head? hs)).1.2
    cases hp
  removes s id hs := by
    have hp := (h _ (List.mem_of_mem_head? hs)).1.2
    cases hp

inductive Ran (t : T) (x : Shared T ε) (i : Instr) : Shared T ε → List Instr → Prop where
  | takes {l body} : i.takes = some l → x.owner l = none → body.Plain →
      (∀ l', l' = l ∨ i.Under l' → body.Under l') → (∀ s, body ≠ .onDisconnect s) →
      Ran t x i { x with owner := Function.update x.owner l (some t) } [body, .leave l]
  | leaves {l} : i = .leave l → Ran t x i { x with owner := Function.update x.owner l none } []
  | removes {s} : i = .onDisconnect s → x.mPlayerSessionId s ≠ [] →
      Ran t x i x [.removePlayerSession s (x.mPlayerSessionId s), .clearId s]
  | calm {y l} : Calm x i y l → Ran t x i y l

omit [DecidableEq T] in
theorem Ran.connected (h : Ran t x i x' push) :
    (∀ s, x.mConnected s = false → x'.mConnected s = false) ∧
      ∀ s, .onDisconnect s ∈ push → x'.mConnected s = false := by
  cases h with
  | takes _ _ _ _ hbody =>
    refine ⟨fun _ hs => hs, fun s hs => ?_⟩
    simp only [List.mem_cons, List.not_mem_nil, or_false, reduceCtorEq] at hs
    exact absurd hs.symm (hbody s)
  | leaves _ => exact ⟨fun _ hs => hs, fun _ => nofun⟩
  | removes _ _ => exact ⟨fun _ hs => hs, by simp⟩
  | calm hc =>
    refine ⟨fun s hs => ?_, hc.gone⟩
    by_contra hne
    have hold := hc.connected s (by simpa using hne)
    rw [hs] at hold
    cases hold

omit [DecidableEq T] in
theorem Ran.owner_other (h : Ran t x i x' push) {u : T} (hu : u ≠ t) {l : Lock}
    (ho : x'.owner l = some u) : x.owner l = some u := by
  cases h with
  | @takes k _ _ _ _ _ _ =>
    by_cases hl : l = k
    · subst hl
      simp only [Function.update_self, Option.some.injEq] at ho
      exact absurd ho.symm hu
    · simpa [hl] using ho
  | @leaves k _ =>
    by_cases hl : l = k
    · subst hl
      simp at ho
    · simpa [hl] using ho
  | removes _ _ => exact ho
  | calm hc => exact hc.owner ▸ ho

omit [DecidableEq T] in
/-- A step without locks, of which only the instructions that follow matter. -/
theorem ran_plain {y : Shared T ε} {next : List Instr} (h : some (y, next) = some (x', push))
    (hi : i.Plain) (ho : y.owner = x.owner) (hc : y.mConnected = x.mConnected)
    (hnext : ∀ a ∈ next, a.Plain ∧ (∀ s, a ≠ .onDisconnect s) ∧ ∀ l, i.Under l → a.Under l) :
    Ran t x i x' push := by
  cases h
  exact .calm (calm_of_plain hi ho hc hnext)

theorem run_ran (h : x.run S ok t i = some (x', push)) : Ran t x i x' push := by
  cases i with
  | acceptPlayerSession s id =>
    obtain ⟨hfree, rfl, rfl⟩ := guarded_eq h
    exact .takes rfl hfree ⟨fun _ => nofun, rfl⟩ (fun _ _ => trivial) fun _ => nofun
  | removePlayerSession s id =>
    obtain ⟨hfree, rfl, rfl⟩ := guarded_eq h
    exact .takes rfl hfree ⟨fun _ => nofun, rfl⟩ (fun _ _ => trivial) fun _ => nofun
  | broadcastMessage =>
    obtain ⟨hfree, rfl, rfl⟩ := guarded_eq h
    refine .takes rfl hfree ⟨fun _ => nofun, rfl⟩ (fun l hl => ?_) fun _ => nofun
    exact hl.resolve_right id
  | lockedSend s =>
    obtain ⟨hfree, rfl, rfl⟩ := guarded_eq h
    refine .takes rfl hfree ⟨fun _ => nofun, rfl⟩ (fun l hl => ?_) fun _ => nofun
    exact hl.symm
  | sendCompletion s =>
    obtain ⟨hfree, rfl, rfl⟩ := guarded_eq h
    refine .takes rfl hfree ⟨fun _ => nofun, rfl⟩ (fun l hl => ?_) fun _ => nofun
    exact Or.inr (hl.resolve_right id)
  | leave l =>
    simp only [run, Option.some.injEq, Prod.mk.injEq] at h
    obtain ⟨rfl, rfl⟩ := h
    exact .leaves rfl
  | onDisconnect s =>
    simp only [run, Option.some.injEq, Prod.mk.injEq] at h
    obtain ⟨rfl, rfl⟩ := h
    split_ifs with hid
    · exact .removes rfl hid
    · exact .calm (calm_of_plain ⟨fun _ => nofun, rfl⟩ rfl rfl (by simp))
  | disconnect s =>
    rw [run] at h
    split_ifs at h
    · simp only [Option.some.injEq, Prod.mk.injEq] at h
      obtain ⟨rfl, rfl⟩ := h
      refine .calm ⟨⟨fun _ => nofun, rfl⟩, rfl, fun s' hs => ?_, by simp, by simp, ?_, by simp,
        by simp, by simp⟩
      · by_cases hne : s' = s
        · subst hne
          simp at hs
        · simpa [hne] using hs
      · simp [Instr.Under]
    · exact ran_plain h ⟨fun _ => nofun, rfl⟩ rfl rfl (by simp)
  | playerLogin s id =>
    simp only [run, Option.some.injEq, Prod.mk.injEq] at h
    obtain ⟨rfl, rfl⟩ := h
    exact .calm ⟨⟨fun _ => nofun, rfl⟩, rfl, fun _ h => h, by simp, by simp [Plain, Instr.takes],
      by simp [Instr.Under], by simp, by simp, by simp⟩
  | playerLogout s id =>
    simp only [run, Option.some.injEq, Prod.mk.injEq] at h
    obtain ⟨rfl, rfl⟩ := h
    exact .calm ⟨⟨fun _ => nofun, rfl⟩, rfl, fun _ h => h, by simp, by simp [Plain, Instr.takes],
      by simp [Instr.Under], by simp, by simp, by simp [Instr.Under]⟩
  | postSend s =>
    rw [run] at h
    split_ifs at h with hc
    · simp only [Option.some.injEq, Prod.mk.injEq] at h
      obtain ⟨rfl, rfl⟩ := h
      exact .calm ⟨⟨fun _ => nofun, rfl⟩, rfl, fun _ h => h, by simp, by simp,
        by simp [Instr.Under], by simp, by simp [hc], by simp⟩
    · exact ran_plain h ⟨fun _ => nofun, rfl⟩ rfl rfl (by simp)
  | acceptBody s id =>
    rw [run] at h
    cases hr : x.manager.acceptPlayerSession S s id x.env with
    | error f => simp [hr] at h
    | ok r =>
      rw [hr] at h
      exact ran_plain h ⟨fun _ => nofun, rfl⟩ rfl rfl (by simp)
  | removeBody s id =>
    rw [run] at h
    cases hr : x.manager.removePlayerSession S s id x.env with
    | error f => simp [hr] at h
    | ok r =>
      rw [hr] at h
      exact ran_plain h ⟨fun _ => nofun, rfl⟩ rfl rfl (by simp)
  | loginAnswer s id =>
    rw [run] at h
    split_ifs at h <;>
      exact ran_plain h ⟨fun _ => nofun, rfl⟩ rfl rfl (by simp [Plain, Instr.takes, Instr.Under])
  | clearId s =>
    rw [run] at h
    exact ran_plain h ⟨fun _ => nofun, rfl⟩ rfl rfl (by simp)
  | broadcastBody =>
    rw [run] at h
    cases hg : x.manager.mGameSession with
    | none => simp [hg] at h
    | some players =>
      rw [hg] at h
      refine ran_plain h ⟨fun _ => nofun, rfl⟩ rfl rfl fun a ha => ?_
      obtain ⟨s, -, hs⟩ := List.mem_flatMap.mp ha
      simp only [List.mem_cons, List.not_mem_nil, or_false] at hs
      rcases hs with rfl | rfl
      · exact ⟨⟨fun _ => nofun, rfl⟩, fun _ => nofun, fun _ h => h⟩
      · exact ⟨⟨fun _ => nofun, rfl⟩, fun _ => nofun, fun _ h => h⟩
  | sendAnswer s =>
    rw [run] at h
    refine ran_plain h ⟨fun _ => nofun, rfl⟩ rfl rfl ?_
    split_ifs
    · simp
    · simp [Plain, Instr.takes, Instr.Under]
  | writeBuffer s =>
    rw [run] at h
    split_ifs at h <;>
      exact ran_plain h ⟨fun _ => nofun, rfl⟩ rfl rfl (by simp [Plain, Instr.takes, Instr.Under])
  | flushSend s =>
    rw [run] at h
    split_ifs at h <;>
      exact ran_plain h ⟨fun _ => nofun, rfl⟩ rfl rfl (by simp [Plain, Instr.takes, Instr.Under])
  | completeSend s =>
    rw [run] at h
    split_ifs at h <;>
      exact ran_plain h ⟨fun _ => nofun, rfl⟩ rfl rfl (by simp [Plain, Instr.takes, Instr.Under])
  | answer b =>
    rw [run] at h
    exact ran_plain h ⟨fun _ => nofun, rfl⟩ rfl rfl (by simp)

end Shared

open Instr (Below)

/-- Each thread leaves exactly the locks it owns, once, below instructions that may run
under them; and a session that is being removed under its send lock stays out of
the way of the holder of `mLock`. -/
structure Disciplined (s : Workers T ε) : Prop where
  owns : ∀ t l, (s.stack t).count (.leave l) = if s.shared.owner l = some t then 1 else 0
  ordered : ∀ t, (s.stack t).Pairwise Below
  gone : ∀ t sid, .onDisconnect sid ∈ s.stack t → s.shared.mConnected sid = false
  clear : ∀ t sid id rest, s.stack t = .removePlayerSession sid id :: rest →
    s.shared.owner (.send sid) = some t → s.shared.mConnected sid = false ∧
      ∀ u rest', s.stack u = .lockedSend sid :: rest' → s.shared.owner .manager ≠ some u

namespace Disciplined

variable {s : Workers T ε} {t : T} {i : Instr} {rest : List Instr}

theorem idle {x : Shared T ε} (hx : x.Unlocked) :
    Disciplined (⟨x, fun _ => []⟩ : Workers T ε) where
  owns t l := by simp [hx l]
  ordered _ := .nil
  gone _ _ := nofun
  clear _ _ _ _ := nofun

theorem leave_mem (h : Disciplined s) {l : Lock} :
    .leave l ∈ s.stack t ↔ s.shared.owner l = some t := by
  rw [← List.count_pos_iff, h.owns]
  split_ifs with ho <;> simp [ho]

theorem under (h : Disciplined s) (hs : s.stack t = i :: rest) (hi : ∀ l, i ≠ .leave l) {l : Lock}
    (ho : s.shared.owner l = some t) : i.Under l := by
  have hmem := h.leave_mem.mpr ho
  rw [hs, List.mem_cons] at hmem
  have hord := h.ordered t
  rw [hs, List.pairwise_cons] at hord
  rcases hmem with he | hmem
  · exact absurd he.symm (hi l)
  · exact (hord.1 _ hmem).1 l rfl

theorem takes_head (h : Disciplined s) (hs : s.stack t = i :: rest) {j : Instr} (hj : j ∈ rest) :
    j.takes = none := by
  have hord := h.ordered t
  rw [hs, List.pairwise_cons] at hord
  exact (hord.1 j hj).2

/-- Nobody waits for a lock of the kind it holds, but for `mLock` under a send lock. -/
theorem wait_cases (h : Disciplined s) (hs : s.stack t = i :: rest) {l l' : Lock}
    (hi : i.takes = some l) (ho : s.shared.owner l' = some t) :
    (l' = .manager ∧ ∃ sid, i = .lockedSend sid) ∨
      ∃ sid id, l' = .send sid ∧ i = .removePlayerSession sid id := by
  have hu := h.under hs (by rintro l rfl; cases hi) ho
  cases i with
  | removePlayerSession sid id => exact Or.inr ⟨sid, id, hu, rfl⟩
  | lockedSend sid => exact Or.inl ⟨hu, sid, rfl⟩
  | acceptPlayerSession sid id => exact hu.elim
  | broadcastMessage => exact hu.elim
  | sendCompletion sid => exact hu.elim
  | _ => cases hi

/-- The holder of `mLock` never waits for a send lock whose holder waits too. -/
theorem no_inversion (h : Disciplined s) {u v : T} {b : SessionId} {ru : List Instr}
    (hu : s.stack u = .lockedSend b :: ru) (ho : s.shared.owner .manager = some u)
    (hb : s.shared.owner (.send b) = some v) (hv : s.stack v = i :: rest) {l : Lock}
    (hi : i.takes = some l) : False := by
  rcases h.wait_cases hv hi hb with ⟨hl, -⟩ | ⟨sid, id, hl, rfl⟩
  · cases hl
  · cases hl
    exact (h.clear v b id rest hv hb).2 u ru hu ho

theorem deadlockFree (h : Disciplined s) : DeadlockFree s := by
  intro t hcycle
  obtain ⟨u, ⟨i, ri, l, hti, hil, hlu⟩, hu⟩ := Threads.exists_next_of_cycle hcycle
  obtain ⟨v, ⟨j, rj, m, huj, hjm, hmv⟩, hv⟩ := Threads.exists_next_of_cycle hu
  obtain ⟨w, ⟨k, rk, n, hvk, hkn, hnw⟩, hw⟩ := Threads.exists_next_of_cycle hv
  obtain ⟨x, ⟨p, rp, q, hwp, hpq, -⟩, -⟩ := Threads.exists_next_of_cycle hw
  rcases h.wait_cases huj hjm hlu with ⟨rfl, b, rfl⟩ | ⟨b, id, rfl, rfl⟩
  · -- `u` holds `mLock` and waits for a send lock, whose holder waits.
    cases hjm
    exact h.no_inversion huj hlu hmv hvk hkn
  · -- `u` waits for `mLock`, whose holder waits for a send lock, whose holder waits.
    cases hjm
    rcases h.wait_cases hvk hkn hmv with ⟨-, c, rfl⟩ | ⟨c, id', hc, -⟩
    · cases hkn
      exact h.no_inversion hvk hmv hnw hwp hpq
    · cases hc

theorem not_leave_of_takes {l : Lock} (hi : i.takes = some l) (l' : Lock) : i ≠ .leave l' := by
  rintro rfl
  cases hi

theorem step_owns (h : Disciplined s) (hs : s.stack t = i :: rest) {x : Shared T ε}
    {push : List Instr} (hr : Shared.Ran t s.shared i x push) (u : T) (l : Lock) :
    ((s.move t x (push ++ rest)).stack u).count (.leave l) =
      if x.owner l = some u then 1 else 0 := by
  have hold := h.owns u l
  have hown := h.owns t l
  rw [hs] at hown
  cases hr with
  | @takes k body hi hfree hbody _ _ =>
    rw [List.count_cons_of_ne (not_leave_of_takes hi l)] at hown
    by_cases hu : u = t
    · subst hu
      rw [Threads.State.move_stack_self, List.cons_append, List.count_cons_of_ne (hbody.1 l)]
      by_cases hl : l = k
      · subst hl
        rw [hfree] at hown
        simpa using hown
      · have hne : Instr.leave k ≠ .leave l := fun he => hl (Instr.leave.inj he).symm
        simpa [List.count_cons_of_ne hne, hl] using hown
    · rw [Threads.State.move_stack_of_ne _ hu, hold]
      by_cases hl : l = k
      · subst hl
        simp [hfree, Ne.symm hu]
      · simp [hl]
  | @leaves k hi =>
    subst hi
    by_cases hl : l = k
    · subst hl
      rw [List.count_cons_self] at hown
      have ht : s.shared.owner l = some t := by
        by_contra hne
        rw [if_neg hne] at hown
        omega
      rw [if_pos ht] at hown
      by_cases hu : u = t
      · subst hu
        simp only [Threads.State.move_stack_self, List.nil_append, Function.update_self]
        simpa using hown
      · rw [ht, if_neg (fun he => hu (Option.some.inj he).symm)] at hold
        simpa [Threads.State.move_stack_of_ne _ hu] using hold
    · have hne : Instr.leave k ≠ .leave l := fun he => hl (Instr.leave.inj he).symm
      rw [List.count_cons_of_ne hne] at hown
      by_cases hu : u = t
      · subst hu
        simpa [hl] using hown
      · simpa [Threads.State.move_stack_of_ne _ hu, hl] using hold
  | removes hi hid =>
    subst hi
    by_cases hu : u = t
    · subst hu
      simpa [List.count_cons] using hown
    · simpa [Threads.State.move_stack_of_ne _ hu] using hold
  | calm hc =>
    rw [hc.owner]
    by_cases hu : u = t
    · subst hu
      rw [List.count_cons_of_ne (hc.plain.1 l)] at hown
      have hzero : push.count (.leave l) = 0 :=
        List.count_eq_zero.mpr fun hm => hc.noLeave _ hm l rfl
      rw [Threads.State.move_stack_self, List.count_append, hzero, Nat.zero_add, hown]
    · rw [Threads.State.move_stack_of_ne _ hu, hold]

theorem step_ordered (h : Disciplined s) (hsafe : SafeDisconnect s t)
    (hs : s.stack t = i :: rest) {x : Shared T ε} {push : List Instr}
    (hr : Shared.Ran t s.shared i x push) : (push ++ rest).Pairwise Below := by
  have hord := h.ordered t
  rw [hs, List.pairwise_cons] at hord
  obtain ⟨habove, hrest⟩ := hord
  have hheld : ∀ l, Instr.leave l ∈ rest → s.shared.owner l = some t := fun l hl =>
    h.leave_mem.mp (hs ▸ List.mem_cons_of_mem i hl)
  have hcross : (∀ a ∈ push, ∀ l, .leave l ∈ rest → a.Under l) →
      ∀ a ∈ push, ∀ b ∈ rest, Below a b := by
    intro hu a ha b hb
    refine ⟨fun l hl => ?_, (habove b hb).2⟩
    subst hl
    exact hu a ha l hb
  refine List.pairwise_append.mpr ⟨?_, hrest, hcross ?_⟩
  · cases hr with
    | @takes k body hi hfree hbody hunder _ =>
      refine List.pairwise_pair.mpr ⟨fun l hl => hunder l (Or.inl (Instr.leave.inj hl).symm), rfl⟩
    | leaves hi => exact .nil
    | removes hi hid => exact List.pairwise_pair.mpr ⟨fun _ => nofun, rfl⟩
    | calm hc =>
      have htail := hc.tail
      cases push with
      | nil => exact .nil
      | cons a push => exact Instr.pairwise_plain htail
  · cases hr with
    | @takes k body hi hfree hbody hunder _ =>
      intro a ha l hl
      simp only [List.mem_cons, List.not_mem_nil, or_false] at ha
      rcases ha with rfl | rfl
      · exact hunder l (Or.inr ((habove _ hl).1 l rfl))
      · trivial
    | leaves hi => exact fun _ => nofun
    | @removes sid hi hid =>
      intro a ha l hl
      simp only [List.mem_cons, List.not_mem_nil, or_false] at ha
      rcases ha with rfl | rfl
      · subst hi
        have hu : l = .manager ∨ l = .send sid := (habove _ hl).1 l rfl
        rcases hu with rfl | rfl
        · exact absurd (hheld _ hl) (hsafe sid rest hs hid).1
        · rfl
      · trivial
    | calm hc => exact fun a ha l hl => hc.under a ha l ((habove _ hl).1 l rfl)

/-- The stack of a thread begins with an instruction that takes a lock only right
after it was pushed. -/
theorem head_pushed (h : Disciplined s) (hs : s.stack t = i :: rest) {push rest' : List Instr}
    {j : Instr} (hj : push ++ rest = j :: rest') {l : Lock} (hl : j.takes = some l) :
    push.head? = some j := by
  cases push with
  | nil =>
    have hnone := h.takes_head hs (show j ∈ rest by rw [← List.nil_append rest, hj]; simp)
    rw [hl] at hnone
    cases hnone
  | cons a push =>
    rw [List.cons_append, List.cons.injEq] at hj
    rw [hj.1]
    rfl

theorem step_clear (h : Disciplined s) (hsafe : SafeDisconnect s t) (hs : s.stack t = i :: rest)
    {x : Shared T ε} {push : List Instr} (hr : Shared.Ran t s.shared i x push) {u : T}
    {sid : SessionId} {id : PlayerId} {ru : List Instr}
    (hu : (s.move t x (push ++ rest)).stack u = .removePlayerSession sid id :: ru)
    (ho : x.owner (.send sid) = some u) :
    x.mConnected sid = false ∧ ∀ v rv,
      (s.move t x (push ++ rest)).stack v = .lockedSend sid :: rv → x.owner .manager ≠ some v := by
  by_cases hut : u = t
  · subst hut
    rw [Threads.State.move_stack_self] at hu
    have hhead := h.head_pushed hs hu rfl
    cases hr with
    | takes _ _ hbody _ _ =>
      cases hhead
      cases hbody.2
    | leaves _ => cases hhead
    | removes hi hid =>
      cases hhead
      subst hi
      refine ⟨h.gone u sid (hs ▸ List.mem_cons_self), fun v rv hv => ?_⟩
      by_cases hvu : v = u
      · subst hvu
        rw [Threads.State.move_stack_self] at hv
        cases hv
      · rw [Threads.State.move_stack_of_ne _ hvu] at hv
        exact (hsafe sid rest hs hid).2 ho v rv hv
    | calm hc =>
      -- Only `PlayerLogout` is left, and it holds no lock.
      have hunder := h.under hs hc.plain.1 (hc.owner ▸ ho)
      exact absurd hunder (hc.removes sid id hhead _)
  · rw [Threads.State.move_stack_of_ne _ hut] at hu
    obtain ⟨hconn, hclear⟩ := h.clear u sid id ru hu (hr.owner_other hut ho)
    refine ⟨hr.connected.1 sid hconn, fun v rv hv => ?_⟩
    by_cases hvt : v = t
    · subst hvt
      rw [Threads.State.move_stack_self] at hv
      have hhead := h.head_pushed hs hv rfl
      cases hr with
      | takes _ _ hbody _ _ =>
        cases hhead
        cases hbody.2
      | leaves _ => cases hhead
      | removes _ _ => cases hhead
      | calm hc =>
        have hlive := hc.sends sid hhead
        rw [hconn] at hlive
        cases hlive
    · rw [Threads.State.move_stack_of_ne _ hvt] at hv
      exact fun hm => hclear v rv hv (hr.owner_other hvt hm)

theorem step_exec (h : Disciplined s) (hsafe : SafeDisconnect s t) (hs : s.stack t = i :: rest)
    {x : Shared T ε} {push : List Instr} (hr : Shared.Ran t s.shared i x push) :
    Disciplined (s.move t x (push ++ rest)) where
  owns := h.step_owns hs hr
  ordered u := by
    by_cases hu : u = t
    · subst hu
      rw [Threads.State.move_stack_self]
      exact h.step_ordered hsafe hs hr
    · rw [Threads.State.move_stack_of_ne _ hu]
      exact h.ordered u
  gone u sid hm := by
    by_cases hu : u = t
    · subst hu
      rw [Threads.State.move_stack_self, List.mem_append] at hm
      rcases hm with hm | hm
      · exact hr.connected.2 sid hm
      · exact hr.connected.1 sid (h.gone u sid (hs ▸ List.mem_cons_of_mem i hm))
    · rw [Threads.State.move_stack_of_ne _ hu] at hm
      exact hr.connected.1 sid (h.gone u sid hm)
  clear u sid id ru hu ho := h.step_clear hsafe hs hr hu ho

theorem step_start (h : Disciplined s) (hs : s.stack t = []) (hi : i.IsCall) :
    Disciplined (s.move t s.shared [i]) where
  owns u l := by
    by_cases hu : u = t
    · subst hu
      have hold := h.owns u l
      have hne : i ≠ .leave l := by
        rintro rfl
        exact hi
      rw [hs] at hold
      rw [Threads.State.move_stack_self, List.count_cons_of_ne hne]
      exact hold
    · rw [Threads.State.move_stack_of_ne _ hu]
      exact h.owns u l
  ordered u := by
    by_cases hu : u = t
    · subst hu
      rw [Threads.State.move_stack_self]
      exact List.pairwise_singleton _ _
    · rw [Threads.State.move_stack_of_ne _ hu]
      exact h.ordered u
  gone u sid hm := by
    by_cases hu : u = t
    · subst hu
      rw [Threads.State.move_stack_self, List.mem_singleton] at hm
      subst hm
      exact hi.elim
    · rw [Threads.State.move_stack_of_ne _ hu] at hm
      exact h.gone u sid hm
  clear u sid id ru hu ho := by
    have hut : u ≠ t := by
      rintro rfl
      rw [Threads.State.move_stack_self] at hu
      cases hu
      exact hi
    rw [Threads.State.move_stack_of_ne _ hut] at hu
    obtain ⟨hconn, hclear⟩ := h.clear u sid id ru hu ho
    refine ⟨hconn, fun v rv hv => ?_⟩
    by_cases hvt : v = t
    · subst hvt
      rw [Threads.State.move_stack_self] at hv
      cases hv
      exact hi.elim
    · rw [Threads.State.move_stack_of_ne _ hvt] at hv
      exact hclear v rv hv

theorem step (h : Disciplined s) (hsafe : SafeDisconnect s t) {S : Sdk ε} {s' : Workers T ε}
    (hstep : Threads.Step (workers S) s t s') : Disciplined s' := by
  cases hstep with
  | start hs hm =>
    obtain ⟨-, rfl, i, hi, rfl⟩ := hm
    exact h.step_start hs hi
  | exec hs hm =>
    obtain ⟨-, ok, hrun⟩ := hm
    exact h.step_exec hsafe hs (Shared.run_ran hrun)

end Disciplined

theorem reachable_disciplined {S : Sdk ε} {s : Workers T ε}
    (h : Threads.Reachable (workers S) Shared.Unlocked SafeDisconnect s) : Disciplined s :=
  h.invariant (fun _ hx => .idle hx) fun _ _ _ hd hs hsafe => hd.step hsafe hs

/-- A thread that removes a logged-in session under `mLock`, or under the send lock
that the holder of `mLock` waits for, is on a cycle right away. -/
theorem DeadlockFree.safeDisconnect {S : Sdk ε} {s s' : Workers T ε} {t : T}
    (h : DeadlockFree s') (hstep : Threads.Step (workers S) s t s') : SafeDisconnect s t := by
  intro sid rest hs hid
  cases hstep with
  | start hidle _ =>
    rw [hs] at hidle
    cases hidle
  | exec htop hm =>
    rw [hs, List.cons.injEq] at htop
    obtain ⟨rfl, rfl⟩ := htop
    obtain ⟨-, ok, hrun⟩ := hm
    simp only [Shared.run, if_pos hid, Option.some.injEq, Prod.mk.injEq] at hrun
    obtain ⟨rfl, rfl⟩ := hrun
    have hwaits : ∀ u, s.shared.owner .manager = some u → WaitsFor (s.move t s.shared
        ([.removePlayerSession sid (s.shared.mPlayerSessionId sid), .clearId sid] ++ rest)) t u :=
      fun u ho => ⟨_, _, _, Threads.State.move_stack_self .., rfl, ho⟩
    refine ⟨fun ho => h t (.single (hwaits t ho)), fun hsend u rest' hu ho => ?_⟩
    have hut : u ≠ t := by
      rintro rfl
      rw [hs] at hu
      cases hu
    have hback : WaitsFor (s.move t s.shared
        ([.removePlayerSession sid (s.shared.mPlayerSessionId sid), .clearId sid] ++ rest)) u t :=
      ⟨_, _, _, (Threads.State.move_stack_of_ne _ hut ..).trans hu, rfl, hsend⟩
    exact h t (.tail (.single (hwaits u ho)) hback)

/-- One thread alone makes a call. -/
def Shared.call (x : Shared Unit ε) (i : {i : Instr // i.IsCall}) : Option (List Instr) :=
  if x.manager.exitCode = none then some [i.1] else none

/-- It goes on, with the given answer of the outside. -/
def Shared.goOn (S : Sdk ε) (x : Shared Unit ε) (i : Instr) (ok : Bool) :
    Option (Shared Unit ε × List Instr) :=
  if x.manager.exitCode = none then x.run S ok () i else none

theorem Shared.call_starts {S : Sdk ε} {x : Shared Unit ε} {i : {i : Instr // i.IsCall}}
    {push : List Instr} (h : x.call i = some push) : (workers S).start () x x push := by
  obtain ⟨hrun, hpush⟩ := Option.ite_none_right_eq_some.mp h
  exact ⟨hrun, rfl, i.1, i.2, (Option.some.inj hpush).symm⟩

theorem Shared.goOn_executes {S : Sdk ε} {x x' : Shared Unit ε} {i : Instr} {ok : Bool}
    {push : List Instr} (h : x.goOn S i ok = some (x', push)) :
    (workers S).exec () i x x' push := by
  obtain ⟨hrun, hx⟩ := Option.ite_none_right_eq_some.mp h
  exact ⟨hrun, ok, hx⟩

/-- `goOn` up to the first `OnDisconnect`. -/
def Shared.goOnConnected (S : Sdk ε) (x : Shared Unit ε) :
    Instr → Bool → Option (Shared Unit ε × List Instr)
  | .onDisconnect _, _ => none
  | i, ok => x.goOn S i ok

theorem Shared.goOnConnected_safe {S : Sdk ε} {x x' : Shared Unit ε} {i : Instr}
    {rest push : List Instr} {ok : Bool} (h : x.goOnConnected S i ok = some (x', push)) :
    SafeDisconnect (⟨x, fun _ => i :: rest⟩ : Workers Unit ε) () ∧
      (workers S).exec () i x x' push := by
  cases i
  case onDisconnect s => cases h
  all_goals exact ⟨fun sid _ hs => (nomatch (List.cons.inj hs).1), Shared.goOn_executes h⟩

/-- A game session has started, and session `0` is connected. -/
def oneConnected : Shared Unit Playback where
  owner _ := none
  manager := { WindowsManager.initialized with mGameSession := some ∅ }
  env := ⟨fun _ => .reserved, []⟩
  mConnected s := s == 0
  mPlayerSessionId _ := []
  mSendPendingCount _ := 0
  returned _ := false

/-- A player logs in, gets its reply, and `WSASend` fails in a broadcast to it. The next
instruction is its `OnDisconnect`. -/
def failedBroadcast : List ({i : Instr // i.IsCall} ⊕ Bool) :=
  .inl ⟨.playerLogin 0 [1], trivial⟩ :: List.replicate 10 (.inr true) ++
    [.inl ⟨.sendCompletion 0, trivial⟩, .inr true, .inr false, .inr true] ++
    .inl ⟨.broadcastMessage, trivial⟩ :: List.replicate 5 (.inr true) ++
      List.replicate 2 (.inr false)

theorem failedBroadcast_unsafe :
    ∃ s s' : Workers Unit Playback,
      Threads.Reachable (workers ledger) Shared.Unlocked SafeDisconnect s ∧
        s.shared.owner .manager = some () ∧ Threads.Step (workers ledger) s () s' ∧
        ¬SafeDisconnect s () := by
  have hstart : Threads.Reachable (workers ledger) Shared.Unlocked SafeDisconnect
      ⟨oneConnected, fun _ => []⟩ := .init fun _ => rfl
  have hend : (failedBroadcast.foldlM
      (Threads.alone Shared.call (Shared.goOnConnected ledger)) (oneConnected, [])).map
      (fun s => (s.2.head?, s.1.owner .manager, s.1.mPlayerSessionId 0,
        s.1.manager.exitCode)) =
        some (some (.onDisconnect 0), some (), [1], none) := by decide +kernel
  obtain ⟨⟨x, stack⟩, hs, he⟩ := Option.map_eq_some_iff.mp hend
  simp only [Prod.mk.injEq] at he
  obtain ⟨htop, howner, hid, hexit⟩ := he
  obtain ⟨rest, rfl⟩ := List.head?_eq_some_iff.mp htop
  have hreach := hstart.alone
    (fun _ _ _ hpush => ⟨fun _ _ hs => (nomatch hs), Shared.call_starts hpush⟩)
    (fun _ _ _ _ _ _ => Shared.goOnConnected_safe) failedBroadcast hs
  refine ⟨_, _, hreach, howner, .exec rfl ⟨hexit, true, rfl⟩, fun hsafe => ?_⟩
  exact (hsafe 0 rest rfl (by simp [hid])).1 howner

/-- In every run in which each `OnDisconnect` of a logged-in session is safe there is
never a deadlock, and a next step that is not safe makes one. -/
theorem deadlockFree_iff (S : Sdk ε) :
    (∀ s : Workers T ε, Threads.Reachable (workers S) Shared.Unlocked SafeDisconnect s →
      DeadlockFree s) ∧
    ∀ (s s' : Workers T ε) (t : T),
      Threads.Reachable (workers S) Shared.Unlocked SafeDisconnect s →
        Threads.Step (workers S) s t s' → (DeadlockFree s' ↔ SafeDisconnect s t) := by
  refine ⟨fun s h => (reachable_disciplined h).deadlockFree, fun s s' t h hs => ⟨?_, fun hsafe => ?_⟩⟩
  · exact fun hfree => hfree.safeDisconnect hs
  · exact ((reachable_disciplined h).step hsafe hs).deadlockFree

theorem deadlockFree_broadcast :
    ∃ s s' : Workers Unit Playback,
      Threads.Reachable (workers ledger) Shared.Unlocked SafeDisconnect s ∧
        s.shared.owner .manager = some () ∧ DeadlockFree s ∧
        Threads.Step (workers ledger) s () s' ∧ ¬DeadlockFree s' := by
  obtain ⟨s, s', hreach, howner, hstep, hunsafe⟩ := failedBroadcast_unsafe
  have h := deadlockFree_iff (T := Unit) ledger
  exact ⟨s, s', hreach, howner, h.1 s hreach, hstep,
    fun hfree => hunsafe ((h.2 s s' () hreach hstep).mp hfree)⟩

theorem broadcast_deadlocks :
    ∃ s : Workers Unit Playback,
      Threads.Reachable (workers ledger) Shared.Unlocked (fun _ _ => True) s ∧
        ¬DeadlockFree s := by
  obtain ⟨s, s', hreach, -, hstep, hunsafe⟩ := failedBroadcast_unsafe
  exact ⟨s', (hreach.mono fun _ _ _ => trivial).step hstep trivial,
    fun hfree => hunsafe (hfree.safeDisconnect hstep)⟩

end GameLift
