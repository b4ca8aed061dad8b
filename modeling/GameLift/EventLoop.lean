import GameLift.ServerFrame

/-! The event loop as a machine: between two events it is idle, and inside one
it reads from a socket or dispatches packets, one round of a loop at a time.
No scheduled job is ever pushed, so `DoTasks` does nothing here. -/

namespace GameLift

inductive Control where
  | idle
  | receiving (sid : SessionId)
  | dispatching (sid : SessionId)
deriving DecidableEq, Repr

structure Config (ε : Type) where
  server : Server ε
  control : Control

namespace Server

variable {ε : Type} (E : Env ε)

/-- Some `shared_ptr` keeps the object, and so its socket, alive between two events. -/
def Live (w : Server ε) (sid : SessionId) : Prop :=
  sid ∈ w.gameLift.mPlayerSessions ∨
    ∃ k ∈ w.mClientList.keys, w.mClientList.value k = some sid

def createClient (w : Server ε) (sock : Socket) (sid : SessionId) (send recv : Block) :
    Server ε :=
  { w with
    sessions := Function.update w.sessions sid
      ⟨[], false, sock, CircularBuffer.new send, CircularBuffer.new recv⟩
    allocated := insert sid w.allocated
    accepted := Function.update w.accepted sid []
    mClientList := w.mClientList.insert sock sid }

def onConnect (w : Server ε) (sid : SessionId) : Server ε :=
  w.modify sid fun s => { s with mConnected := true }

def startReceive (w : Server ε) (sock : Socket) : Config ε :=
  let (client, l) := w.mClientList.subscript sock
  let w := { w with mClientList := l }
  match client with
  | none => ⟨w.raise .nullPointer, .idle⟩
  | some sid =>
    if (w.sessions sid).mConnected then ⟨w, .receiving sid⟩ else ⟨w.raise .crashAssert, .idle⟩

def receiveStep (sid : SessionId) (w : Server ε) : Config ε :=
  match receiveBody E sid w with
  | .done w => ⟨w, .idle⟩
  | .next w => ⟨w, .dispatching sid⟩
  | .hang => ⟨w, .receiving sid⟩

def dispatchStep (sid : SessionId) (w : Server ε) : Config ε :=
  match (receiver E sid).dispatchBody w with
  | .done w => ⟨w, .receiving sid⟩
  | .next w => ⟨w, .dispatching sid⟩
  | .hang => ⟨w, .dispatching sid⟩

/-- One element of the range-for over `mClientList`. -/
def flushClient (fuel : Nat) (w : Server ε) (k : Socket) : Option (Server ε) :=
  match w.mClientList.value k with
  | none => some (w.raise .nullPointer)
  | some sid => do
    let (r, w) ← w.sendFlush E fuel sid
    let w := if r.answer then w else w.disconnect E sid
    -- `Disconnect` erases the element the loop stands on.
    return if k ∈ w.mClientList.keys then w else w.raise .danglingIterator

def flushClientSend (fuel : Nat) (w : Server ε) : Option (Server ε) :=
  (w.mClientList.keys.sort (· ≤ ·)).foldlM (flushClient E fuel) w

def onStartGameSession (w : Server ε) : Server ε :=
  let (m, e) := w.gameLift.onStartGameSession E.toSdk w.env
  { w with gameLift := m, env := e }

def onProcessTerminate (w : Server ε) : Server ε :=
  let (m, e) := w.gameLift.onProcessTerminate E.toSdk w.env
  { w with gameLift := m, env := e }

/-- `OnReceive` after its assertion: reads until the socket has no more, each
followed by a dispatch loop. -/
def onReceive (fuel : Nat) (sid : SessionId) (w : Server ε) : Option (Server ε) :=
  Loop.loop (fun w =>
    match receiveBody E sid w with
    | .done w => Loop.Iter.done w
    | .next w =>
      match (receiver E sid).dispatchPacket fuel w with
      | some w => .next w
      | none => .hang
    | .hang => .hang) fuel w

end Server

open Server

variable {ε : Type}

/-- A descriptor the kernel hands out is not open, and an address `make_shared`
returns is taken as never used before. -/
inductive Step (E : Env ε) : Config ε → Config ε → Prop where
  | accept {w sock sid} {send recv : Block} : sid ∉ w.allocated →
      (∀ s, w.Live s → (w.sessions s).mSocket ≠ sock) →
      send.cells.length = bufSize → recv.cells.length = bufSize →
      Step E ⟨w, .idle⟩ ⟨(w.createClient sock sid send recv).onConnect sid, .idle⟩
  | readable {w sock} : Step E ⟨w, .idle⟩ (w.startReceive sock)
  | receive {w sid} : Step E ⟨w, .receiving sid⟩ (receiveStep E sid w)
  | dispatch {w sid} : Step E ⟨w, .dispatching sid⟩ (dispatchStep E sid w)
  | flush {w w' fuel} : flushClientSend E fuel w = some w' → Step E ⟨w, .idle⟩ ⟨w', .idle⟩
  -- The SDK calls back on a thread of its own; its callbacks are taken to run between events.
  | startGameSession {w} : Step E ⟨w, .idle⟩ ⟨w.onStartGameSession E, .idle⟩
  | processTerminate {w} : Step E ⟨w, .idle⟩ ⟨w.onProcessTerminate E, .idle⟩
  | outside {w e} : E.evolves w.env e → Step E ⟨w, .idle⟩ ⟨{ w with env := e }, .idle⟩

/-- The server right after `InitializeGameLift` and `Initialize` succeeded. -/
structure Initial (E : Env ε) (w : Server ε) : Prop where
  env : E.starts w.env
  gameLift : w.gameLift = .initialized
  allocated : w.allocated = ∅
  clients : w.mClientList.keys = ∅
  connected : ∀ s, (w.sessions s).mConnected = false
  id : ∀ s, (w.sessions s).mPlayerSessionId = []
  fault : w.fault = none

/-- Runs of the server whose steps all satisfy `ok`; undefined behaviour ends a run. -/
inductive Reachable (E : Env ε) (ok : Config ε → Config ε → Prop) : Config ε → Prop where
  | init {w} : Initial E w → Reachable E ok ⟨w, .idle⟩
  | step {c c'} : Reachable E ok c → c.server.fault = none → Step E c c' → ok c c' →
      Reachable E ok c'

def Onward (E : Env ε) (ok : Config ε → Config ε → Prop) : Config ε → Config ε → Prop :=
  Relation.ReflTransGen fun c c' => c.server.fault = none ∧ Step E c c' ∧ ok c c'

theorem Reachable.later {E : Env ε} {ok : Config ε → Config ε → Prop} {c c' : Config ε}
    (hc : Reachable E ok c) (h : Onward E ok c c') : Reachable E ok c' := by
  induction h with
  | refl => exact hc
  | tail _ hs ih => exact ih.step hs.1 hs.2.1 hs.2.2

def Free {ε : Type} (_ _ : Config ε) : Prop := True

theorem onward_receive {E : Env ε} {w : Server ε} {sid : SessionId} {c : Config ε}
    (hf : w.fault = none) (h : receiveStep E sid w = c) : Onward E Free ⟨w, .receiving sid⟩ c :=
  .single ⟨hf, h ▸ .receive, trivial⟩

theorem onward_dispatch {E : Env ε} {w : Server ε} {sid : SessionId} {c : Config ε}
    (hf : w.fault = none) (h : dispatchStep E sid w = c) :
    Onward E Free ⟨w, .dispatching sid⟩ c :=
  .single ⟨hf, h ▸ .dispatch, trivial⟩

/-- The dispatch loop of the source is a run of the machine's dispatch steps. -/
theorem dispatchPacket_steps {E : Env ε} {sid : SessionId} {fuel : Nat} {w w' : Server ε}
    (h : (receiver E sid).dispatchPacket fuel w = some w') :
    Relation.ReflTransGen (Step E) ⟨w, .dispatching sid⟩ ⟨w', .receiving sid⟩ := by
  induction fuel generalizing w with
  | zero => simp [Receiver.dispatchPacket, Loop.loop] at h
  | succ fuel ih =>
    have hstep : Step E ⟨w, .dispatching sid⟩ (dispatchStep E sid w) := .dispatch
    rw [Receiver.dispatchPacket, Loop.loop] at h
    rw [dispatchStep] at hstep
    cases hb : (receiver E sid).dispatchBody w with
    | done v =>
      simp only [hb, Option.some.injEq] at h hstep
      exact h ▸ .single hstep
    | next v =>
      simp only [hb] at h hstep
      exact .head hstep (ih h)
    | hang => simp [hb] at h

/-- `OnReceive`, when it returns, is a run of the machine back to idle. -/
theorem onReceive_steps {E : Env ε} {sid : SessionId} {fuel : Nat} {w w' : Server ε}
    (h : onReceive E fuel sid w = some w') :
    Relation.ReflTransGen (Step E) ⟨w, .receiving sid⟩ ⟨w', .idle⟩ := by
  have hret : Loop.Returns _ w w' := ⟨fuel, h⟩
  refine hret.invariant
    (fun v => Relation.ReflTransGen (Step E) ⟨w, .receiving sid⟩ ⟨v, .receiving sid⟩)
    (fun v => Relation.ReflTransGen (Step E) ⟨w, .receiving sid⟩ ⟨v, .idle⟩) .refl fun v hv => ?_
  have hstep : Step E ⟨v, .receiving sid⟩ (receiveStep E sid v) := .receive
  rw [receiveStep] at hstep
  cases hb : receiveBody E sid v with
  | done v' =>
    simp only [hb] at hstep
    exact hv.tail hstep
  | next v' =>
    simp only [hb] at hstep
    dsimp only
    cases hd : (receiver E sid).dispatchPacket fuel v' with
    | none => trivial
    | some v'' => exact (hv.tail hstep).trans (dispatchPacket_steps hd)
  | hang => trivial

end GameLift
