import GameLift.Dispatcher

/-! The dummy client's sessions: who holds references to them. Overlapped requests,
timer jobs and the dispatcher each take one and return it; the one of the issuing is
returned when the session is disconnected. -/

namespace GameLift

namespace DummySession

open Dispatcher (Cmd Instr Program)

/-- `IO_NONE` is never given to a context. -/
inductive IoType where
  | send
  | recv
  | recvZero
  | disconnect
  | connect
deriving DecidableEq, Repr

structure Context (O : Type) where
  mSessionObject : O
  mIoType : IoType
deriving DecidableEq, Repr

/-- The functions that start an overlapped operation; `PreRecv` is called from two
places, which go on differently. -/
inductive Site where
  | connectRequest
  | connectPreRecv
  | preRecv
  | postRecv
  | flushSend
  | disconnectRequest
deriving DecidableEq, Repr

def Site.ioType : Site → IoType
  | connectRequest => .connect
  | connectPreRecv | preRecv => .recvZero
  | postRecv => .recv
  | flushSend => .send
  | disconnectRequest => .disconnect

def Site.ofPreRecv (onConnect : Bool) : Site := if onConnect then connectPreRecv else preRecv

/-- The code of the sessions, by the functions and the points in them. `newContext`
constructs the context of a request, `request` hands it to the system. -/
inductive Code (O J : Type) where
  | connectRequest (o : O)
  | newContext (o : O) (site : Site)
  | request (o : O) (site : Site)
  | deleteIoContext (o : O)
  | doIocpJob (o : O) (ioType : IoType) (failed : Bool)
  | connectCompletion (o : O)
  | setConnected (o : O)
  | clearConnected (o : O)
  | disconnectCompletion (o : O)
  | disconnectRequest (o : O)
  | preRecv (o : O) (onConnect : Bool)
  | postRecv (o : O)
  | sendCompletion (o : O)
  | postSend (o : O)
  | pushTimerJob (o : O) (job : J)
  | releaseTimer (o : O)
  | calls

/-- `pending` are the contexts in the hands of the system. `issued` and `returned`
record that the reference of the issuing was taken and given back, `onRelease` counts
the calls of `OnRelease`. -/
structure Net (T O J : Type) where
  mConnected : O → Bool
  pending : List (Context O)
  mTimerJobQueue : T → List (O × J)
  issued : O → Bool
  returned : O → Bool
  onRelease : O → ℕ

variable {T O J : Type}

def Net.init : Net T O J where
  mConnected _ := false
  pending := []
  mTimerJobQueue _ := []
  issued _ := false
  returned _ := false
  onRelease _ := 0

/-- What a task, a packet handler or a thread of its own accord may ask for. -/
inductive Call (O J : Type) where
  | postSend (o : O)
  | disconnectRequest (o : O)
  | doAsync (o : O) (job : J)
  | doAsyncAfter (o : O) (job : J)

def Call.cmd : Call O J → Cmd O J (Code O J)
  | postSend o => .code (.postSend o)
  | disconnectRequest o => .code (.disconnectRequest o)
  | doAsync o job => .doTask o job
  | doAsyncAfter o job => .code (.pushTimerJob o job)

def Site.accepted (o : O) : Site → List (Code O J)
  | connectPreRecv => [.postSend o]
  | _ => []

def Site.failed (o : O) : Site → List (Code O J)
  | connectPreRecv => [.clearConnected o]
  | preRecv | postRecv | flushSend => [.disconnectRequest o]
  | connectRequest | disconnectRequest => []

abbrev World (T O J : Type) := (O → ℤ) × Net T O J

section Steps
variable [DecidableEq O]

def addRef (o : O) (w : World T O J) : World T O J :=
  (Function.update w.1 o (w.1 o + 1), w.2)

def releaseRefForThis (o : O) (w : World T O J) : World T O J :=
  (Function.update w.1 o (w.1 o - 1), w.2)

/-- `fetch_sub` gives the value before the subtraction. -/
def releaseRef (o : O) (w : World T O J) : World T O J :=
  (Function.update w.1 o (w.1 o - 1), { w.2 with
    onRelease :=
      if w.1 o = 0 then Function.update w.2.onRelease o (w.2.onRelease o + 1) else w.2.onRelease })

def setConnected (o : O) (connected : Bool) (w : World T O J) : World T O J :=
  (w.1, { w.2 with mConnected := Function.update w.2.mConnected o connected })

def setPending (pending : List (Context O)) (w : World T O J) : World T O J :=
  (w.1, { w.2 with pending := pending })

def giveBack (o : O) (w : World T O J) : World T O J :=
  (w.1, { w.2 with returned := Function.update w.2.returned o true })

def issue (o : O) (w : World T O J) : World T O J :=
  (w.1, { w.2 with issued := Function.update w.2.issued o true })

def setTimers [DecidableEq T] (t : T) (queue : List (O × J)) (w : World T O J) : World T O J :=
  (w.1, { w.2 with mTimerJobQueue := Function.update w.2.mTimerJobQueue t queue })

/-- The completion of a context, once it is out of the queue. -/
def completion (o : O) (failed : Bool) : IoType → List (Code O J) → Prop
  | .connect, codes => codes = [.connectCompletion o]
  | .disconnect, codes => codes = [.disconnectCompletion o]
  | .recvZero, codes => codes = [.postRecv o]
  | .send, codes =>
    if failed then codes = [.disconnectRequest o]
    else codes = [.sendCompletion o] ∨ codes = [.sendCompletion o, .disconnectRequest o]
  | .recv, codes =>
    if failed then codes = [.disconnectRequest o] else codes = [.calls, .preRecv o false]

/-- Socket calls may fail, buffers be full or empty: both branches are steps. A failed
`CRASH_ASSERT` other than the one on the count leaves no step. -/
def step [DecidableEq T] (t : T) (w : World T O J) :
    Code O J → World T O J → List (Cmd O J (Code O J)) → Prop
  | .connectRequest o, w', next =>
    w.2.mConnected o = false ∧ w' = w ∧ next = [.code (.newContext o .connectRequest)]
  | .newContext o site, w', next => w' = addRef o w ∧ next = [.code (.request o site)]
  | .request o site, w', next =>
    w' = setPending (⟨o, site.ioType⟩ :: w.2.pending) w ∧ next = (site.accepted o).map .code ∨
    w' = w ∧ next = .code (.deleteIoContext o) :: (site.failed o).map .code
  | .deleteIoContext o, w', next => w' = releaseRef o w ∧ next = []
  | .doIocpJob o ioType failed, w', next => w' = w ∧ ∃ codes,
    completion o failed ioType codes ∧ next = codes.map .code ++ [.code (.deleteIoContext o)]
  | .connectCompletion o, w', next =>
    w' = w ∧ (next = [] ∨ next = [.code (.setConnected o)])
  | .setConnected o, w', next => w.2.mConnected o = false ∧ w' = setConnected o true w ∧
    next = [.code (.preRecv o true)]
  | .clearConnected o, w', next => w' = setConnected o false w ∧ next = []
  | .disconnectCompletion o, w', next => w' = giveBack o (releaseRef o w) ∧ next = []
  | .disconnectRequest o, w', next =>
    if w.2.mConnected o then
      w' = setConnected o false w ∧ next = [.code (.newContext o .disconnectRequest)]
    else w' = w ∧ next = []
  | .preRecv o onConnect, w', next => w' = w ∧
    next = if w.2.mConnected o then [.code (.newContext o (.ofPreRecv onConnect))]
      else ((Site.ofPreRecv onConnect).failed o).map .code
  | .postRecv o, w', next => w' = w ∧
    (next = [.code (.disconnectRequest o)] ∨
      w.2.mConnected o = true ∧ next = [.code (.newContext o .postRecv)])
  | .sendCompletion o, w', next => w' = w ∧ (next = [] ∨ next = [.code (.newContext o .flushSend)])
  | .postSend o, w', next => w' = w ∧
    (next = [] ∨ w.2.mConnected o = true ∧ next = [.code (.newContext o .flushSend)])
  | .pushTimerJob o job, w', next =>
    w' = setTimers t ((o, job) :: w.2.mTimerJobQueue t) (addRef o w) ∧ next = []
  | .releaseTimer o, w', next => w' = releaseRefForThis o w ∧ next = []
  | .calls, w', next => w' = w ∧ ∃ calls : List (Call O J), next = calls.map Call.cmd

/-- What an idle thread takes up: a completion, a timer job that is due, the connecting
or the disconnecting of the sessions, or calls of its own. -/
inductive Begin [DecidableEq T] [DecidableEq J] (t : T) (w : World T O J) :
    World T O J → List (Cmd O J (Code O J)) → Prop where
  | doIocpJob {context failed} : context ∈ w.2.pending →
      Begin t w (setPending (w.2.pending.erase context) w)
        [.code (.doIocpJob context.mSessionObject context.mIoType failed)]
  | doTimerJob {o job} : (o, job) ∈ w.2.mTimerJobQueue t →
      Begin t w (setTimers t ((w.2.mTimerJobQueue t).erase (o, job)) w)
        [.doTask o job, .code (.releaseTimer o)]
  | connectPlayerSessions {o} : w.2.issued o = false →
      Begin t w (issue o (addRef o w)) [.code (.connectRequest o)]
  | disconnectPlayerSessions {o} : Begin t w w [.code (.disconnectRequest o)]
  | calls : Begin t w w [.code .calls]

def program [DecidableEq T] [DecidableEq J] : Program T O J (Code O J) (Net T O J) where
  begin := Begin
  code t c w w' next := step t w c w' next
  onExecute _ _ := [.code .calls]

end Steps

abbrev State (T O J : Type) := Dispatcher.State T O J (Code O J) (Net T O J)

def Reached [DecidableEq T] [DecidableEq O] [DecidableEq J] (s : State T O J) : Prop :=
  Dispatcher.Reached program .init s

end DummySession

end GameLift
