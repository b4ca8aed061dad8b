import GameLift.SendPipeline
import GameLift.Threads

/-! One connection of the Windows server, from `accept` to its last completion. Receives
alternate between one of zero bytes and one into the ring, and whoever takes `mConnected`
down closes the socket. -/

namespace GameLift

namespace SessionIo

/-- A request in the hands of the system, by its `mIoType` and `mWsaBuf`. -/
inductive Context where
  | send
  | recvZero
  | recv (buf len : Nat)
deriving DecidableEq, Repr

def Context.receives : Context → Bool
  | send => false
  | recvZero | recv _ _ => true

/-- The two functions that disconnect the session when a call in them returns false. -/
inductive Caller where
  | startAccept
  | doIocpJob
deriving DecidableEq, Repr

/-- The points where a thread works on the session. The last two are the ends of a
round of `StartAccept` and of `DoIocpJob`; `disconnect none` is called anywhere else. -/
inductive Instr where
  | setReceiveBuffer
  | createIoCompletionPort
  | setConnected
  | preRecv (caller : Caller)
  | preRecvRequest (caller : Caller)
  | postRecv
  | postRecvRoom
  | postRecvRequest
  | recvCompletion (transferred : Nat)
  | onRead
  | postSend
  | flushSend
  | sendCompletion
  | disconnect (caller : Option Caller)
  | onDisconnect
  | closesocket
  | dropSession
  | deleteIoContext
deriving DecidableEq, Repr

/-- What the calls in `OnConnect` that it checks return. -/
structure Setup where
  receiveBuffer : Bool
  completionPort : Bool

inductive ReadCall where
  | done
  | read (bytes : Nat)
  | postSend
  | disconnect
deriving DecidableEq, Repr

/-- The session and what has been done with it. `received` is what the completed receives
had in their windows, `consumed` what was read out of the ring. -/
structure Io where
  accepted : Bool
  mConnected : Bool
  mRecvBuffer : CircularBuffer
  outstanding : List Context
  received : List Byte
  consumed : List Byte
  connects : Nat
  onDisconnects : Nat
  closes : Nat

namespace Io

def new (block : Block) : Io := ⟨false, false, .new block, [], [], [], 0, 0, 0⟩

def setRecv (x : Io) (b : CircularBuffer) : Io := { x with mRecvBuffer := b }

def request (x : Io) (context : Context) : Io :=
  { x with outstanding := context :: x.outstanding }

def complete (x : Io) (context : Context) : Io :=
  { x with outstanding := x.outstanding.erase context }

def receive (x : Io) (buf n : Nat) : Io :=
  { x with received := x.received ++ Region.slice x.mRecvBuffer.mBuffer buf n }

/-- One instruction. `ok` is what the outside lets happen: that a request starts, or that
there is something to send. -/
def run (setup : Setup) (ok : Bool) (call : ReadCall) (x : Io) :
    Instr → Except Fault (Io × List Instr)
  | .setReceiveBuffer => return (x,
      if setup.receiveBuffer then [.createIoCompletionPort] else [.disconnect (some .startAccept)])
  | .createIoCompletionPort => return (x,
      if setup.completionPort then [.setConnected] else [.disconnect (some .startAccept)])
  | .setConnected =>
    return ({ x with mConnected := true, connects := x.connects + 1 }, [.preRecv .startAccept])
  | .preRecv c => return (x, if x.mConnected then [.preRecvRequest c] else [.disconnect (some c)])
  | .preRecvRequest c =>
    if ok then return (x.request .recvZero, []) else return (x, [.disconnect (some c)])
  | .postRecv =>
    return (x, if x.mConnected then [.postRecvRoom] else [.disconnect (some .doIocpJob)])
  | .postRecvRoom =>
    let (room, b) := x.mRecvBuffer.getFreeSpaceSize
    return (x.setRecv b, if room = 0 then [.disconnect (some .doIocpJob)] else [.postRecvRequest])
  | .postRecvRequest =>
    let (room, b) := x.mRecvBuffer.getFreeSpaceSize
    -- The size is cast to `ULONG`.
    if ok then return ((x.setRecv b).request (.recv b.getBuffer (room % 0x100000000)), [])
    else return (x.setRecv b, [.disconnect (some .doIocpJob)])
  | .recvCompletion transferred => return (x.setRecv (x.mRecvBuffer.commit transferred), [.onRead])
  | .onRead =>
    match call with
    -- `RecvCompletion` returns, and `DoIocpJob` goes on.
    | .done => return (x, [.preRecv .doIocpJob])
    | .read bytes => do
      let (image, b) ← x.mRecvBuffer.read bytes
      return ({ x with mRecvBuffer := b, consumed := x.consumed ++ image.getD [] }, [.onRead])
    | .postSend => return (x, [.postSend, .onRead])
    | .disconnect => return (x, [.disconnect none, .onRead])
  | .postSend => return (x, if x.mConnected && ok then [.flushSend] else [])
  | .flushSend => if ok then return (x.request .send, []) else return (x, [.disconnect none])
  | .sendCompletion => return (x, if ok then [.flushSend] else [])
  | .disconnect _ =>
    if x.mConnected then return ({ x with mConnected := false }, [.onDisconnect, .closesocket])
    else return (x, [])
  | .onDisconnect => return ({ x with onDisconnects := x.onDisconnects + 1 }, [])
  | .closesocket => return ({ x with closes := x.closes + 1 }, [])
  | .dropSession | .deleteIoContext => return (x, [])

end Io

/-- What an idle thread may take up. The system fills the window of a receive as it likes
until the completion, which tells how much of it counts. -/
inductive Begin (x : Io) : Io → List Instr → Prop where
  | accept : x.accepted = false →
      Begin x { x with accepted := true } [.setReceiveBuffer, .dropSession]
  -- With an error too, `DoIocpJob` goes on to `PostRecv`.
  | recvZero : .recvZero ∈ x.outstanding →
      Begin x (x.complete .recvZero) [.postRecv, .deleteIoContext]
  | recv {buf len n} : .recv buf len ∈ x.outstanding → 0 < n → n ≤ len →
      Begin x ((x.receive buf n).complete (.recv buf len)) [.recvCompletion n, .deleteIoContext]
  | recvFailed {buf len} : .recv buf len ∈ x.outstanding →
      Begin x (x.complete (.recv buf len)) [.disconnect (some .doIocpJob), .deleteIoContext]
  | send : .send ∈ x.outstanding → Begin x (x.complete .send) [.sendCompletion, .deleteIoContext]
  | sendPartial : .send ∈ x.outstanding → Begin x (x.complete .send)
      [.sendCompletion, .disconnect (some .doIocpJob), .deleteIoContext]
  | sendFailed : .send ∈ x.outstanding → Begin x (x.complete .send)
      [.disconnect (some .doIocpJob), .deleteIoContext]
  | fill {buf len p bytes b} : .recv buf len ∈ x.outstanding → buf ≤ p →
      p + bytes.length ≤ buf + len → x.mRecvBuffer.storeAt p bytes bytes.length = .ok b →
      Begin x (x.setRecv b) []
  | postSend : Begin x x [.postSend]
  | disconnect : Begin x x [.disconnect none]

variable {T : Type}

def machine (setup : Setup) : Threads.Machine T Io Instr where
  start _ := Begin
  exec _ i x x' push := ∃ ok call, x.run setup ok call i = .ok (x', push)

abbrev State (T : Type) := Threads.State T Io Instr

def Reached [DecidableEq T] (setup : Setup) (block : Block) (s : State T) : Prop :=
  Threads.Reachable (machine setup) (· = .new block) (fun _ _ => True) s

def Io.receiving (x : Io) : ℕ := x.outstanding.countP Context.receives

/-- The instructions of the one thread at a time that has no receive outstanding and
will start the next. -/
def Instr.chain : Instr → ℕ
  | setReceiveBuffer | createIoCompletionPort | setConnected | preRecv _ | preRecvRequest _
  | postRecv | postRecvRoom | postRecvRequest | recvCompletion _ | onRead => 1
  | _ => 0

/-- The chain, or its end: the session is about to be disconnected instead. -/
def Instr.active : Instr → ℕ
  | disconnect (some _) => 1
  | i => i.chain

/-- `OnConnect` has not returned, or failed and the session is not disconnected yet. -/
def Instr.Connecting : Instr → Prop
  | setReceiveBuffer | createIoCompletionPort | setConnected => True
  | preRecv c | preRecvRequest c => c = .startAccept
  | disconnect c => c = some .startAccept
  | _ => False

/-- Everything active is part of the connecting or of a round of `DoIocpJob`. -/
def Owned : List Instr → Prop
  | [] => True
  | i :: rest => (0 < i.active → i.Connecting ∨ .deleteIoContext ∈ rest) ∧ Owned rest

theorem Owned.push {push rest : List Instr} (h : Owned rest)
    (hpush : ∀ i ∈ push, 0 < i.active → i.Connecting ∨ .deleteIoContext ∈ rest) :
    Owned (push ++ rest) := by
  induction push with
  | nil => exact h
  | cons i push ih =>
    refine ⟨fun hi => ?_, ih fun j hj => hpush j (List.mem_cons_of_mem _ hj)⟩
    exact (hpush i List.mem_cons_self hi).imp_right (List.mem_append_right _)

theorem Owned.of_active {stack : List Instr} (h : Owned stack) {i : Instr} (hi : i ∈ stack)
    (hact : 0 < i.active) : i.Connecting ∨ .deleteIoContext ∈ stack := by
  induction stack with
  | nil => cases hi
  | cons j rest ih =>
    rcases List.mem_cons.mp hi with rfl | hrest
    · exact (h.1 hact).imp_right (List.mem_cons_of_mem _)
    · exact (ih h.2 hrest).imp_right (List.mem_cons_of_mem _)

theorem run_onRead {setup : Setup} {ok : Bool} {call : ReadCall} {x x' : Io} {push : List Instr}
    (h : x.run setup ok call .onRead = .ok (x', push)) :
    (x' = x ∧ (push = [.preRecv .doIocpJob] ∨ push = [.postSend, .onRead] ∨
      push = [.disconnect none, .onRead])) ∨
    ∃ bytes image b, x.mRecvBuffer.read bytes = .ok (image, b) ∧
      x' = { x with mRecvBuffer := b, consumed := x.consumed ++ image.getD [] } ∧
      push = [.onRead] := by
  cases call with
  | read bytes =>
    cases hb : x.mRecvBuffer.read bytes with
    | error f => simp [Io.run, hb, bind, Except.bind] at h
    | ok r =>
      simp only [Io.run, hb, ok_bind, pure_eq_ok, Except.ok.injEq, Prod.mk.injEq] at h
      exact Or.inr ⟨bytes, r.1, r.2, hb, h.1.symm, h.2.symm⟩
  | _ =>
    simp only [Io.run, pure_eq_ok, Except.ok.injEq, Prod.mk.injEq] at h
    exact Or.inl ⟨h.1.symm, by simp [← h.2]⟩

structure Ran (x : Io) (i : Instr) (x' : Io) (push : List Instr) : Prop where
  accepted : x'.accepted = x.accepted
  chain : (push.map Instr.chain).sum + x'.receiving ≤ i.chain + x.receiving
  active : x'.mConnected = true →
    i.active + x.receiving ≤ (push.map Instr.active).sum + x'.receiving
  connected : x'.mConnected = true → x.mConnected = true ∨ 0 < i.active
  owned : ∀ j ∈ push, 0 < j.active → 0 < i.active ∧ (i.Connecting → j.Connecting)

theorem run_ran {setup : Setup} {ok : Bool} {call : ReadCall} {x x' : Io} {i : Instr}
    {push : List Instr} (h : x.run setup ok call i = .ok (x', push)) : Ran x i x' push := by
  cases i with
  | onRead =>
    obtain ⟨ha, hr, hchain, hactive⟩ : x'.accepted = x.accepted ∧ x'.receiving = x.receiving ∧
        (push.map Instr.chain).sum = 1 ∧ (push.map Instr.active).sum = 1 := by
      rcases run_onRead h with ⟨rfl, rfl | rfl | rfl⟩ | ⟨_, _, _, -, rfl, rfl⟩ <;>
        exact ⟨rfl, rfl, rfl, rfl⟩
    refine ⟨ha, ?_, fun _ => ?_, fun _ => Or.inr (by decide), fun _ _ _ => ⟨by decide, nofun⟩⟩
    · rw [hchain, hr]
      exact Nat.le_refl _
    · rw [hactive, hr]
      exact Nat.le_refl _
  | disconnect caller =>
    rw [Io.run] at h
    split_ifs at h with hc <;>
      simp only [pure_eq_ok, Except.ok.injEq, Prod.mk.injEq] at h <;>
      obtain ⟨rfl, rfl⟩ := h
    · exact ⟨rfl, by simp [Instr.chain, Io.receiving], by simp, by simp,
        by simp [Instr.active, Instr.chain]⟩
    · exact ⟨rfl, by simp [Instr.chain], by simp [hc], by simp [hc], by simp⟩
  | _ =>
    simp only [Io.run, pure_eq_ok] at h
    try split_ifs at h
    all_goals
      simp only [Except.ok.injEq, Prod.mk.injEq] at h
      obtain ⟨rfl, rfl⟩ := h
      refine ⟨rfl, ?_, ?_, ?_, ?_⟩ <;>
        simp [Instr.chain, Instr.active, Instr.Connecting, Io.receiving, Io.request, Io.setRecv,
          Context.receives, List.countP_cons, Nat.add_comm]

theorem Io.receiving_complete {x : Io} {context : Context} (h : context ∈ x.outstanding) :
    (x.complete context).receiving + context.receives.toNat = x.receiving := by
  have hpos : context.receives = true → 0 < x.receiving := fun hr =>
    List.countP_pos_iff.mpr ⟨context, h, hr⟩
  rw [receiving, complete, List.countP_erase, ← receiving]
  cases hr : context.receives with
  | false => simp
  | true =>
    have hp := hpos hr
    simp only [h, and_self, if_true, Bool.toNat_true]
    omega

structure Begun (x x' : Io) (push : List Instr) : Prop where
  chain : (push.map Instr.chain).sum + x'.receiving + (!x'.accepted).toNat ≤
    x.receiving + (!x.accepted).toNat
  active : x.receiving ≤ (push.map Instr.active).sum + x'.receiving
  connected : x'.mConnected = x.mConnected
  owned : Owned push

theorem begun_of_complete {x : Io} {context : Context} (work : List Instr)
    (h : context ∈ x.outstanding) (hchain : (work.map Instr.chain).sum ≤ context.receives.toNat)
    (hactive : context.receives.toNat ≤ (work.map Instr.active).sum) :
    Begun x (x.complete context) (work ++ [.deleteIoContext]) := by
  have hr := Io.receiving_complete h
  refine ⟨?_, ?_, rfl, Owned.push ⟨nofun, trivial⟩ fun _ _ _ => Or.inr List.mem_cons_self⟩
  · rw [List.map_append, List.sum_append]
    simp only [Io.complete, List.map_cons, List.map_nil, List.sum_cons, List.sum_nil,
      Instr.chain, ← hr]
    omega
  · rw [List.map_append, List.sum_append]
    omega

theorem Begin.begun {x x' : Io} {push : List Instr} (h : Begin x x' push) : Begun x x' push := by
  cases h with
  | accept hacc =>
    refine ⟨?_, Nat.le_add_left .., rfl, fun _ => Or.inl trivial, nofun, trivial⟩
    simp [Instr.chain, Io.receiving, hacc, Nat.add_comm]
  | recvZero hm => exact begun_of_complete [.postRecv] hm (Nat.le_refl _) (Nat.le_refl _)
  | @recv buf _ n hm _ _ =>
    have hb := begun_of_complete [.recvCompletion n] hm (Nat.le_refl _) (Nat.le_refl _)
    exact ⟨hb.chain, hb.active, hb.connected, hb.owned⟩
  | recvFailed hm =>
    exact begun_of_complete [.disconnect (some .doIocpJob)] hm (Nat.zero_le _)
      (Nat.le_refl _)
  | send hm => exact begun_of_complete [.sendCompletion] hm (Nat.le_refl _) (Nat.le_refl _)
  | sendPartial hm =>
    exact begun_of_complete [.sendCompletion, .disconnect (some .doIocpJob)] hm
      (Nat.le_refl _) (Nat.zero_le _)
  | sendFailed hm =>
    exact begun_of_complete [.disconnect (some .doIocpJob)] hm (Nat.le_refl _)
      (Nat.zero_le _)
  | fill _ _ _ _ => exact ⟨by simp [Io.receiving, Io.setRecv], Nat.le_add_left .., rfl, trivial⟩
  | postSend => exact ⟨by simp [Instr.chain], Nat.le_add_left .., rfl, nofun, trivial⟩
  | disconnect => exact ⟨by simp [Instr.chain], Nat.le_add_left .., rfl, nofun, trivial⟩

/-- One receive is out or one thread is about to start it, but after a failure, and then
the session is disconnected before its round of `StartAccept` or `DoIocpJob` ends. -/
structure Chained [Fintype T] (s : State T) : Prop where
  single : Threads.total Instr.chain s.stack + s.shared.receiving +
    (!s.shared.accepted).toNat ≤ 1
  live : s.shared.mConnected = true →
    1 ≤ Threads.total Instr.active s.stack + s.shared.receiving
  owned : ∀ t, Owned (s.stack t)

theorem chained_new [Fintype T] (block : Block) : Chained (⟨.new block, fun _ => []⟩ : State T) where
  single := by simp [Threads.total_idle, Io.receiving, Io.new]
  live := nofun
  owned _ := trivial

theorem Chained.receiving_eq [Fintype T] {s : State T} (h : Chained s) (hc : s.shared.mConnected = true)
    (hidle : ∀ t, ∀ i ∈ s.stack t, ¬i.Connecting ∧ i ≠ .deleteIoContext) :
    s.shared.receiving = 1 := by
  have hlive := h.live hc
  have hsingle := h.single
  have hzero : Threads.total Instr.active s.stack = 0 := by
    by_contra hne
    obtain ⟨t, i, hi, hpos⟩ := Threads.exists_of_total_pos (Nat.pos_of_ne_zero hne)
    rcases (h.owned t).of_active hi hpos with hconn | hround
    · exact (hidle t i hi).1 hconn
    · exact (hidle t _ hround).2 rfl
  omega

section Runs
variable [DecidableEq T]

theorem owned_move {s : State T} (h : ∀ t, Owned (s.stack t)) (t : T) (x : Io)
    {stack : List Instr} (hs : Owned stack) (u : T) : Owned ((s.move t x stack).stack u) := by
  by_cases hu : u = t
  · rw [hu, Threads.State.move_stack_self]
    exact hs
  · rw [Threads.State.move_stack_of_ne _ hu]
    exact h u

variable [Fintype T]

theorem Chained.step {setup : Setup} {s s' : State T} {t : T} (h : Chained s)
    (hstep : Threads.Step (machine setup) s t s') : Chained s' := by
  cases hstep with
  | @start x push hs hbegin =>
    have hb := Begin.begun hbegin
    have hchain := Threads.total_start Instr.chain hs x push
    have hactive := Threads.total_start Instr.active hs x push
    have hsingle := h.single
    refine ⟨?_, fun hc => ?_, owned_move h.owned t x hb.owned⟩
    · have hle := hb.chain
      rw [hchain, Threads.State.move_shared]
      omega
    · have hle := hb.active
      have hlive := h.live (hb.connected ▸ hc)
      rw [hactive, Threads.State.move_shared]
      omega
  | @exec i rest x push hs hrun =>
    obtain ⟨ok, call, hrun⟩ := hrun
    have hr := run_ran hrun
    have hchain := Threads.total_exec Instr.chain hs x push
    have hactive := Threads.total_exec Instr.active hs x push
    have hown := h.owned t
    rw [hs] at hown
    refine ⟨?_, fun hc => ?_, owned_move h.owned t x
      (hown.2.push fun j hj hpos => ?_)⟩
    · have hle := hr.chain
      have hsingle := h.single
      rw [Threads.State.move_shared, hr.accepted]
      omega
    · have hle := hr.active hc
      rw [Threads.State.move_shared]
      rcases hr.connected hc with hold | hpos
      · have hlive := h.live hold
        omega
      · have hmem : i.active ≤ Threads.total Instr.active s.stack :=
          Threads.le_total Instr.active (hs ▸ List.mem_cons_self)
        omega
    · obtain ⟨hi, hconn⟩ := hr.owned j hj hpos
      exact (hown.1 hi).imp_left hconn

theorem Reached.chained {setup : Setup} {block : Block} {s : State T}
    (h : Reached setup block s) : Chained s :=
  Threads.Reachable.invariant (fun _ hx => hx ▸ chained_new block)
    (fun _ _ _ hi hs _ => hi.step hs) h

end Runs

section Solo
variable {setup : Setup} {block : Block} {x x' : Io} {i : Instr} {push rest : List Instr}

def Solo (setup : Setup) (block : Block) (x : Io) (stack : List Instr) : Prop :=
  Reached setup block (⟨x, fun _ => stack⟩ : State Unit)

theorem Solo.begin (h : Solo setup block x []) (hb : Begin x x' push) :
    Solo setup block x' push := Threads.Reachable.begin h trivial hb

theorem Solo.exec (h : Solo setup block x (i :: rest)) (ok : Bool) (call : ReadCall)
    (hr : x.run setup ok call i = .ok (x', push)) : Solo setup block x' (push ++ rest) :=
  Threads.Reachable.exec h trivial ⟨ok, call, hr⟩

def Io.connected (block : Block) : Io :=
  { Io.new block with accepted := true, mConnected := true, connects := 1 }

theorem solo_accept (setup : Setup) (block : Block) :
    Solo setup block { Io.new block with accepted := true } [.setReceiveBuffer, .dropSession] := by
  have hnew : Solo setup block (.new block) [] := .init rfl
  exact hnew.begin (.accept rfl)

theorem solo_connected (block : Block) :
    Solo ⟨true, true⟩ block (.connected block) [.preRecvRequest .startAccept, .dropSession] := by
  have hport := (solo_accept ⟨true, true⟩ block).exec true .done rfl
  have hset := hport.exec true .done rfl
  have hpre := hset.exec true .done rfl
  exact hpre.exec true .done rfl

end Solo

end SessionIo

end GameLift
