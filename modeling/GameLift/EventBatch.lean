import GameLift.TwoClients

/-! The batch of ready descriptors that one `epoll_wait` returns. It is a
snapshot: an earlier event of it may delete the client of a later one. -/

namespace GameLift

/-- `events[i].data.fd`: the listening socket, or the socket of a client. -/
inductive Ready where
  | listen
  | client (sock : Socket)
deriving DecidableEq, Repr

/-- `batch` is the rest of `events`, `none` before `epoll_wait` returns. `session`
is what `mClientList[client]` gave, between the lookup and the call of `OnReceive`. -/
structure Polling (ε : Type) where
  config : Config ε
  batch : Option (List Ready)
  session : Option (Socket × Option SessionId)

namespace Server

variable {ε : Type}

def lookup (w : Server ε) (sock : Socket) (rest : List Ready) : Polling ε where
  config := ⟨{ w with mClientList := (w.mClientList.subscript sock).2 }, .idle⟩
  batch := some rest
  session := some (sock, (w.mClientList.subscript sock).1)

/-- `session->OnReceive()`, up to its assertion. -/
def callReceive (w : Server ε) (session : Option SessionId) : Config ε :=
  match session with
  | none => ⟨w.raise .nullPointer, .idle⟩
  | some sid =>
    if (w.sessions sid).mConnected then ⟨w, .receiving sid⟩ else ⟨w.raise .crashAssert, .idle⟩

theorem startReceive_eq (w : Server ε) (sock : Socket) (rest : List Ready) :
    w.startReceive sock =
      (w.lookup sock rest).config.server.callReceive (w.mClientList.subscript sock).1 := rfl

structure Owns (w : Server ε) (sid : SessionId) (sock : Socket) : Prop where
  allocated : sid ∈ w.allocated
  connected : (w.sessions sid).mConnected = true
  socket : (w.sessions sid).mSocket = sock

/-- Every entry of the client list is a connected session under its own socket. -/
def TableSound (w : Server ε) : Prop :=
  ∀ k ∈ w.mClientList.keys, ∃ sid, w.mClientList.value k = some sid ∧ w.Owns sid k

end Server

open Server

variable {ε : Type}

/-- EventLoop with the lookups that satisfy `ok`. The sockets of a batch are
registered when it is taken, each at most once. -/
inductive PollStep (E : Env ε) (ok : Server ε → Socket → Prop) : Polling ε → Polling ε → Prop where
  | wait {w batch} : batch.Nodup → (∀ sock, .client sock ∈ batch → sock ∈ w.mClientList.keys) →
      PollStep E ok ⟨⟨w, .idle⟩, none, none⟩ ⟨⟨w, .idle⟩, some batch, none⟩
  | accept {w sock sid rest} {send recv : Block} : sid ∉ w.allocated →
      (∀ s, w.Live s → (w.sessions s).mSocket ≠ sock) →
      send.cells.length = bufSize → recv.cells.length = bufSize →
      PollStep E ok ⟨⟨w, .idle⟩, some (.listen :: rest), none⟩
        ⟨⟨(w.createClient sock sid send recv).onConnect sid, .idle⟩, some rest, none⟩
  | acceptError {w rest} :
      PollStep E ok ⟨⟨w, .idle⟩, some (.listen :: rest), none⟩ ⟨⟨w, .idle⟩, some rest, none⟩
  | lookup {w sock rest} : ok w sock →
      PollStep E ok ⟨⟨w, .idle⟩, some (.client sock :: rest), none⟩ (w.lookup sock rest)
  | call {w batch sock session} :
      PollStep E ok ⟨⟨w, .idle⟩, batch, some (sock, session)⟩ ⟨w.callReceive session, batch, none⟩
  | receive {w batch sid} :
      PollStep E ok ⟨⟨w, .receiving sid⟩, batch, none⟩ ⟨receiveStep E sid w, batch, none⟩
  | dispatch {w batch sid} :
      PollStep E ok ⟨⟨w, .dispatching sid⟩, batch, none⟩ ⟨dispatchStep E sid w, batch, none⟩
  | flush {w w' fuel} : flushClientSend E fuel w = some w' →
      PollStep E ok ⟨⟨w, .idle⟩, some [], none⟩ ⟨⟨w', .idle⟩, none, none⟩
  | startGameSession {w batch session} : PollStep E ok ⟨⟨w, .idle⟩, batch, session⟩
      ⟨⟨w.onStartGameSession E, .idle⟩, batch, session⟩
  | processTerminate {w batch session} : PollStep E ok ⟨⟨w, .idle⟩, batch, session⟩
      ⟨⟨w.onProcessTerminate E, .idle⟩, batch, session⟩
  | outside {w e batch session} : E.evolves w.env e → PollStep E ok ⟨⟨w, .idle⟩, batch, session⟩
      ⟨⟨{ w with env := e }, .idle⟩, batch, session⟩

/-- The states of EventLoop whose lookups so far satisfied `ok`. -/
inductive Polled (E : Env ε) (ok : Server ε → Socket → Prop) : Polling ε → Prop where
  | init {w} : Initial E w → Polled E ok ⟨⟨w, .idle⟩, none, none⟩
  | step {p p'} : Polled E ok p → p.config.server.fault = none → PollStep E ok p p' →
      Polled E ok p'

/-- The client list is sound, and so is the session that `OnReceive` is called on next. -/
structure Polling.Sound (p : Polling ε) : Prop where
  table : p.config.server.TableSound
  session : ∀ sock session, p.session = some (sock, session) →
    ∃ sid, session = some sid ∧ p.config.server.Owns sid sock

namespace Server

variable {E : Env ε}

theorem Owns.of_eq {w w' : Server ε} {sid : SessionId} {sock : Socket} (h : w.Owns sid sock)
    (ha : w'.allocated = w.allocated)
    (hc : (w'.sessions sid).mConnected = (w.sessions sid).mConnected)
    (hs : (w'.sessions sid).mSocket = (w.sessions sid).mSocket) : w'.Owns sid sock :=
  ⟨ha ▸ h.allocated, hc.trans h.connected, hs.trans h.socket⟩

theorem TableSound.of_eq {w w' : Server ε} (h : w.TableSound) (ha : w'.allocated = w.allocated)
    (hl : w'.mClientList = w.mClientList)
    (hc : ∀ s, (w'.sessions s).mConnected = (w.sessions s).mConnected)
    (hs : ∀ s, (w'.sessions s).mSocket = (w.sessions s).mSocket) : w'.TableSound := by
  intro k hk
  rw [hl] at hk ⊢
  obtain ⟨sid, hv, hown⟩ := h k hk
  exact ⟨sid, hv, hown.of_eq ha (hc sid) (hs sid)⟩

theorem TableSound.closed {w : Server ε} (h : w.TableSound) (sid : SessionId)
    (m : GameLiftManager) (e : ε) : (w.closed sid m e).TableSound := by
  intro k hk
  obtain ⟨hne, hk⟩ := Finset.mem_erase.mp hk
  obtain ⟨s, hv, hown⟩ := h k hk
  have hs : s ≠ sid := by
    rintro rfl
    exact hne hown.socket.symm
  refine ⟨s, hv, hown.allocated, ?_, ?_⟩
  · rw [closed_connected, if_neg hs]
    exact hown.connected
  · rw [closed_socket]
    exact hown.socket

theorem TableSound.created {w : Server ε} (h : w.TableSound) {sock : Socket} {sid : SessionId}
    (hlive : ∀ s, w.Live s → (w.sessions s).mSocket ≠ sock) (hfresh : sid ∉ w.allocated)
    (send recv : Block) : ((w.createClient sock sid send recv).onConnect sid).TableSound := by
  have hnew : sock ∉ w.mClientList.keys := by
    intro hin
    obtain ⟨s, hv, hown⟩ := h sock hin
    exact hlive s (Or.inr ⟨sock, hin, hv⟩) hown.socket
  intro k hk
  change k ∈ (w.mClientList.insert sock sid).keys at hk
  change ∃ s, (w.mClientList.insert sock sid).value k = some s ∧ _
  rw [ClientList.insert, if_neg hnew] at hk ⊢
  rcases Finset.mem_insert.mp hk with rfl | hk
  · refine ⟨sid, Function.update_self .., Finset.mem_insert_self .., ?_, ?_⟩
    · rw [created_sessions, if_pos rfl]
    · rw [created_sessions, if_pos rfl]
  · have hne : k ≠ sock := fun he => hnew (he ▸ hk)
    obtain ⟨s, hv, hown⟩ := h k hk
    have hs : s ≠ sid := fun he => hfresh (he ▸ hown.allocated)
    refine ⟨s, (Function.update_of_ne hne ..).trans hv, Finset.mem_insert_of_mem hown.allocated,
      ?_, ?_⟩
    · rw [created_sessions, if_neg hs]
      exact hown.connected
    · rw [created_sessions, if_neg hs]
      exact hown.socket

theorem upheld_tableSound :
    Upheld E (fun _ => True) (fun w : Server ε => w.fault = none → w.TableSound) where
  stable := by
    refine .of_closed ?_ ?_ ?_
    · intro w w' hq h hf
      exact (h (hq.fault hf)).of_eq hq.allocated hq.clients hq.connected hq.socket
    · intro w sid _ _ h hf
      exact (h hf).closed sid _ _
    · intro w sid _ _ h hf
      exact (h hf).closed sid _ _
  receive := by
    intro w sid b h hf
    exact (h hf).of_eq rfl rfl (fun s => setRecv_connected ..) fun s => setRecv_socket ..
  lookup := by
    intro w sock _ h
    rcases startReceive_cases w sock with ⟨sid, -, -, he⟩ | ⟨f, he⟩ | ⟨-, he⟩ <;> rw [he]
    · exact h
    · exact fun hf => absurd hf (raise_fault w f)
    · exact fun hf => absurd hf (raise_fault _ _)
  create hf hfresh hlive h _ := (h hf).created hlive hfresh _ _
  accepted := by
    intro w sid id b _ _ _ h _ hf
    refine (h hf).of_eq rfl rfl (fun s => ?_) fun s => ?_
    · rw [setId_connected]
      exact setRecv_connected ..
    · rw [setId_socket]
      exact setRecv_socket ..
  rejected := by
    intro w sid id b _ _ _ h _ hf
    exact (h hf).of_eq rfl rfl (fun s => setRecv_connected ..) fun s => setRecv_socket ..
  removed := by
    intro w sid id b _ _ _ h hf
    refine (h hf).of_eq rfl rfl (fun s => ?_) fun s => ?_
    · rw [setId_connected]
      exact setRecv_connected ..
    · rw [setId_socket]
      exact setRecv_socket ..
  started h hf := (h hf).of_eq rfl rfl (fun _ => rfl) fun _ => rfl
  terminated h hf := (h hf).of_eq rfl rfl (fun _ => rfl) fun _ => rfl
  outside _ h hf := (h hf).of_eq rfl rfl (fun _ => rfl) fun _ => rfl

end Server

def Hits (w : Server ε) (sock : Socket) : Prop := sock ∈ w.mClientList.keys

/-- Without a miss the machine is at a state of the server, and a session that was
looked up is still the entry of its socket. -/
structure Polling.Held (E : Env ε) (p : Polling ε) : Prop where
  reachable : Reachable E (fun _ _ => True) p.config
  session : ∀ sock session, p.session = some (sock, session) →
    sock ∈ p.config.server.mClientList.keys ∧ p.config.server.mClientList.value sock = session

section
variable {E : Env ε}

theorem ClientList.subscript_mem {l : ClientList} {sock : Socket} (h : sock ∈ l.keys) :
    l.subscript sock = (l.value sock, l) := if_pos h

theorem ClientList.subscript_missing {l : ClientList} {sock : Socket} (h : sock ∉ l.keys) :
    l.subscript sock = (none, ⟨Insert.insert sock l.keys, Function.update l.value sock none⟩) := if_neg h

theorem PollStep.held {p p' : Polling ε} (hs : PollStep E Hits p p') (h : p.Held E)
    (hf : p.config.server.fault = none) : p'.Held E := by
  have hnone : ∀ c batch, Reachable E (fun _ _ => True) c → Polling.Held E ⟨c, batch, none⟩ := by
    intro c batch hc
    refine ⟨hc, fun sock session he => ?_⟩
    cases he
  have hstep : ∀ c, Step E p.config c → Reachable E (fun _ _ => True) c := fun c hc =>
    h.reachable.step hf hc trivial
  cases hs with
  | wait _ _ => exact hnone _ _ h.reachable
  | accept hfresh hlive hsend hrecv =>
    exact hnone _ _ (hstep _ (.accept hfresh hlive hsend hrecv))
  | acceptError => exact hnone _ _ h.reachable
  | @lookup w sock rest hin =>
    have heq : w.lookup sock rest = ⟨⟨w, .idle⟩, some rest, some (sock, w.mClientList.value sock)⟩ := by
      rw [Server.lookup, ClientList.subscript_mem hin]
    rw [heq]
    refine ⟨h.reachable, fun k session he => ?_⟩
    cases he
    exact ⟨hin, rfl⟩
  | @call w batch sock session =>
    obtain ⟨hin, hv⟩ := h.session sock session rfl
    have heq : w.startReceive sock = w.callReceive session := by
      rw [startReceive_eq w sock [], Server.lookup, ClientList.subscript_mem hin, hv]
    have hready : Step E ⟨w, .idle⟩ (w.startReceive sock) := .readable
    rw [heq] at hready
    exact hnone _ _ (hstep _ hready)
  | receive => exact hnone _ _ (hstep _ .receive)
  | dispatch => exact hnone _ _ (hstep _ .dispatch)
  | flush hflush => exact hnone _ _ (hstep _ (.flush hflush))
  | startGameSession => exact ⟨hstep _ .startGameSession, h.session⟩
  | processTerminate => exact ⟨hstep _ .processTerminate, h.session⟩
  | outside he => exact ⟨hstep _ (.outside he), h.session⟩

theorem Polled.held {p : Polling ε} (h : Polled E Hits p) : p.Held E := by
  induction h with
  | init hi =>
    refine ⟨.init hi, fun sock session he => ?_⟩
    cases he
  | step _ hf hs ih => exact hs.held ih hf

theorem Polled.tableSound {p : Polling ε} (h : Polled E Hits p)
    (hf : p.config.server.fault = none) : p.config.server.TableSound := by
  refine h.held.reachable.invariant upheld_tableSound (fun w hw _ => ?_) (fun _ _ _ => trivial) hf
  intro k hk
  rw [hw.clients] at hk
  exact absurd hk (Finset.notMem_empty k)

theorem Polled.sound {p : Polling ε} (h : Polled E Hits p)
    (hf : p.config.server.fault = none) : p.Sound := by
  refine ⟨h.tableSound hf, fun sock session he => ?_⟩
  obtain ⟨hin, hv⟩ := h.held.session sock session he
  obtain ⟨sid, hsid, hown⟩ := h.tableSound hf sock hin
  exact ⟨sid, hv.symm.trans hsid, hown⟩

end

theorem congested_remove (m : GameLiftManager) (psess : SessionId) (id : PlayerId)
    (e : List ReadResult) : (m.removePlayerSession congested.toSdk psess id e).2 = e := by
  have hcheck : ∀ m : GameLiftManager, (m.checkTerminateGameSession congested.toSdk e).2 = e := by
    intro m
    rw [GameLiftManager.checkTerminateGameSession]
    split_ifs
    · rfl
    · rfl
  exact hcheck _

theorem congested_send {w : Server (List ReadResult)} {sid : SessionId}
    (hc : (w.sessions sid).mConnected = true) (hinv : (w.sessions sid).mSendBuffer.Inv) :
    ∃ r, w.sendFlush congested 1 sid = some (r, w) ∧ r.answer = true := by
  rw [sendFlush, if_pos hc]
  split_ifs with hz
  · exact ⟨.drained, rfl, rfl⟩
  · have hwin := hinv.window_eq
    rw [CircularBuffer.window, if_pos (Nat.pos_of_ne_zero hz)] at hwin
    refine ⟨.again, ?_, rfl⟩
    rw [Loop.loop_of_done]
    rw [sendBody, if_pos (Nat.pos_of_ne_zero hz), hwin]
    rfl

theorem congested_flush {w : Server (List ReadResult)}
    (h : ∀ k ∈ w.mClientList.keys, ∃ sid, w.mClientList.value k = some sid ∧
      (w.sessions sid).mConnected = true ∧ (w.sessions sid).mSendBuffer.Inv) :
    flushClientSend congested 1 w = some w := by
  have hone : ∀ k ∈ w.mClientList.keys, flushClient congested 1 w k = some w := by
    intro k hk
    obtain ⟨sid, hv, hc, hinv⟩ := h k hk
    obtain ⟨r, hr, ha⟩ := congested_send hc hinv
    simp only [flushClient, hv, hr, Option.bind_eq_bind, Option.bind_some, ha, if_true, if_pos hk]
    rfl
  have hall : ∀ keys : List Socket, (∀ k ∈ keys, k ∈ w.mClientList.keys) →
      keys.foldlM (flushClient congested 1) w = some w := by
    intro keys
    induction keys with
    | nil => exact fun _ => rfl
    | cons k keys ih =>
      intro hin
      rw [List.foldlM_cons, hone k (hin k List.mem_cons_self), Option.bind_eq_bind,
        Option.bind_some]
      exact ih fun k' hk' => hin k' (List.mem_cons_of_mem _ hk')
  exact hall _ fun k hk => (Finset.mem_sort _).mp hk

namespace Party

variable {w : Server (List ReadResult)} {script : List ReadResult} {n : Nat}

theorem flush (h : Party w script n) : flushClientSend congested 1 w = some w := by
  refine congested_flush fun k hk => ?_
  rw [h.keys, Finset.mem_insert, Finset.mem_singleton] at hk
  rcases hk with rfl | rfl
  · exact ⟨0, h.player, h.connected 0 (by decide), h.send 0 (by decide)⟩
  · exact ⟨1, h.stranger, h.connected 1 (by decide), h.send 1 (by decide)⟩

end Party

namespace Flood

variable {w : Server (List ReadResult)} {script : List ReadResult} {n k : Nat}

/-- The first packet that does not fit disconnects the player, whom the service
does not remove from the game. -/
theorem refused (h : Flood w script n (k + 1)) (hfull : bufSize < n + 260) :
    ∃ w', dispatchStep congested 1 w = ⟨w', .dispatching 1⟩ ∧ w'.env = script ∧
      w'.fault = none ∧ w'.mClientList.keys = {6} ∧ (w'.sessions 1).mRecvBuffer.Inv ∧
      (w'.sessions 1).mRecvBuffer.contents =
        Framing.stream ClientPacket.toBytes (List.replicate k chatRequest) := by
  obtain ⟨b, hv, hstep⟩ := h.chat
  have hinv := hv.party.send 0 (by decide)
  have hfree := hinv.room_at_start hv.party.front
  rw [hv.party.waiting, hv.party.sendSize] at hfree
  have hwrite := hinv.write_refused chatReply
    (show ((w.setRecv 1 b).sessions 0).mSendBuffer.freeSpace < 260 by omega)
  rw [← chatReply_size] at hwrite
  have hsend := sendRequest_refused (E := congested) (hv.party.connected 0 (by decide)) hwrite
  obtain ⟨u, hu⟩ : ∃ u, u = (w.setRecv 1 b).modify 0 fun s => { s with
    mSendBuffer := ((w.setRecv 1 b).sessions 0).mSendBuffer.prepare } := ⟨_, rfl⟩
  have hconn : (u.sessions 0).mConnected = true := by
    rw [hu, modify_sessions, if_pos rfl]
    exact hv.party.connected 0 (by decide)
  have hid : (u.sessions 0).mPlayerSessionId ≠ [] := by
    rw [hu, modify_sessions, if_pos rfl]
    exact hv.id
  rw [← hu, disconnect_removed hconn rfl hid] at hsend
  obtain ⟨-, -, hmembers⟩ := GameLiftManager.removePlayerSession_counts (S := congested.toSdk) 0
    (u.sessions 0).mPlayerSessionId u.gameLift
    (congested.setLinger (u.sessions 0).mSocket u.env).2
  have henv : (u.gameLift.removePlayerSession congested.toSdk 0 (u.sessions 0).mPlayerSessionId
      (congested.setLinger (u.sessions 0).mSocket u.env).2).2 = script := by
    rw [congested_remove, hu]
    exact hv.party.env
  generalize u.gameLift.removePlayerSession congested.toSdk 0 (u.sessions 0).mPlayerSessionId
    (congested.setLinger (u.sessions 0).mSocket u.env).2 = r at hsend hmembers henv
  have hin : 0 ∈ (u.closed 0 r.1 r.2).gameLift.mPlayerSessions := by
    change 0 ∈ r.1.mPlayerSessions
    rw [hmembers, hu]
    change 0 ∈ w.gameLift.mPlayerSessions
    rw [h.members]
    exact Finset.mem_singleton_self 0
  have hgone : ((u.closed 0 r.1 r.2).sessions 0).mConnected = false := by
    rw [closed_connected, if_pos rfl]
  have hto : (w.setRecv 1 b).broadcastMessage congested chatReply = u.closed 0 r.1 r.2 := by
    rw [hv.broadcast, broadcastTo, hsend]
    simp only [Bool.false_eq_true, if_false, disconnect_gone hgone]
    exact if_pos hin
  rw [hto] at hstep
  refine ⟨_, hstep, henv, ?_, ?_, ?_, ?_⟩
  · rw [hu]
    exact h.party.fault
  · change u.mClientList.keys.erase (u.sessions 0).mSocket = {6}
    have hsock : (u.sessions 0).mSocket = 5 := by
      rw [hu, modify_sessions, if_pos rfl]
      exact hv.party.socket
    have hkeys : u.mClientList.keys = {5, 6} := by
      rw [hu]
      exact h.party.keys
    rw [hsock, hkeys]
    decide
  · rw [hu]
    simpa [closed] using hv.recv
  · rw [hu]
    simpa [closed] using hv.contents

end Flood

namespace Polled

variable {ok : Server (List ReadResult) → Socket → Prop}

theorem connects {w : Server (List ReadResult)} (h : Polled congested ok ⟨⟨w, .idle⟩, none, none⟩)
    (hf : w.fault = none) {sock : Socket} {sid : SessionId} (hfresh : sid ∉ w.allocated)
    (hlive : ∀ s, w.Live s → (w.sessions s).mSocket ≠ sock)
    (hflush : flushClientSend congested 1
      ((w.createClient sock sid zeroBlock zeroBlock).onConnect sid) =
        some ((w.createClient sock sid zeroBlock zeroBlock).onConnect sid)) :
    Polled congested ok
      ⟨⟨(w.createClient sock sid zeroBlock zeroBlock).onConnect sid, .idle⟩, none, none⟩ := by
  have hwait := h.step hf (.wait (List.nodup_singleton Ready.listen) (by simp))
  have haccept := hwait.step hf (.accept hfresh hlive zeroBlock_length zeroBlock_length)
  exact haccept.step hf (.flush hflush)

theorem visits {w : Server (List ReadResult)} {sock : Socket} {sid : SessionId}
    {rest : List Ready}
    (h : Polled congested ok ⟨⟨w, .idle⟩, some (.client sock :: rest), none⟩)
    (hf : w.fault = none) (hok : ok w sock) (hin : sock ∈ w.mClientList.keys)
    (hv : w.mClientList.value sock = some sid) (hc : (w.sessions sid).mConnected = true) :
    Polled congested ok ⟨⟨w, .receiving sid⟩, some rest, none⟩ := by
  have hlook := h.step hf (.lookup hok)
  rw [Server.lookup, ClientList.subscript_mem hin, hv] at hlook
  have hcall := hlook.step hf .call
  rw [callReceive] at hcall
  simp only [hc, if_true] at hcall
  exact hcall

theorem misses {w : Server (List ReadResult)} {sock : Socket} {rest : List Ready}
    (h : Polled congested (fun _ _ => True) ⟨⟨w, .idle⟩, some (.client sock :: rest), none⟩)
    (hf : w.fault = none) (hout : sock ∉ w.mClientList.keys) :
    ∃ p, Polled congested (fun _ _ => True) p ∧ p.config.server.fault = none ∧
      p.session = some (sock, none) ∧ p.config.server.mClientList.value sock = none ∧
      ¬p.config.server.TableSound := by
  have hlook := h.step hf (.lookup trivial)
  rw [Server.lookup, ClientList.subscript_missing hout] at hlook
  have hnull : Function.update w.mClientList.value sock none sock = none :=
    Function.update_self ..
  refine ⟨_, hlook, hf, rfl, hnull, fun hsound => ?_⟩
  obtain ⟨sid, hv, -⟩ := hsound sock (Finset.mem_insert_self ..)
  cases hnull.symm.trans hv

theorem gathers (script : List ReadResult) :
    Polled congested ok ⟨⟨gathered script, .idle⟩, none, none⟩ := by
  have hinit : Polled congested ok ⟨⟨opened script, .idle⟩, none, none⟩ :=
    .init ⟨trivial, rfl, rfl, rfl, fun _ => rfl, fun _ => rfl, rfl⟩
  have hnew := CircularBuffer.inv_new zeroBlock
  obtain ⟨hfresh, hlive⟩ := stranger_new script
  have hplayer : Polled congested ok
      ⟨⟨((opened script).createClient 5 0 zeroBlock zeroBlock).onConnect 0, .idle⟩, none, none⟩ := by
    refine hinit.connects rfl (Finset.notMem_empty 0)
      (fun s hs => absurd hs (opened_live script s)) (congested_flush fun k hk => ?_)
    change k ∈ ({5} : Finset Socket) at hk
    rw [Finset.mem_singleton] at hk
    subst hk
    exact ⟨0, rfl, rfl, hnew⟩
  exact hplayer.connects rfl hfresh hlive (gathered_party script).flush

end Polled

/-- A login of the player; then 39 chat requests of the stranger in one read. -/
def flooded : List ReadResult :=
  [.data (loginRequest 1).toBytes, .eagain,
    .data (Framing.stream ClientPacket.toBytes (List.replicate 39 chatRequest))]

theorem Party.takes {ok : Server (List ReadResult) → Socket → Prop}
    {w : Server (List ReadResult)} {script : List ReadResult} {n : Nat} (hw : Party w script n)
    (batch : List Ready) (hnodup : batch.Nodup) (hsub : batch ⊆ [.client 6, .client 5])
    (hp : Polled congested ok ⟨⟨w, .idle⟩, none, none⟩) :
    Polled congested ok ⟨⟨w, .idle⟩, some batch, none⟩ := by
  refine hp.step hw.fault (.wait hnodup fun sock hsock => ?_)
  have hmem := hsub hsock
  simp only [List.mem_cons, Ready.client.injEq, List.not_mem_nil, or_false] at hmem
  rw [hw.keys]
  rcases hmem with rfl | rfl <;> decide

theorem Polled.inside {ok : Server (List ReadResult) → Socket → Prop}
    {batch : Option (List Ready)} {c c' : Config (List ReadResult)}
    (h : Relation.ReflTransGen (Inside congested) c c') (hp : Polled congested ok ⟨c, batch, none⟩) :
    Polled congested ok ⟨c', batch, none⟩ := by
  induction h with
  | refl => exact hp
  | tail _ hs ih =>
    cases hs with
    | receive hf he => exact ih.step hf (he ▸ .receive)
    | dispatch hf he => exact ih.step hf (he ▸ .dispatch)

theorem flooded_seated {ok : Server (List ReadResult) → Socket → Prop}
    (hok : ∀ w sock, Hits w sock → ok w sock) :
    ∃ w, Polled congested ok ⟨⟨w, .idle⟩, none, none⟩ ∧
      Seated w [.data (Framing.stream ClientPacket.toBytes (List.replicate 39 chatRequest))] := by
  have hparty := gathered_party flooded
  obtain ⟨w, hinside, hw⟩ := congested_scripted.seats
    [.data (Framing.stream ClientPacket.toBytes (List.replicate 39 chatRequest))]
  have hin : 5 ∈ (gathered flooded).mClientList.keys := by simp [hparty.keys]
  have hp := (hparty.takes [.client 5] (List.nodup_singleton _) (by simp) (.gathers flooded)).visits
    hparty.fault (hok _ _ hin) hin hparty.player (hparty.connected 0 (by decide))
  exact ⟨w, (hp.inside hinside).step hw.party.fault (.flush hw.party.flush), hw⟩

/-- While every lookup finds an entry, the client list is sound in every state and
`OnReceive` is called on a connected session that owns the socket; the next event
keeps it so exactly when its socket is still in the list. -/
theorem clientTable_iff (E : Env ε) :
    (∀ p, Polled E Hits p → p.config.server.fault = none → p.Sound) ∧
    ∀ w sock rest, Polled E Hits ⟨⟨w, .idle⟩, some (.client sock :: rest), none⟩ →
      w.fault = none → ((w.lookup sock rest).Sound ↔ Hits w sock) := by
  refine ⟨fun p hp hf => hp.sound hf, fun w sock rest hp hf => ⟨fun hs => ?_, fun hin => ?_⟩⟩
  · by_contra hout
    obtain ⟨sid, hv, -⟩ := hs.session sock _ rfl
    rw [ClientList.subscript_missing hout] at hv
    cases hv
  · have hnext : PollStep E Hits ⟨⟨w, .idle⟩, some (.client sock :: rest), none⟩
      (w.lookup sock rest) := .lookup hin
    refine (hp.step hf hnext).sound ?_
    exact hf

/-- The player has logged in, and both sockets are ready. -/
theorem clientTable_seated :
    ∃ w, Polled congested Hits ⟨⟨w, .idle⟩, some [.client 6, .client 5], none⟩ ∧
      w.TableSound ∧ (w.lookup 6 [.client 5]).Sound := by
  obtain ⟨w, hp, hw⟩ := flooded_seated fun _ _ h => h
  have hbatch := hw.party.takes [.client 6, .client 5] (by decide) (by simp) hp
  obtain ⟨hsound, hnext⟩ := clientTable_iff congested
  refine ⟨w, hbatch, (hsound _ hbatch hw.party.fault).table, ?_⟩
  refine (hnext w 6 [.client 5] hbatch hw.party.fault).mpr ?_
  rw [Hits, hw.party.keys]
  decide

/-- The stranger's chats fill the player's send buffer, which disconnects the
player; its own event in the same batch then gets a null pointer. -/
theorem clientTable_broken :
    ∃ p, Polled congested (fun _ _ => True) p ∧ p.config.server.fault = none ∧
      p.session = some (5, none) ∧ p.config.server.mClientList.value 5 = none ∧
      ¬p.config.server.TableSound := by
  obtain ⟨w, hp, hw⟩ := flooded_seated fun _ _ _ => trivial
  have hp := (hw.party.takes [.client 6, .client 5] (by decide) (by simp) hp).visits hw.party.fault
    trivial (by simp [hw.party.keys]) hw.party.stranger (hw.party.connected 1 (by decide))
  obtain ⟨_, hread, hspoken⟩ := hw.reads congested_scripted (chats_length (Nat.le_refl 39))
  obtain ⟨v, hrun, hv⟩ := Flood.run (E := congested) (k := 1) 38 hspoken.flood (by decide)
  have hp := (hp.inside (.single hread)).inside hrun
  obtain ⟨u, hstep, henv, hf, hkeys, hinv, hcont⟩ := hv.refused (by decide)
  have hp := hp.step hv.party.fault .dispatch
  rw [hstep] at hp
  have hp := hp.step hf .dispatch
  rw [dispatchStep_waits hinv (congrArg frameOf hcont)] at hp
  have hp := hp.step hf .receive
  rw [congested_scripted.eagain (Or.inr ⟨henv, rfl⟩)] at hp
  have hout : 5 ∉ u.mClientList.keys := by
    rw [hkeys]
    decide
  exact hp.misses hf hout

end GameLift
