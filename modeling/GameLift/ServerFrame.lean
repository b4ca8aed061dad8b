import GameLift.LinuxServer

/-! What the server's functions leave alone. Everything they do to a session's
standing goes through `disconnect`, a login or a logout; the rest is quiet. -/

namespace GameLift

namespace Server

variable {ε : Type} {E : Env ε}

inductive KernelStep (E : Env ε) : ε → ε → Prop where
  | setLinger {e sock} : KernelStep E e (E.setLinger sock e).2
  | read {e sock len} : KernelStep E e (E.read sock len e).2
  | write {e sock data} : KernelStep E e (E.write sock data e).2

/-- Only send buffers, accepted bytes, the fault record and the kernel changed. -/
structure Quiet (E : Env ε) (w w' : Server ε) : Prop where
  env : Relation.ReflTransGen (KernelStep E) w.env w'.env
  gameLift : w'.gameLift = w.gameLift
  allocated : w'.allocated = w.allocated
  clients : w'.mClientList = w.mClientList
  id : ∀ s, (w'.sessions s).mPlayerSessionId = (w.sessions s).mPlayerSessionId
  connected : ∀ s, (w'.sessions s).mConnected = (w.sessions s).mConnected
  socket : ∀ s, (w'.sessions s).mSocket = (w.sessions s).mSocket
  recv : ∀ s, (w'.sessions s).mRecvBuffer = (w.sessions s).mRecvBuffer
  fault : w'.fault = none → w.fault = none

theorem Quiet.refl (w : Server ε) : Quiet E w w :=
  ⟨.refl, rfl, rfl, rfl, fun _ => rfl, fun _ => rfl, fun _ => rfl, fun _ => rfl, fun h => h⟩

theorem Quiet.trans {w w' w'' : Server ε} (h : Quiet E w w') (h' : Quiet E w' w'') :
    Quiet E w w'' where
  env := h.env.trans h'.env
  gameLift := h'.gameLift.trans h.gameLift
  allocated := h'.allocated.trans h.allocated
  clients := h'.clients.trans h.clients
  id := fun s => (h'.id s).trans (h.id s)
  connected := fun s => (h'.connected s).trans (h.connected s)
  socket := fun s => (h'.socket s).trans (h.socket s)
  recv := fun s => (h'.recv s).trans (h.recv s)
  fault := h.fault ∘ h'.fault

theorem raise_fault (w : Server ε) (f : Fault) : (w.raise f).fault ≠ none := by
  unfold raise
  cases w.fault <;> simp

theorem quiet_raise (w : Server ε) (f : Fault) : Quiet E w (w.raise f) :=
  ⟨.refl, rfl, rfl, rfl, fun _ => rfl, fun _ => rfl, fun _ => rfl, fun _ => rfl,
    fun h => absurd h (raise_fault w f)⟩

theorem quiet_accept (w : Server ε) (sid : SessionId) (bytes : List Byte) :
    Quiet E w (w.accept sid bytes) :=
  ⟨.refl, rfl, rfl, rfl, fun _ => rfl, fun _ => rfl, fun _ => rfl, fun _ => rfl, fun h => h⟩

theorem quiet_env {w : Server ε} {e : ε} (h : KernelStep E w.env e) :
    Quiet E w { w with env := e } :=
  ⟨.single h, rfl, rfl, rfl, fun _ => rfl, fun _ => rfl, fun _ => rfl, fun _ => rfl, fun h => h⟩

theorem quiet_printOut (w : Server ε) (fmt : String) (arg : List Byte) :
    Quiet E w (w.printOut fmt arg) := by
  rw [printOut]
  split_ifs
  · exact .refl w
  · exact quiet_raise w _

@[simp] theorem modify_sessions (w : Server ε) (sid s : SessionId)
    (f : ClientSession → ClientSession) :
    (w.modify sid f).sessions s = if s = sid then f (w.sessions sid) else w.sessions s := by
  rw [modify]
  by_cases h : s = sid
  · subst h
    simp
  · simp [h]

theorem modify_keeps {α : Type} (w : Server ε) (sid s : SessionId) {f : ClientSession → ClientSession}
    {g : ClientSession → α} (hg : ∀ c, g (f c) = g c) :
    g ((w.modify sid f).sessions s) = g (w.sessions s) := by
  rw [modify_sessions]
  split_ifs with h
  · rw [h, hg]
  · rfl

theorem quiet_setSend (w : Server ε) (sid : SessionId) (b : CircularBuffer) :
    Quiet E w (w.modify sid fun s => { s with mSendBuffer := b }) := by
  refine ⟨.refl, rfl, rfl, rfl, ?_, ?_, ?_, ?_, fun h => h⟩ <;>
  · intro s
    exact modify_keeps w sid s fun _ => rfl

/-- The state after a completed `Disconnect` of `sid`. -/
def closed (w : Server ε) (sid : SessionId) (m : GameLiftManager) (e : ε) : Server ε :=
  { w with
    env := e
    gameLift := m
    sessions := Function.update w.sessions sid
      { w.sessions sid with mConnected := false, mPlayerSessionId := [] }
    mClientList := w.mClientList.erase (w.sessions sid).mSocket }

theorem disconnect_gone {w : Server ε} {sid : SessionId}
    (hc : (w.sessions sid).mConnected = false) : w.disconnect E sid = w := by
  simp [disconnect, hc]

theorem disconnect_plain {w : Server ε} {sid : SessionId}
    (hc : (w.sessions sid).mConnected = true)
    (hl : (E.setLinger (w.sessions sid).mSocket w.env).1 = true)
    (hid : (w.sessions sid).mPlayerSessionId = []) :
    w.disconnect E sid =
      w.closed sid w.gameLift (E.setLinger (w.sessions sid).mSocket w.env).2 := by
  simp [disconnect, hc, hl, onDisconnect, hid, deleteClient, closed, modify]

theorem disconnect_removed {w : Server ε} {sid : SessionId}
    (hc : (w.sessions sid).mConnected = true)
    (hl : (E.setLinger (w.sessions sid).mSocket w.env).1 = true)
    (hid : (w.sessions sid).mPlayerSessionId ≠ []) :
    w.disconnect E sid =
      w.closed sid (w.gameLift.removePlayerSession E.toSdk sid
        (w.sessions sid).mPlayerSessionId (E.setLinger (w.sessions sid).mSocket w.env).2).1
      (w.gameLift.removePlayerSession E.toSdk sid
        (w.sessions sid).mPlayerSessionId (E.setLinger (w.sessions sid).mSocket w.env).2).2 := by
  simp [disconnect, hc, hl, onDisconnect, hid, deleteClient, closed, modify, removePlayerSession]

/-- All that `Disconnect` can do: nothing, fail at the linger option, or close
the session, removing the player session it still had an id for. -/
theorem disconnect_cases (w : Server ε) (sid : SessionId) :
    ((w.sessions sid).mConnected = false ∧ w.disconnect E sid = w) ∨
    ((w.sessions sid).mConnected = true ∧
      w.disconnect E sid = { w with env := (E.setLinger (w.sessions sid).mSocket w.env).2 }) ∨
    ((w.sessions sid).mConnected = true ∧ (w.sessions sid).mPlayerSessionId = [] ∧
      w.disconnect E sid =
        w.closed sid w.gameLift (E.setLinger (w.sessions sid).mSocket w.env).2) ∨
    ((w.sessions sid).mConnected = true ∧ (w.sessions sid).mPlayerSessionId ≠ [] ∧
      w.disconnect E sid =
        w.closed sid (w.gameLift.removePlayerSession E.toSdk sid
          (w.sessions sid).mPlayerSessionId (E.setLinger (w.sessions sid).mSocket w.env).2).1
        (w.gameLift.removePlayerSession E.toSdk sid
          (w.sessions sid).mPlayerSessionId (E.setLinger (w.sessions sid).mSocket w.env).2).2) := by
  cases hc : (w.sessions sid).mConnected with
  | false => exact Or.inl ⟨rfl, disconnect_gone hc⟩
  | true =>
    right
    cases hl : (E.setLinger (w.sessions sid).mSocket w.env).1 with
    | false => exact Or.inl ⟨rfl, by simp [disconnect, hc, hl]⟩
    | true =>
      right
      by_cases hid : (w.sessions sid).mPlayerSessionId = []
      · exact Or.inl ⟨rfl, hid, disconnect_plain hc hl hid⟩
      · exact Or.inr ⟨rfl, hid, disconnect_removed hc hl hid⟩

/-- A property that quiet changes and disconnects keep. -/
structure Stable (E : Env ε) (I : Server ε → Prop) : Prop where
  quiet : ∀ {w w'}, Quiet E w w' → I w → I w'
  disconnect : ∀ {w sid}, I w → I (w.disconnect E sid)

theorem sendRequest_gone {w : Server ε} {sid : SessionId} {pkt : List Byte}
    (hc : (w.sessions sid).mConnected = false) : w.sendRequest E sid pkt = (false, w) := by
  simp [sendRequest, hc]

theorem sendRequest_accepted {w : Server ε} {sid : SessionId} {pkt : List Byte} {b : CircularBuffer}
    (hc : (w.sessions sid).mConnected = true)
    (hb : (w.sessions sid).mSendBuffer.write pkt (sizeT (PacketHeader.ofBytes pkt).mSize) =
      .ok (true, b)) :
    w.sendRequest E sid pkt = (true, w.modify sid fun s => { s with mSendBuffer := b }) := by
  simp [sendRequest, hc, hb]

theorem sendRequest_refused {w : Server ε} {sid : SessionId} {pkt : List Byte} {b : CircularBuffer}
    (hc : (w.sessions sid).mConnected = true)
    (hb : (w.sessions sid).mSendBuffer.write pkt (sizeT (PacketHeader.ofBytes pkt).mSize) =
      .ok (false, b)) :
    w.sendRequest E sid pkt =
      (false, (w.modify sid fun s => { s with mSendBuffer := b }).disconnect E sid) := by
  simp [sendRequest, hc, hb]

theorem broadcastMessage_nobody {w : Server ε} (h : w.gameLift.mPlayerSessions = ∅)
    (pkt : List Byte) : w.broadcastMessage E pkt = w := by
  simp [Server.broadcastMessage, h]

theorem sendBody_quiet (w : Server ε) (sid : SessionId) :
    (sendBody E sid w).Holds (Quiet E w) fun p => Quiet E w p.2 := by
  rw [sendBody]
  dsimp only
  split_ifs
  · cases hd : (w.sessions sid).mSendBuffer.loadAt (w.sessions sid).mSendBuffer.getBufferStart
        (w.sessions sid).mSendBuffer.getContiguiousBytes with
    | error f => exact quiet_raise w f
    | ok data =>
      have hk : Quiet E w { w with env := (E.write (w.sessions sid).mSocket data w.env).2 } :=
        quiet_env .write
      dsimp only
      cases hr : (E.write (w.sessions sid).mSocket data w.env).1 with
      | eagain => exact hk
      | error => exact hk
      | sent n =>
        have ha := hk.trans (quiet_accept (E := E) _ sid (data.take n))
        dsimp only
        cases hb : (w.sessions sid).mSendBuffer.remove n with
        | error f => exact ha.trans (quiet_raise _ f)
        | ok b => exact ha.trans (quiet_setSend _ sid b)
  · exact .refl w

theorem sendFlush_quiet {w w' : Server ε} {fuel : Nat} {sid : SessionId} {r : FlushEnd}
    (h : w.sendFlush E fuel sid = some (r, w')) : Quiet E w w' := by
  rw [sendFlush] at h
  split_ifs at h
  · simp only [Option.some.injEq, Prod.mk.injEq] at h
    exact h.2 ▸ .refl w
  · have hret : Loop.Returns (sendBody E sid) w (r, w') := ⟨fuel, h⟩
    exact hret.invariant (Quiet E w) (fun p => Quiet E w p.2) (.refl w) fun v hv =>
      (sendBody_quiet v sid).imp (fun _ => hv.trans) fun _ => hv.trans
  · simp only [Option.some.injEq, Prod.mk.injEq] at h
    exact h.2 ▸ .refl w

/-- The service's answer to a login is taken down; a refusal is not logged yet. -/
def answered (E : Env ε) (w : Server ε) (sid : SessionId) (id : PlayerId) : Server ε :=
  { w with
    gameLift := { w.gameLift with
      issued := .acceptPlayerSession sid id (E.acceptPlayerSession id w.env).1 :: w.gameLift.issued
      mAcceptedCount := w.gameLift.mAcceptedCount +
        if (E.acceptPlayerSession id w.env).1 then 1 else 0
      mPlayerSessions := if (E.acceptPlayerSession id w.env).1
        then insert sid w.gameLift.mPlayerSessions else w.gameLift.mPlayerSessions }
    env := (E.acceptPlayerSession id w.env).2 }

theorem acceptPlayerSession_eq (w : Server ε) (sid : SessionId) (id : PlayerId) :
    w.acceptPlayerSession E sid id = ((E.acceptPlayerSession id w.env).1,
      if (E.acceptPlayerSession id w.env).1 then w.answered E sid id
      else (w.answered E sid id).printOut "[GAMELIFT] AcceptPlayerSession Fail: %s\n"
        (E.acceptErrorMessage id w.env)) := by
  rw [acceptPlayerSession, GameLiftManager.acceptPlayerSession_cases]
  dsimp only [answered]
  cases (E.acceptPlayerSession id w.env).1 <;> simp

theorem printOut_refusalLine (w : Server ε) (message : List Byte) :
    w.printOut "[GAMELIFT] AcceptPlayerSession Fail: %s\n" message =
      if 38 + message.length < 128 then w else w.raise .outOfBounds := by
  have hfmt : "[GAMELIFT] AcceptPlayerSession Fail: %s\n".length = 40 := by decide +kernel
  rw [printOut, hfmt]

theorem playerLogin_accepted {w : Server ε} {sid : SessionId} {id : PlayerId}
    (hok : (E.acceptPlayerSession id w.env).1 = true) :
    w.playerLogin E sid id = (w.answered E sid id).welcome E sid id := by
  simp only [playerLogin, acceptPlayerSession_eq, hok, if_true]

theorem playerLogin_refused {w : Server ε} {sid : SessionId} {id : PlayerId}
    (hok : (E.acceptPlayerSession id w.env).1 = false) :
    w.playerLogin E sid id = ((w.answered E sid id).printOut
      "[GAMELIFT] AcceptPlayerSession Fail: %s\n" (E.acceptErrorMessage id w.env)).disconnect
        E sid := by
  simp only [playerLogin, acceptPlayerSession_eq, hok, Bool.false_eq_true, if_false]

/-- A property that queued packets and disconnects keep. -/
structure Carried (E : Env ε) (I : Server ε → Prop) : Prop where
  raise : ∀ {w f}, I w → I (w.raise f)
  queue : ∀ {w sid pkt n ok b}, (w.sessions sid).mSendBuffer.write pkt n = .ok (ok, b) → I w →
    I (w.modify sid fun s => { s with mSendBuffer := b })
  disconnect : ∀ {w sid}, I w → I (w.disconnect E sid)

theorem Stable.carried {I : Server ε → Prop} (h : Stable E I) : Carried E I where
  raise := h.quiet (quiet_raise _ _)
  queue _ := h.quiet (quiet_setSend _ _ _)
  disconnect := h.disconnect

namespace Carried

variable {I : Server ε → Prop}

theorem printOut (h : Carried E I) {w : Server ε} (fmt : String) (arg : List Byte) (hw : I w) :
    I (w.printOut fmt arg) := by
  rw [Server.printOut]
  split_ifs
  · exact hw
  · exact h.raise hw

theorem sendRequest (h : Carried E I) {w : Server ε} (sid : SessionId) (pkt : List Byte)
    (hw : I w) : I (w.sendRequest E sid pkt).2 := by
  cases hc : (w.sessions sid).mConnected with
  | false => simpa [Server.sendRequest, hc] using hw
  | true =>
    cases hb : (w.sessions sid).mSendBuffer.write pkt
        (sizeT (PacketHeader.ofBytes pkt).mSize) with
    | error f => simpa [Server.sendRequest, hc, hb] using h.raise hw
    | ok r =>
      obtain ⟨ok, b⟩ := r
      have hq := h.queue hb hw
      cases ok
      · rw [sendRequest_refused hc hb]
        exact h.disconnect hq
      · rw [sendRequest_accepted hc hb]
        exact hq

theorem broadcastTo (h : Carried E I) {w : Server ε} (pkt : List Byte) (sid : SessionId)
    (hw : I w) : I (w.broadcastTo E pkt sid) := by
  have hraise : ∀ v : Server ε, I v →
      I (if sid ∈ v.gameLift.mPlayerSessions then v else v.raise .danglingIterator) := by
    intro v hv
    split_ifs
    · exact hv
    · exact h.raise hv
  have hsend := h.sendRequest sid pkt hw
  rw [Server.broadcastTo]
  cases hs : w.sendRequest E sid pkt with
  | mk ok v =>
    rw [hs] at hsend
    cases ok
    · exact hraise _ (h.disconnect hsend)
    · exact hraise _ hsend

theorem broadcastMessage (h : Carried E I) {w : Server ε} (pkt : List Byte) (hw : I w) :
    I (w.broadcastMessage E pkt) := by
  rw [Server.broadcastMessage]
  generalize w.gameLift.mPlayerSessions.sort (· ≤ ·) = members
  induction members generalizing w with
  | nil => exact hw
  | cons sid members ih => exact ih (h.broadcastTo pkt sid hw)

theorem welcome (h : Carried E I) {w : Server ε} {sid : SessionId} {id : PlayerId}
    (hw : I (w.modify sid fun s => { s with mPlayerSessionId := id })) : I (w.welcome E sid id) := by
  have hprint := h.printOut "[PLAYER] PlayerLogin: %s \n" id hw
  unfold Server.welcome
  dsimp only
  cases loginResult id with
  | error f => exact h.raise hprint
  | ok pkt =>
    have hsend := h.sendRequest sid pkt hprint
    dsimp only
    split_ifs
    · exact hsend
    · exact h.disconnect (h.printOut _ _ hsend)

/-- A handler keeps what the service's answers and a change of id also keep. -/
theorem handlePacket (h : Carried E I)
    (hid : ∀ {w sid id}, I w → I (w.modify sid fun s => { s with mPlayerSessionId := id }))
    (hanswer : ∀ {w sid id}, I w → I (w.answered E sid id))
    (hremove : ∀ {w sid id}, I w → I (w.removePlayerSession E sid id)) {w : Server ε}
    (sid : SessionId) (kind : Request) (image : List Byte) (hw : I w) :
    I (Server.handlePacket E sid kind image w) := by
  unfold Server.handlePacket
  cases kind with
  | login =>
    cases cString (imagePlayerId image) with
    | none => exact h.raise hw
    | some id =>
      change I (w.playerLogin E sid id)
      cases hok : (E.acceptPlayerSession id w.env).1 with
      | true =>
        rw [playerLogin_accepted hok]
        exact h.welcome (hid (hanswer hw))
      | false =>
        rw [playerLogin_refused hok]
        exact h.disconnect (h.printOut _ _ (hanswer hw))
  | exit =>
    cases cString (imagePlayerId image) with
    | none => exact h.raise hw
    | some id => exact h.disconnect (h.printOut _ _ (hid (hremove hw)))
  | chat =>
    cases cString (imagePlayerId image) with
    | none => exact h.raise hw
    | some id =>
      cases cString (imageChat image) with
      | none => exact h.raise hw
      | some chat =>
        dsimp only
        cases chatBroadcastResult id chat with
        | error f => exact h.raise hw
        | ok pkt => exact h.broadcastMessage pkt hw
  | move => exact h.broadcastMessage _ hw

end Carried

def SameReceive (w w' : Server ε) : Prop :=
  ∀ s, (w'.sessions s).mRecvBuffer = (w.sessions s).mRecvBuffer

theorem sameReceive_stable (w : Server ε) : Stable E (SameReceive w) where
  quiet := fun hq h s => (hq.recv s).trans (h s)
  disconnect := by
    intro v sid h s
    have hclosed : ∀ m e, ((v.closed sid m e).sessions s).mRecvBuffer =
        (v.sessions s).mRecvBuffer := by
      intro m e
      by_cases hs : s = sid
      · subst hs
        simp [closed]
      · simp [closed, hs]
    rcases disconnect_cases (E := E) v sid with ⟨-, he⟩ | ⟨-, he⟩ | ⟨-, -, he⟩ | ⟨-, -, he⟩
    · rw [he, h s]
    · rw [he]
      exact h s
    · rw [he, hclosed, h s]
    · rw [he, hclosed, h s]

theorem sameReceive_setId {w v : Server ε} (h : SameReceive w v) (sid : SessionId)
    (id : PlayerId) : SameReceive w (v.modify sid fun s => { s with mPlayerSessionId := id }) := by
  intro s
  have hkeep : ((v.modify sid fun s => { s with mPlayerSessionId := id }).sessions s).mRecvBuffer =
      (v.sessions s).mRecvBuffer := modify_keeps v sid s fun _ => rfl
  exact hkeep.trans (h s)

theorem sameReceive_handlePacket (w : Server ε) (sid : SessionId) (kind : Request)
    (image : List Byte) : SameReceive w (handlePacket E sid kind image w) :=
  (sameReceive_stable w).carried.handlePacket (fun h => sameReceive_setId h _ _) (fun h => h)
    (fun h => h) sid kind image fun _ => rfl

/-- `ClientSession::DispatchPacket` of the session `sid`. -/
def receiver (E : Env ε) (sid : SessionId) : Receiver (Server ε) where
  mRecvBuffer w := (w.sessions sid).mRecvBuffer
  setRecvBuffer w b := w.modify sid fun s => { s with mRecvBuffer := b }
  disconnect w := w.disconnect E sid
  parseError _ w := w
  handle := handlePacket E sid
  raise f w := w.raise f
  recv_set := by simp
  recv_disconnect w := (sameReceive_stable w).disconnect (fun _ => rfl) sid
  recv_parseError _ _ := rfl
  recv_handle kind image w := sameReceive_handlePacket w sid kind image sid

end Server

end GameLift
