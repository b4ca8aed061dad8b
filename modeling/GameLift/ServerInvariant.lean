import GameLift.EventLoop

/-! What a property of the server must survive to hold in every state of every
run. The functions a packet can call are put together once, here. -/

namespace GameLift

namespace Server

variable {ε : Type} {E : Env ε}

def setRecv (w : Server ε) (sid : SessionId) (b : CircularBuffer) : Server ε :=
  w.modify sid fun s => { s with mRecvBuffer := b }

def setId (w : Server ε) (sid : SessionId) (id : PlayerId) : Server ε :=
  w.modify sid fun s => { s with mPlayerSessionId := id }

@[simp] theorem setRecv_connected (w : Server ε) (sid s : SessionId) (b : CircularBuffer) :
    ((w.setRecv sid b).sessions s).mConnected = (w.sessions s).mConnected :=
  modify_keeps _ _ _ (fun _ => rfl)

@[simp] theorem setRecv_socket (w : Server ε) (sid s : SessionId) (b : CircularBuffer) :
    ((w.setRecv sid b).sessions s).mSocket = (w.sessions s).mSocket :=
  modify_keeps _ _ _ (fun _ => rfl)

@[simp] theorem setRecv_id (w : Server ε) (sid s : SessionId) (b : CircularBuffer) :
    ((w.setRecv sid b).sessions s).mPlayerSessionId = (w.sessions s).mPlayerSessionId :=
  modify_keeps _ _ _ (fun _ => rfl)

@[simp] theorem setRecv_send (w : Server ε) (sid s : SessionId) (b : CircularBuffer) :
    ((w.setRecv sid b).sessions s).mSendBuffer = (w.sessions s).mSendBuffer :=
  modify_keeps _ _ _ (fun _ => rfl)

@[simp] theorem setId_connected (w : Server ε) (sid s : SessionId) (id : PlayerId) :
    ((w.setId sid id).sessions s).mConnected = (w.sessions s).mConnected :=
  modify_keeps _ _ _ (fun _ => rfl)

@[simp] theorem setId_socket (w : Server ε) (sid s : SessionId) (id : PlayerId) :
    ((w.setId sid id).sessions s).mSocket = (w.sessions s).mSocket :=
  modify_keeps _ _ _ (fun _ => rfl)

@[simp] theorem setId_send (w : Server ε) (sid s : SessionId) (id : PlayerId) :
    ((w.setId sid id).sessions s).mSendBuffer = (w.sessions s).mSendBuffer :=
  modify_keeps _ _ _ (fun _ => rfl)

@[simp] theorem setId_id (w : Server ε) (sid s : SessionId) (id : PlayerId) :
    ((w.setId sid id).sessions s).mPlayerSessionId =
      if s = sid then id else (w.sessions s).mPlayerSessionId := by
  rw [setId, modify_sessions]
  split_ifs <;> rfl

@[simp] theorem closed_connected (w : Server ε) (sid s : SessionId) (m : GameLiftManager) (e : ε) :
    ((w.closed sid m e).sessions s).mConnected =
      if s = sid then false else (w.sessions s).mConnected := by
  by_cases h : s = sid
  · simp [closed, h]
  · simp [closed, h]

@[simp] theorem closed_socket (w : Server ε) (sid s : SessionId) (m : GameLiftManager) (e : ε) :
    ((w.closed sid m e).sessions s).mSocket = (w.sessions s).mSocket := by
  by_cases h : s = sid
  · simp [closed, h]
  · simp [closed, h]

@[simp] theorem closed_send (w : Server ε) (sid s : SessionId) (m : GameLiftManager) (e : ε) :
    ((w.closed sid m e).sessions s).mSendBuffer = (w.sessions s).mSendBuffer := by
  by_cases h : s = sid
  · simp [closed, h]
  · simp [closed, h]

@[simp] theorem closed_id (w : Server ε) (sid s : SessionId) (m : GameLiftManager) (e : ε) :
    ((w.closed sid m e).sessions s).mPlayerSessionId =
      if s = sid then [] else (w.sessions s).mPlayerSessionId := by
  by_cases h : s = sid
  · simp [closed, h]
  · simp [closed, h]

theorem created_sessions (w : Server ε) (sock : Socket) (sid s : SessionId) (send recv : Block) :
    ((w.createClient sock sid send recv).onConnect sid).sessions s =
      if s = sid then ⟨[], true, sock, .new send, .new recv⟩ else w.sessions s := by
  rw [onConnect, modify_sessions, createClient]
  by_cases h : s = sid
  · simp [h]
  · simp [h]

/-- The next round of the dispatch loop of `sid` handles this request, for this id. -/
def Handles (w : Server ε) (sid : SessionId) (kind : Request) (id : PlayerId)
    (b : CircularBuffer) : Prop :=
  ∃ image, nextFrame (w.sessions sid).mRecvBuffer = .parsed kind image b ∧
    cString (imagePlayerId image) = some id

theorem Handles.unique {w : Server ε} {sid : SessionId} {kind kind' : Request} {id id' : PlayerId}
    {b b' : CircularBuffer} (h : w.Handles sid kind id b) (h' : w.Handles sid kind' id' b') :
    kind = kind' ∧ id = id' := by
  obtain ⟨image, hf, hid⟩ := h
  obtain ⟨image', hf', hid'⟩ := h'
  rw [hf, Frame.parsed.injEq] at hf'
  obtain ⟨hkind, himage, -⟩ := hf'
  rw [himage, hid', Option.some.injEq] at hid
  exact ⟨hkind, hid.symm⟩

/-- A property that every step keeps from states that satisfy `guard`. -/
structure Upheld (E : Env ε) (guard : Config ε → Prop) (I : Server ε → Prop) : Prop where
  stable : Stable E I
  receive : ∀ {w sid b}, I w → I (w.setRecv sid b)
  lookup : ∀ {w sock}, w.fault = none → I w → I (w.startReceive sock).server
  create : ∀ {w sock sid} {send recv : Block}, w.fault = none → sid ∉ w.allocated →
    (∀ s, w.Live s → (w.sessions s).mSocket ≠ sock) → I w →
      I ((w.createClient sock sid send recv).onConnect sid)
  accepted : ∀ {w sid id b}, sid ∈ w.allocated → guard ⟨w, .dispatching sid⟩ →
    w.Handles sid .login id b → I w →
      (E.acceptPlayerSession id w.env).1 = true →
        I (((w.setRecv sid b).answered E sid id).setId sid id)
  rejected : ∀ {w sid id b}, sid ∈ w.allocated → guard ⟨w, .dispatching sid⟩ →
    w.Handles sid .login id b → I w →
      (E.acceptPlayerSession id w.env).1 = false →
        I ((w.setRecv sid b).answered E sid id)
  removed : ∀ {w sid id b}, sid ∈ w.allocated → guard ⟨w, .dispatching sid⟩ →
    w.Handles sid .exit id b → I w →
      I (((w.setRecv sid b).removePlayerSession E sid id).setId sid [])
  started : ∀ {w}, I w → I (w.onStartGameSession E)
  terminated : ∀ {w}, I w → I (w.onProcessTerminate E)
  outside : ∀ {w e}, E.evolves w.env e → I w → I { w with env := e }

/-- To be stable it is enough to survive quiet changes and a completed `Disconnect`. -/
theorem Stable.of_closed {I : Server ε → Prop} (hquiet : ∀ {w w'}, Quiet E w w' → I w → I w')
    (hplain : ∀ {w : Server ε} {sid}, (w.sessions sid).mConnected = true →
      (w.sessions sid).mPlayerSessionId = [] → I w → I (w.closed sid w.gameLift w.env))
    (hremoved : ∀ {w : Server ε} {sid}, (w.sessions sid).mConnected = true →
      (w.sessions sid).mPlayerSessionId ≠ [] → I w →
        I (w.closed sid
          (w.gameLift.removePlayerSession E.toSdk sid (w.sessions sid).mPlayerSessionId w.env).1
          (w.gameLift.removePlayerSession E.toSdk sid (w.sessions sid).mPlayerSessionId w.env).2)) :
    Stable E I where
  quiet := hquiet
  disconnect := by
    intro w sid hw
    have hlinger : I { w with env := (E.setLinger (w.sessions sid).mSocket w.env).2 } :=
      hquiet (quiet_env .setLinger) hw
    rcases disconnect_cases (E := E) w sid with ⟨-, he⟩ | ⟨-, he⟩ | ⟨hc, hid, he⟩ | ⟨hc, hid, he⟩
    · rwa [he]
    · rwa [he]
    · rw [he]
      have hh := @hplain { w with env := (E.setLinger (w.sessions sid).mSocket w.env).2 } sid hc
        hid hlinger
      exact hh
    · rw [he]
      have hh := @hremoved { w with env := (E.setLinger (w.sessions sid).mSocket w.env).2 } sid hc
        hid hlinger
      exact hh

theorem flushClients_keeps {I : Server ε → Prop} (hraise : ∀ {w f}, I w → I (w.raise f))
    (hdisconnect : ∀ {w sid}, I w → I (w.disconnect E sid))
    (hflush : ∀ {w w' fuel sid r}, w.sendFlush E fuel sid = some (r, w') → I w → I w')
    {w w' : Server ε} {fuel : Nat} {keys : List Socket}
    (hf : keys.foldlM (flushClient E fuel) w = some w') (hw : I w) : I w' := by
  induction keys generalizing w with
  | nil =>
    simp only [List.foldlM_nil, Option.pure_def, Option.some.injEq] at hf
    exact hf ▸ hw
  | cons k keys ih =>
    rw [List.foldlM_cons, Option.bind_eq_bind, Option.bind_eq_some_iff] at hf
    obtain ⟨v, hv, hf⟩ := hf
    refine ih hf ?_
    rw [flushClient] at hv
    cases hk : w.mClientList.value k with
    | none =>
      simp only [hk, Option.some.injEq] at hv
      exact hv ▸ hraise hw
    | some sid =>
      simp only [hk, Option.bind_eq_bind, Option.bind_eq_some_iff] at hv
      obtain ⟨⟨r, u⟩, hsend, hv⟩ := hv
      have hu : I u := hflush hsend hw
      have hd : I (if r.answer then u else u.disconnect E sid) := by
        split_ifs
        · exact hu
        · exact hdisconnect hu
      simp only [Option.pure_def, Option.some.injEq] at hv
      rw [← hv]
      split_ifs at hd ⊢
      · exact hd
      · exact hraise hd
      · exact hd
      · exact hraise hd

theorem Carried.flushClients {I : Server ε → Prop} (h : Carried E I)
    (hflush : ∀ {w w' fuel sid r}, w.sendFlush E fuel sid = some (r, w') → I w → I w')
    {w w' : Server ε} {fuel : Nat} {keys : List Socket}
    (hf : keys.foldlM (flushClient E fuel) w = some w') (hw : I w) : I w' :=
  flushClients_keeps h.raise h.disconnect hflush hf hw

theorem Carried.flushClientSend {I : Server ε → Prop} (h : Carried E I)
    (hflush : ∀ {w w' fuel sid r}, w.sendFlush E fuel sid = some (r, w') → I w → I w')
    {w w' : Server ε} {fuel : Nat} (hf : Server.flushClientSend E fuel w = some w') (hw : I w) :
    I w' := h.flushClients hflush hf hw

theorem Stable.flushClientSend {I : Server ε → Prop} (h : Stable E I) {w w' : Server ε}
    {fuel : Nat} (hf : Server.flushClientSend E fuel w = some w') (hw : I w) : I w' :=
  h.carried.flushClientSend (fun hsend => h.quiet (sendFlush_quiet hsend)) hf hw

/-- The lookup finds a connected session, or the run ends; a missing socket has
then put a null pointer into the list. -/
theorem startReceive_cases (w : Server ε) (sock : Socket) :
    (∃ sid, sock ∈ w.mClientList.keys ∧ w.mClientList.value sock = some sid ∧
      w.startReceive sock = ⟨w, .receiving sid⟩) ∨
    (∃ f, w.startReceive sock = ⟨w.raise f, .idle⟩) ∨
    (sock ∉ w.mClientList.keys ∧
      w.startReceive sock = ⟨{ w with mClientList := ⟨insert sock w.mClientList.keys,
        Function.update w.mClientList.value sock none⟩ }.raise .nullPointer, .idle⟩) := by
  unfold startReceive ClientList.subscript
  by_cases hk : sock ∈ w.mClientList.keys
  · cases hv : w.mClientList.value sock with
    | none => exact Or.inr (Or.inl ⟨.nullPointer, by simp [hk]⟩)
    | some sid =>
      cases hc : (w.sessions sid).mConnected with
      | true => exact Or.inl ⟨sid, hk, rfl, by simp [hk, hc]⟩
      | false => exact Or.inr (Or.inl ⟨.crashAssert, by simp [hk, hc]⟩)
  · exact Or.inr (Or.inr ⟨hk, by simp [hk]⟩)

theorem dispatchStep_of_body {I : Server ε → Prop} {w : Server ε} {sid : SessionId} (hw : I w)
    (hbody : ((receiver E sid).dispatchBody w).Holds I I) :
    I (Server.dispatchStep E sid w).server := by
  rw [Server.dispatchStep]
  cases hb : (receiver E sid).dispatchBody w with
  | done v =>
    rw [hb] at hbody
    exact hbody
  | next v =>
    rw [hb] at hbody
    exact hbody
  | hang => exact hw

namespace Upheld

variable {guard : Config ε → Prop} {I : Server ε → Prop}

theorem handlePacket (h : Upheld E guard I) {w : Server ε} {sid : SessionId} {kind : Request}
    {image : List Byte} {b : CircularBuffer} (hs : sid ∈ w.allocated)
    (hg : guard ⟨w, .dispatching sid⟩)
    (hf : nextFrame (w.sessions sid).mRecvBuffer = .parsed kind image b) (hw : I w) :
    I (Server.handlePacket E sid kind image (w.setRecv sid b)) := by
  have hrecv : I (w.setRecv sid b) := h.receive hw
  have hraise : I ((w.setRecv sid b).raise .outOfBounds) := h.stable.quiet (quiet_raise _ _) hrecv
  unfold Server.handlePacket
  cases kind with
  | login =>
    dsimp only
    cases hc : cString (imagePlayerId image) with
    | none => exact hraise
    | some id =>
      change I ((w.setRecv sid b).playerLogin E sid id)
      have hhandles : w.Handles sid .login id b := ⟨image, hf, hc⟩
      cases hok : (E.acceptPlayerSession id w.env).1 with
      | true =>
        rw [playerLogin_accepted (w := w.setRecv sid b) hok]
        exact h.stable.carried.welcome (h.accepted hs hg hhandles hw hok)
      | false =>
        have hasked := h.rejected hs hg hhandles hw hok
        rw [playerLogin_refused (w := w.setRecv sid b) hok]
        exact h.stable.disconnect (h.stable.quiet (quiet_printOut _ _ _) hasked)
  | exit =>
    dsimp only
    cases hc : cString (imagePlayerId image) with
    | none => exact hraise
    | some id =>
      have hrem := h.removed hs hg ⟨image, hf, hc⟩ hw
      exact h.stable.disconnect (h.stable.quiet (quiet_printOut _ _ _) hrem)
  | chat =>
    dsimp only
    cases cString (imagePlayerId image) with
    | none => exact hraise
    | some id =>
      cases cString (imageChat image) with
      | none => exact hraise
      | some chat =>
        dsimp only
        cases chatBroadcastResult id chat with
        | error f => exact h.stable.quiet (quiet_raise _ f) hrecv
        | ok pkt => exact h.stable.carried.broadcastMessage pkt hrecv
  | move => exact h.stable.carried.broadcastMessage _ hrecv

theorem dispatchBody (h : Upheld E guard I) {w : Server ε} {sid : SessionId}
    (hs : sid ∈ w.allocated) (hg : guard ⟨w, .dispatching sid⟩) (hw : I w) :
    ((receiver E sid).dispatchBody w).Holds I I := by
  rw [Receiver.dispatchBody]
  cases hf : nextFrame ((receiver E sid).mRecvBuffer w) with
  | wait => exact hw
  | invalidType => exact h.stable.disconnect hw
  | unregistered => exact h.stable.disconnect hw
  | parseError k => exact hw
  | parsed k image b =>
    have hh := h.handlePacket hs hg hf hw
    simpa only [Loop.Iter.Holds, receiver, setRecv] using hh
  | fault f => exact h.stable.quiet (quiet_raise _ f) hw

theorem dispatchStep (h : Upheld E guard I) {w : Server ε} {sid : SessionId}
    (hs : sid ∈ w.allocated) (hg : guard ⟨w, .dispatching sid⟩) (hw : I w) :
    I (Server.dispatchStep E sid w).server := dispatchStep_of_body hw (h.dispatchBody hs hg hw)

theorem receiveStep (h : Upheld E guard I) {w : Server ε} {sid : SessionId} (hw : I w) :
    I (Server.receiveStep E sid w).server := by
  have hread : ∀ b room, I { w.setRecv sid b with
      env := (E.read (w.sessions sid).mSocket room w.env).2 } := by
    intro b room
    exact h.stable.quiet (quiet_env .read) (h.receive hw)
  unfold Server.receiveStep receiveBody
  dsimp only
  cases (E.read (w.sessions sid).mSocket (receiveWindow E.argOrder
      (w.sessions sid).mRecvBuffer).2.1 w.env).1 with
  | eagain => exact hread _ _
  | error => exact h.stable.disconnect (hread _ _)
  | data bytes =>
    dsimp only
    cases (receiveWindow E.argOrder (w.sessions sid).mRecvBuffer).2.2.storeAt
        (receiveWindow E.argOrder (w.sessions sid).mRecvBuffer).1 bytes bytes.length with
    | error f => exact h.stable.quiet (quiet_raise _ f) (hread _ _)
    | ok b => exact h.receive (hread _ _)

theorem step (h : Upheld E guard I) {c c' : Config ε} (hf : c.server.fault = none)
    (hk : ∀ sid, c.control = .dispatching sid → sid ∈ c.server.allocated) (hg : guard c)
    (hs : Step E c c') (hI : I c.server) : I c'.server := by
  cases hs with
  | accept hfresh hlive _ _ => exact h.create hf hfresh hlive hI
  | readable => exact h.lookup hf hI
  | receive => exact h.receiveStep hI
  | dispatch => exact h.dispatchStep (hk _ rfl) hg hI
  | flush hflush => exact h.stable.flushClientSend hflush hI
  | startGameSession => exact h.started hI
  | processTerminate => exact h.terminated hI
  | outside he => exact h.outside he hI

end Upheld

theorem dispatchStep_handles {w : Server ε} {sid : SessionId} {kind : Request}
    {image : List Byte} {b : CircularBuffer}
    (hn : nextFrame (w.sessions sid).mRecvBuffer = .parsed kind image b) :
    dispatchStep E sid w = ⟨handlePacket E sid kind image (w.setRecv sid b), .dispatching sid⟩ := by
  have hb : (receiver E sid).dispatchBody w =
      .next (handlePacket E sid kind image (w.setRecv sid b)) := by
    rw [Receiver.dispatchBody]
    simp only [receiver, hn, setRecv]
  rw [dispatchStep, hb]

theorem dispatchStep_parsed {w : Server ε} {sid : SessionId} {kind : Request}
    {image rest : List Byte} (h : (w.sessions sid).mRecvBuffer.Inv)
    (hf : frameOf (w.sessions sid).mRecvBuffer.contents = .parsed kind image rest) :
    ∃ b, b.Inv ∧ b.contents = rest ∧ nextFrame (w.sessions sid).mRecvBuffer = .parsed kind image b ∧
      dispatchStep E sid w = ⟨handlePacket E sid kind image (w.setRecv sid b), .dispatching sid⟩ := by
  obtain ⟨hmap, hdrop⟩ := h.nextFrame_spec
  rw [hf] at hmap
  cases hn : nextFrame (w.sessions sid).mRecvBuffer with
  | parsed k i b =>
    rw [hn] at hmap
    simp only [Frame.map, Frame.parsed.injEq] at hmap
    obtain ⟨rfl, rfl, rfl⟩ := hmap
    exact ⟨b, (hdrop k i b hn).inv, rfl, rfl, dispatchStep_handles hn⟩
  | _ => simp [hn, Frame.map] at hmap

theorem dispatchStep_waits {w : Server ε} {sid : SessionId}
    (h : (w.sessions sid).mRecvBuffer.Inv)
    (hf : frameOf (w.sessions sid).mRecvBuffer.contents = .wait) :
    dispatchStep E sid w = ⟨w, .receiving sid⟩ := by
  obtain ⟨hmap, -⟩ := h.nextFrame_spec
  have hbody : (receiver E sid).dispatchBody w = .done w := by
    rw [hf] at hmap
    rw [Receiver.dispatchBody]
    cases hn : nextFrame ((receiver E sid).mRecvBuffer w) with
    | wait => rfl
    | _ =>
      change nextFrame (w.sessions sid).mRecvBuffer = _ at hn
      simp [hn, Frame.map] at hmap
  rw [dispatchStep, hbody]

theorem setRecv_setRecv (w : Server ε) (sid : SessionId) (b b' : CircularBuffer) :
    (w.setRecv sid b).setRecv sid b' = w.setRecv sid b' := by
  simp [setRecv, Server.modify, Function.update_idem]

theorem receiveStep_data {w : Server ε} {sid : SessionId} {bytes : List Byte} {e : ε}
    (horder : receiveWindow E.argOrder (w.sessions sid).mRecvBuffer =
      receiveWindow .sizeFirst (w.sessions sid).mRecvBuffer)
    (hread : E.read (w.sessions sid).mSocket (w.sessions sid).mRecvBuffer.freeSpace w.env =
      (.data bytes, e)) (h : (w.sessions sid).mRecvBuffer.Inv)
    (hfit : bytes.length ≤ (w.sessions sid).mRecvBuffer.freeSpace) :
    ∃ b, (w.sessions sid).mRecvBuffer.Appended bytes b ∧
      receiveStep E sid w = ⟨{ w.setRecv sid b with env := e }, .dispatching sid⟩ := by
  obtain ⟨b, hb, ha⟩ := h.place_prepare (Nat.le_refl bytes.length) hfit
  rw [List.take_length] at ha
  refine ⟨b, ha, ?_⟩
  rw [CircularBuffer.place] at hb
  cases hs : (w.sessions sid).mRecvBuffer.prepare.storeAt
      (w.sessions sid).mRecvBuffer.prepare.getBuffer bytes bytes.length with
  | error f => simp [hs, bind, Except.bind] at hb
  | ok b' =>
    rw [hs, ok_bind, pure_eq_ok, Except.ok.injEq] at hb
    have hbody : receiveBody E sid w = .next { w.setRecv sid b with env := e } := by
      simp only [CircularBuffer.freeSpace] at hread
      simp only [CircularBuffer.prepare] at hs
      rw [receiveBody]
      rw [horder]
      simp only [receiveWindow, hread, hs, hb]
      rw [← setRecv_setRecv w sid (w.sessions sid).mRecvBuffer.prepare]
      rfl
    rw [receiveStep, hbody]

theorem receiveStep_eagain {w : Server ε} {sid : SessionId} {e : ε}
    (horder : E.argOrder = .sizeFirst)
    (hread : E.read (w.sessions sid).mSocket (w.sessions sid).mRecvBuffer.freeSpace w.env =
      (.eagain, e)) :
    receiveStep E sid w =
      ⟨{ w.setRecv sid (w.sessions sid).mRecvBuffer.prepare with env := e }, .idle⟩ := by
  simp only [CircularBuffer.freeSpace] at hread
  unfold receiveStep receiveBody
  rw [horder]
  simp only [receiveWindow, hread]
  rfl

/-- Only sessions made by `CreateClient` are in the client list, `base` among them. -/
structure Listed (base : Finset SessionId) (w : Server ε) : Prop where
  base : base ⊆ w.allocated
  clients : ∀ k ∈ w.mClientList.keys, ∀ s, w.mClientList.value k = some s → s ∈ w.allocated

theorem Listed.of_eq {base : Finset SessionId} {w w' : Server ε} (h : Listed base w)
    (ha : w'.allocated = w.allocated) (hc : w'.mClientList = w.mClientList) : Listed base w' :=
  ⟨ha ▸ h.base, by rw [ha, hc]; exact h.clients⟩

theorem upheld_listed (base : Finset SessionId) :
    Upheld E (fun _ => True) (Listed base : Server ε → Prop) where
  stable := by
    have hclosed : ∀ {w : Server ε} {sid} (m : GameLiftManager) (e : ε), Listed base w →
        Listed base (w.closed sid m e) := fun m e h =>
      ⟨h.base, fun k hk s hs => h.clients k (Finset.mem_of_mem_erase hk) s hs⟩
    exact .of_closed (fun hq h => h.of_eq hq.allocated hq.clients)
      (fun _ _ h => hclosed _ _ h) (fun _ _ h => hclosed _ _ h)
  receive h := h.of_eq rfl rfl
  lookup := by
    intro w sock _ h
    rcases startReceive_cases w sock with ⟨sid, -, -, he⟩ | ⟨f, he⟩ | ⟨-, he⟩ <;> rw [he]
    · exact h
    · exact h.of_eq rfl rfl
    · refine ⟨h.base, fun k hk s hs => ?_⟩
      change k ∈ insert sock w.mClientList.keys at hk
      change Function.update w.mClientList.value sock none k = some s at hs
      rcases Finset.mem_insert.mp hk with rfl | hk
      · simp at hs
      · by_cases hks : k = sock
        · simp [hks] at hs
        · rw [Function.update_of_ne hks] at hs
          exact h.clients k hk s hs
  create := by
    intro w sock sid send recv _ _ _ h
    refine ⟨h.base.trans (Finset.subset_insert ..), fun k hk s hs => ?_⟩
    change k ∈ (w.mClientList.insert sock sid).keys at hk
    change (w.mClientList.insert sock sid).value k = some s at hs
    change s ∈ insert sid w.allocated
    rw [Finset.mem_insert]
    unfold ClientList.insert at hk hs
    split_ifs at hk hs with hin
    · exact Or.inr (h.clients k hk s hs)
    · dsimp only at hk hs
      by_cases hks : k = sock
      · rw [hks, Function.update_self, Option.some.injEq] at hs
        exact Or.inl hs.symm
      · rw [Function.update_of_ne hks] at hs
        exact Or.inr (h.clients k (Finset.mem_of_mem_insert_of_ne hk hks) s hs)
  accepted _ _ _ h _ := h.of_eq rfl rfl
  rejected _ _ _ h _ := h.of_eq rfl rfl
  removed _ _ _ h := h.of_eq rfl rfl
  started h := h.of_eq rfl rfl
  terminated h := h.of_eq rfl rfl
  outside _ h := h.of_eq rfl rfl

end Server

open Server

variable {ε : Type} {E : Env ε}

/-- The session the machine is working for was made by `CreateClient`. -/
def Control.Known (control : Control) (w : Server ε) : Prop :=
  ∀ sid, control = .receiving sid ∨ control = .dispatching sid → sid ∈ w.allocated

theorem Step.known {c c' : Config ε} (hs : Step E c c') (hf : c.server.fault = none)
    (hc : Listed ∅ c.server) (hk : c.control.Known c.server) : c'.control.Known c'.server := by
  have hmono : c.server.allocated ⊆ c'.server.allocated :=
    ((upheld_listed c.server.allocated).step hf (fun sid h => hk sid (Or.inr h)) trivial hs
      ⟨Finset.Subset.refl _, hc.clients⟩).base
  have hsame : ∀ sid, (c.control = .receiving sid ∨ c.control = .dispatching sid) →
      (c'.control = .idle ∨ c'.control = .receiving sid ∨ c'.control = .dispatching sid) →
        c'.control.Known c'.server := by
    intro sid h h' s hs'
    have hmem := hmono (hk sid h)
    rcases h' with h' | h' | h' <;> rcases hs' with hs' | hs' <;> rw [h'] at hs' <;> cases hs'
    · exact hmem
    · exact hmem
  cases hs with
  | @readable w sock =>
    rcases startReceive_cases w sock with ⟨sid, hin, hv, he⟩ | ⟨f, he⟩ | ⟨-, he⟩ <;> rw [he]
    · rintro s (h | h) <;> cases h
      exact hc.clients sock hin sid hv
    · rintro s (h | h) <;> cases h
    · rintro s (h | h) <;> cases h
  | @receive w sid =>
    refine hsame sid (Or.inl rfl) ?_
    rw [receiveStep]
    cases receiveBody E sid w with
    | done v => exact Or.inl rfl
    | next v => exact Or.inr (Or.inr rfl)
    | hang => exact Or.inr (Or.inl rfl)
  | @dispatch w sid =>
    refine hsame sid (Or.inr rfl) ?_
    rw [dispatchStep]
    cases (receiver E sid).dispatchBody w with
    | done v => exact Or.inr (Or.inl rfl)
    | next v => exact Or.inr (Or.inr rfl)
    | hang => exact Or.inr (Or.inr rfl)
  | _ => rintro sid (h | h) <;> cases h

theorem Reachable.known {ok : Config ε → Config ε → Prop} {c : Config ε}
    (h : Reachable E ok c) : Listed ∅ c.server ∧ c.control.Known c.server := by
  induction h with
  | init hi =>
    refine ⟨⟨Finset.empty_subset _, ?_⟩, ?_⟩
    · rw [hi.clients]
      simp
    · rintro sid (h | h) <;> cases h
  | step _ hf hs _ ih =>
    exact ⟨(upheld_listed ∅).step hf (fun sid h => ih.2 sid (Or.inr h)) trivial hs ih.1,
      hs.known hf ih.1 ih.2⟩

/-- An upheld property that holds initially holds in every reachable state. -/
theorem Reachable.invariant {guard : Config ε → Prop} {I : Server ε → Prop}
    {ok : Config ε → Config ε → Prop} (h : Upheld E guard I) (hinit : ∀ w, Initial E w → I w)
    (hguard : ∀ c c', ok c c' → guard c) {c : Config ε} (hc : Reachable E ok c) : I c.server := by
  induction hc with
  | init hi => exact hinit _ hi
  | step hr hf hs hok ih =>
    exact h.step hf (fun sid he => hr.known.2 sid (Or.inr he)) (hguard _ _ hok) hs ih

theorem Reachable.onward {guard : Config ε → Prop} {I : Server ε → Prop}
    {ok : Config ε → Config ε → Prop} (h : Upheld E guard I)
    (hguard : ∀ c c', ok c c' → guard c) {c c' : Config ε} (hc : Reachable E ok c)
    (hr : Onward E ok c c') (hI : I c.server) : Reachable E ok c' ∧ I c'.server := by
  induction hr with
  | refl => exact ⟨hc, hI⟩
  | tail _ hs ih =>
    obtain ⟨hf, hstep, hok⟩ := hs
    exact ⟨ih.1.step hf hstep hok,
      h.step hf (fun sid he => ih.1.known.2 sid (Or.inr he)) (hguard _ _ hok) hstep ih.2⟩

end GameLift
