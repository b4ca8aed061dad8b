import GameLift.Segmentation
import GameLift.ServerInvariant
import GameLift.ServiceContract

/-! An environment to run the server in: a ledger of player session ids that
keeps the service's contract, and a network that plays a script of reads. -/

namespace GameLift

open Server

/-- A service that keeps the contract, and a network that plays a script of reads. -/
structure Playback where
  status : PlayerId → Status
  reads : List ReadResult

def ledger : Sdk Playback where
  acceptPlayerSession id e :=
    if e.status id = .reserved then
      (true, { e with status := Function.update e.status id .active })
    else (false, e)
  acceptErrorMessage _ _ := serviceCallFailed
  removePlayerSession id e :=
    if e.status id = .active then
      (true, { e with status := Function.update e.status id .completed })
    else (false, e)
  activateGameSession e := e
  terminateGameSession e := e
  processEnding e := e

theorem ledger_lawful : Lawful ledger Playback.status where
  accept_ok id e := by simp only [ledger]; split_ifs <;> simp_all
  accept_true id e h := by simp [ledger, h]
  accept_false id e h := by simp [ledger, h]
  remove_ok id e := by simp only [ledger]; split_ifs <;> simp_all
  remove_true id e h := by simp [ledger, h]
  remove_false id e h := by simp [ledger, h]
  activate _ := rfl
  terminate _ := rfl
  ending _ := rfl

def clip (len : Nat) : ReadResult → ReadResult
  | .data bytes => .data (bytes.take len)
  | r => r

theorem clip_le {len : Nat} {r : ReadResult} {bytes : List Byte} (h : clip len r = .data bytes) :
    bytes.length ≤ len := by
  cases r with
  | data xs =>
    simp only [clip, ReadResult.data.injEq] at h
    rw [← h, List.length_take]
    exact Nat.min_le_left _ _
  | eagain => simp [clip] at h
  | error => simp [clip] at h

def playback : Env Playback where
  toSdk := ledger
  starts e := ∀ id, e.status id ≠ .active
  setLinger _ e := (true, e)
  read _ len e :=
    match e.reads with
    | [] => (.eagain, e)
    | r :: rs => (clip len r, { e with reads := rs })
  write _ data e := (.sent data.length, e)
  evolves _ _ := False
  argOrder := .sizeFirst
  read_le _ len e bytes h := by
    cases hr : e.reads with
    | nil => simp [hr] at h
    | cons r rs =>
      simp only [hr] at h
      exact clip_le h
  write_sent _ data e n hne h := by
    simp only [WriteResult.sent.injEq] at h
    exact ⟨h ▸ List.length_pos_iff.mpr hne, by omega⟩

/-- The server before any client, with `ids` reserved and `reads` still to come. -/
def launched (ids : List PlayerId) (reads : List ReadResult) : Server Playback where
  env := ⟨fun id => if id ∈ ids then .reserved else .unknown, reads⟩
  gameLift := .initialized
  sessions _ := ⟨[], false, 0, .new zeroBlock, .new zeroBlock⟩
  allocated := ∅
  mClientList := ⟨∅, fun _ => none⟩
  accepted _ := []
  fault := none

def joined (ids : List PlayerId) (reads : List ReadResult) : Server Playback :=
  ((launched ids reads).createClient 5 0 zeroBlock zeroBlock).onConnect 0

def oneClient (ids : List PlayerId) (b : CircularBuffer) : Server Playback :=
  (joined ids []).setRecv 0 b

theorem launched_initial {E : Env Playback} {ids : List PlayerId} {reads : List ReadResult}
    (hstart : E.starts (launched ids reads).env) : Initial E (launched ids reads) where
  env := hstart
  gameLift := rfl
  allocated := rfl
  clients := rfl
  connected _ := rfl
  id _ := rfl
  fault := rfl

theorem playback_starts (ids : List PlayerId) (reads : List ReadResult) :
    playback.starts (launched ids reads).env := by
  intro id
  simp only [launched]
  split_ifs <;> simp

/-- One client connects and its socket becomes readable. -/
theorem joined_reachable_of {E : Env Playback} {ok : Config Playback → Config Playback → Prop}
    (hok : ∀ c c', c.control = .idle → c'.server.gameLift = .initialized → ok c c')
    {ids : List PlayerId} {reads : List ReadResult} (hstart : E.starts (launched ids reads).env) :
    Reachable E ok ⟨joined ids reads, .receiving 0⟩ := by
  have hinit : Reachable E ok ⟨launched ids reads, .idle⟩ := .init (launched_initial hstart)
  have haccept : Step E ⟨launched ids reads, .idle⟩ ⟨joined ids reads, .idle⟩ := by
    refine .accept (Finset.notMem_empty 0) ?_ zeroBlock_length zeroBlock_length
    rintro s (h | ⟨k, h, -⟩) <;> cases h
  have hready : (joined ids reads).startReceive 5 = ⟨joined ids reads, .receiving 0⟩ := rfl
  have hread : Step E ⟨joined ids reads, .idle⟩ ⟨joined ids reads, .receiving 0⟩ :=
    hready ▸ .readable
  exact (hinit.step rfl haccept (hok _ _ rfl rfl)).step rfl hread (hok _ _ rfl rfl)

theorem joined_reachable {ok : Config Playback → Config Playback → Prop}
    (hok : ∀ c c', c.control = .idle → c'.server.gameLift = .initialized → ok c c')
    (ids : List PlayerId) (reads : List ReadResult) :
    Reachable playback ok ⟨joined ids reads, .receiving 0⟩ :=
  joined_reachable_of hok (playback_starts ids reads)

def loginRequest (c : Byte) : ClientPacket :=
  ⟨.login, c :: List.replicate 127 0, rfl⟩

def moveRequest : ClientPacket := ⟨.move, List.replicate 12 0, rfl⟩

theorem loginRequest_length (c : Byte) : (loginRequest c).toBytes.length = 132 :=
  (loginRequest c).length_toBytes

theorem loginRequest_id {c : Byte} (hc : c ≠ 0) :
    cString (imagePlayerId (loginRequest c).toBytes) = some [c] := by
  have himage : imagePlayerId (loginRequest c).toBytes = c :: List.replicate 127 0 := rfl
  have hend : cString (List.replicate 127 0) = some [] := rfl
  rw [himage, cString, if_neg hc, hend]
  rfl

def loginReply (c : Byte) : List Byte := headerBytes 132 2 ++ ([c] ++ 0 :: List.replicate 126 0)

theorem loginResult_letter (c : Byte) : loginResult [c] = .ok (loginReply c) := by
  simp [loginResult, strcpy, loginReply, maxSessionLen, sizeofPacketHeader, pktScLogin,
    ok_bind, pure_eq_ok]

section
variable {ε : Type} {E : Env ε}

theorem playback_refusalLine (id : PlayerId) (e : Playback) :
    38 + (playback.acceptErrorMessage id e).length < 128 := by
  change 38 + serviceCallFailed.length < 128
  rw [serviceCallFailed_length]
  decide

theorem printOut_letter (w : Server ε) {fmt : String} (c : Byte) (h : fmt.length < 100) :
    w.printOut fmt [c] = w := by
  have hfits : fmt.length - 2 + [c].length < 128 := by
    rw [List.length_singleton]
    omega
  exact if_pos hfits

theorem welcome_accepted {w : Server ε} {sid : SessionId} {c : Byte} {b : CircularBuffer}
    (hc : ((w.setId sid [c]).sessions sid).mConnected = true)
    (hb : ((w.setId sid [c]).sessions sid).mSendBuffer.write (loginReply c) 132 = .ok (true, b)) :
    w.welcome E sid [c] = (w.setId sid [c]).modify sid fun s => { s with mSendBuffer := b } := by
  have hdecl : sizeT (PacketHeader.ofBytes (loginReply c)).mSize = 132 := rfl
  rw [← hdecl] at hb
  have hsend := sendRequest_accepted (E := E) hc hb
  have hfmt : "[PLAYER] PlayerLogin: %s \n".length < 100 := by decide +kernel
  have hprint := printOut_letter (w.setId sid [c]) c hfmt
  rw [setId] at hprint hsend
  unfold welcome
  rw [loginResult_letter]
  dsimp only
  rw [hprint, hsend]
  exact if_pos rfl

end

/-- The client's session: whether it is connected, its id, the bytes that wait
in its receive buffer and how many wait in its send buffer. -/
structure Seat (w : Server Playback) (m : GameLiftManager) (e : Playback) (conn : Bool)
    (id : PlayerId) (rest : List Byte) (n : Nat) : Prop where
  gameLift : w.gameLift = m
  env : w.env = e
  fault : w.fault = none
  connected : (w.sessions 0).mConnected = conn
  playerId : (w.sessions 0).mPlayerSessionId = id
  recv : (w.sessions 0).mRecvBuffer.Inv
  contents : (w.sessions 0).mRecvBuffer.contents = rest
  send : (w.sessions 0).mSendBuffer.Inv
  sendSize : (w.sessions 0).mSendBuffer.mBuffer.length = bufSize
  waiting : (w.sessions 0).mSendBuffer.contents.length = n

theorem playback_receive {w : Server Playback} {sid : SessionId} {bytes : List Byte}
    {rs : List ReadResult} (hr : w.env.reads = .data bytes :: rs)
    (h : (w.sessions sid).mRecvBuffer.Inv)
    (hfit : bytes.length ≤ (w.sessions sid).mRecvBuffer.freeSpace) :
    ∃ b, (w.sessions sid).mRecvBuffer.Appended bytes b ∧ receiveStep playback sid w =
      ⟨{ w.setRecv sid b with env := { w.env with reads := rs } }, .dispatching sid⟩ := by
  have hread : playback.read (w.sessions sid).mSocket (w.sessions sid).mRecvBuffer.freeSpace w.env =
      (.data bytes, { w.env with reads := rs }) := by
    simp only [playback, hr, clip, List.take_of_length_le hfit]
  exact receiveStep_data rfl hread h hfit

theorem playback_drained {w : Server Playback} {sid : SessionId} (hr : w.env.reads = []) :
    receiveStep playback sid w =
      ⟨w.setRecv sid (w.sessions sid).mRecvBuffer.prepare, .idle⟩ := by
  have hread : playback.read (w.sessions sid).mSocket (w.sessions sid).mRecvBuffer.freeSpace w.env =
      (.eagain, w.env) := by
    simp only [playback, hr]
  exact receiveStep_eagain rfl hread

theorem joined_receive (ids : List PlayerId) {bytes : List Byte} (hl : bytes.length ≤ 4096) :
    ∃ w, receiveStep playback 0 (joined ids [.data bytes]) = ⟨w, .dispatching 0⟩ ∧
      Seat w .initialized (launched ids []).env true [] bytes 0 := by
  have hnew := CircularBuffer.inv_new zeroBlock
  have hroom := hnew.half_free zeroBlock_length
  rw [CircularBuffer.contents_new, List.length_nil] at hroom
  have hfit : bytes.length ≤ (CircularBuffer.new zeroBlock).freeSpace := by omega
  have hreads : (joined ids [.data bytes]).env.reads = .data bytes :: [] := rfl
  have hrecv : ((joined ids [.data bytes]).sessions 0).mRecvBuffer = .new zeroBlock := rfl
  obtain ⟨b, ha, hs⟩ := playback_receive hreads (hrecv ▸ hnew) (hrecv ▸ hfit)
  refine ⟨_, hs, rfl, rfl, rfl, rfl, rfl, ha.inv, ?_, hnew, zeroBlock_length, ?_⟩
  · have hempty : ((joined ids [.data bytes]).sessions 0).mRecvBuffer.contents = [] :=
      CircularBuffer.contents_new zeroBlock
    exact ha.contents_eq.trans (by rw [hempty, List.nil_append])
  · exact congrArg List.length (CircularBuffer.contents_new zeroBlock)

namespace Seat

variable {w : Server Playback} {m : GameLiftManager} {e : Playback} {conn : Bool} {id : PlayerId}
  {rest : List Byte} {n : Nat}

theorem drained (h : Seat w m e conn id rest n) (hr : e.reads = []) :
    ∃ w', receiveStep playback 0 w = ⟨w', .idle⟩ ∧ Seat w' m e conn id rest n := by
  have ha := h.recv.appended_prepare
  refine ⟨_, playback_drained (h.env ▸ hr), h.gameLift, h.env, h.fault, h.connected, h.playerId,
    ha.inv, ?_, h.send, h.sendSize, h.waiting⟩
  rw [← h.contents]
  exact ha.contents_eq.trans (List.append_nil _)

theorem waits (h : Seat w m e conn id [] n) : dispatchStep playback 0 w = ⟨w, .receiving 0⟩ :=
  dispatchStep_waits h.recv (congrArg frameOf h.contents)

theorem login {c : Byte} (hc : c ≠ 0)
    (h : Seat w m e conn id ((loginRequest c).toBytes ++ rest) n) :
    ∃ b, Seat (w.setRecv 0 b) m e conn id rest n ∧ w.Handles 0 .login [c] b ∧
      dispatchStep playback 0 w =
        ⟨(w.setRecv 0 b).playerLogin playback 0 [c], .dispatching 0⟩ := by
  have hf := ClientPacket.frameOf_toBytes (loginRequest c) rest
  rw [← h.contents] at hf
  obtain ⟨b, hb, hrest, hnext, hstep⟩ := dispatchStep_parsed (E := playback) h.recv hf
  have hid := loginRequest_id hc
  refine ⟨b, ⟨h.gameLift, h.env, h.fault, h.connected, h.playerId, hb, hrest, h.send, h.sendSize,
    h.waiting⟩, ⟨_, hnext, hid⟩, ?_⟩
  rw [hstep]
  simp only [loginRequest, handlePacket] at hid ⊢
  rw [hid]

def loggedIn (m : GameLiftManager) (c : Byte) : GameLiftManager :=
  { m with
    issued := .acceptPlayerSession 0 [c] true :: m.issued
    mAcceptedCount := m.mAcceptedCount + 1
    mPlayerSessions := insert 0 m.mPlayerSessions }

def activated (e : Playback) (c : Byte) : Playback :=
  { e with status := Function.update e.status [c] .active }

theorem accepted {c : Byte} (h : Seat w m e conn id rest n) (hr : e.status [c] = .reserved) :
    w.playerLogin playback 0 [c] = (w.answered playback 0 [c]).welcome playback 0 [c] ∧
      Seat ((w.answered playback 0 [c]).setId 0 [c]) (loggedIn m c) (activated e c) conn [c] rest
        n := by
  have hacc : playback.acceptPlayerSession [c] w.env = (true, activated e c) := by
    rw [h.env]
    simp [playback, ledger, hr, activated]
  refine ⟨playerLogin_accepted (by rw [hacc]), ?_⟩
  rw [answered]
  simp only [hacc, if_true, h.gameLift]
  exact ⟨rfl, rfl, h.fault, h.connected, rfl, h.recv, h.contents, h.send, h.sendSize, h.waiting⟩

theorem welcome_live {c : Byte} (h : Seat (w.setId 0 [c]) m e true [c] rest n) (hn : n ≤ 4096) :
    Seat (w.welcome playback 0 [c]) m e true [c] rest (n + 132) := by
  have hroom := h.send.half_free h.sendSize
  rw [h.waiting] at hroom
  have hlen : (loginReply c).length = 132 := rfl
  obtain ⟨b, hb, ha⟩ := h.send.write_accepted (Nat.le_of_eq hlen.symm)
    (show 132 ≤ ((w.setId 0 [c]).sessions 0).mSendBuffer.freeSpace by omega)
  rw [welcome_accepted h.connected hb]
  refine ⟨h.gameLift, h.env, h.fault, h.connected, h.playerId, h.recv, h.contents, ha.inv,
    ha.length_eq.trans h.sendSize, ?_⟩
  have happ := congrArg List.length ha.contents_eq
  rw [List.length_append, h.waiting, List.take_of_length_le (Nat.le_of_eq hlen), hlen] at happ
  exact happ

theorem welcome_dead {c : Byte} (h : Seat (w.setId 0 [c]) m e false [c] rest n) :
    w.welcome playback 0 [c] = w.setId 0 [c] := by
  have hfmt : "[PLAYER] PlayerLogin: %s \n".length < 100 := by decide +kernel
  have herr : "send request error: %s \n".length < 100 := by decide +kernel
  have hsend : (w.setId 0 [c]).sendRequest playback 0 (loginReply c) = (false, w.setId 0 [c]) :=
    sendRequest_gone h.connected
  have hgone := disconnect_gone (E := playback) h.connected
  have hprint := printOut_letter (w.setId 0 [c]) c hfmt
  have hprint' := printOut_letter (w.setId 0 [c]) c herr
  rw [setId] at hsend hgone hprint hprint' ⊢
  unfold welcome
  rw [loginResult_letter]
  dsimp only
  rw [hprint, hsend]
  dsimp only
  rw [hprint', hgone, if_neg Bool.false_ne_true]

theorem login_live {c : Byte} (hc : c ≠ 0)
    (h : Seat w m e true id ((loginRequest c).toBytes ++ rest) n) (hr : e.status [c] = .reserved)
    (hn : n ≤ 4096) :
    ∃ w', dispatchStep playback 0 w = ⟨w', .dispatching 0⟩ ∧
      Seat w' (loggedIn m c) (activated e c) true [c] rest (n + 132) := by
  obtain ⟨b, hs, -, hstep⟩ := h.login hc
  obtain ⟨hlogin, hacc⟩ := hs.accepted hr
  exact ⟨_, hstep, hlogin ▸ hacc.welcome_live hn⟩

/-- The only member asks for a move, and is sent it. -/
theorem move_live {p : ClientPacket} (hp : p.kind = .move)
    (h : Seat w m e true id (p.toBytes ++ rest) n) (hm : m.mPlayerSessions = {0}) (hn : n ≤ 4096) :
    ∃ w', dispatchStep playback 0 w = ⟨w', .dispatching 0⟩ ∧ Seat w' m e true id rest (n + 16) := by
  have hf := p.frameOf_toBytes rest
  rw [← h.contents] at hf
  obtain ⟨b, hb, hrest, -, hstep⟩ := dispatchStep_parsed (E := playback) h.recv hf
  rw [hp] at hstep
  have hset : Seat (w.setRecv 0 b) m e true id rest n := ⟨h.gameLift, h.env, h.fault, h.connected,
    h.playerId, hb, hrest, h.send, h.sendSize, h.waiting⟩
  have hlen : (moveBroadcastResult (imageMove p.toBytes)).length = 16 := by
    have hbytes := p.length_toBytes
    rw [hp] at hbytes
    have hfields : (imageMove p.toBytes).length = 12 := by
      rw [imageMove, Region.slice, List.length_take, List.length_drop, hbytes]
      rfl
    rw [moveBroadcastResult, List.length_append, hfields]
    rfl
  have hsize : sizeT (PacketHeader.ofBytes (moveBroadcastResult (imageMove p.toBytes))).mSize = 16 := by
    rw [moveBroadcastResult, ofBytes_headerBytes (by decide) (by decide)]
    rfl
  have hroom := hset.send.half_free hset.sendSize
  rw [hset.waiting] at hroom
  obtain ⟨b', hb', ha⟩ := hset.send.write_accepted (Nat.le_of_eq hlen.symm)
    (show 16 ≤ ((w.setRecv 0 b).sessions 0).mSendBuffer.freeSpace by omega)
  rw [← hsize] at hb'
  have hsend := sendRequest_accepted (E := playback) hset.connected hb'
  have hmembers : (w.setRecv 0 b).gameLift.mPlayerSessions = {0} :=
    (congrArg GameLiftManager.mPlayerSessions hset.gameLift).trans hm
  have hto : (w.setRecv 0 b).broadcastMessage playback (moveBroadcastResult (imageMove p.toBytes)) =
      (w.setRecv 0 b).modify 0 fun s => { s with mSendBuffer := b' } := by
    have hin : 0 ∈ ((w.setRecv 0 b).modify 0 fun s =>
        { s with mSendBuffer := b' }).gameLift.mPlayerSessions := by
      change 0 ∈ (w.setRecv 0 b).gameLift.mPlayerSessions
      rw [hmembers]
      exact Finset.mem_singleton_self 0
    rw [broadcastMessage, hmembers, Finset.sort_singleton, List.foldl_cons, List.foldl_nil,
      broadcastTo, hsend]
    exact if_pos hin
  refine ⟨_, hstep, ?_⟩
  rw [handlePacket, hto]
  refine ⟨hset.gameLift, hset.env, hset.fault, hset.connected, hset.playerId, hset.recv,
    hset.contents, ha.inv, ha.length_eq.trans hset.sendSize, ?_⟩
  have happ := congrArg List.length ha.contents_eq
  rw [List.length_append, hset.waiting, List.take_of_length_le (Nat.le_of_eq hlen), hlen] at happ
  exact happ

theorem login_dead {c : Byte} (hc : c ≠ 0)
    (h : Seat w m e false id ((loginRequest c).toBytes ++ rest) n)
    (hr : e.status [c] = .reserved) :
    ∃ w', dispatchStep playback 0 w = ⟨w', .dispatching 0⟩ ∧
      Seat w' (loggedIn m c) (activated e c) false [c] rest n := by
  obtain ⟨b, hs, -, hstep⟩ := h.login hc
  obtain ⟨hlogin, hacc⟩ := hs.accepted hr
  rw [hacc.welcome_dead] at hlogin
  exact ⟨_, hstep, hlogin ▸ hacc⟩

theorem disconnected (h : Seat w m e true [] rest n) :
    Seat (w.disconnect playback 0) m e false [] rest n := by
  rw [disconnect_plain h.connected rfl h.playerId]
  exact ⟨h.gameLift, h.env, h.fault, by simp, by simp, by simpa [closed] using h.recv,
    by simpa [closed] using h.contents, by simpa [closed] using h.send,
    by simpa [closed] using h.sendSize, by simpa [closed] using h.waiting⟩

theorem login_refused {c : Byte} (hc : c ≠ 0)
    (h : Seat w m e true [] ((loginRequest c).toBytes ++ rest) n)
    (hr : e.status [c] ≠ .reserved) :
    ∃ w', dispatchStep playback 0 w = ⟨w', .dispatching 0⟩ ∧
      Seat w' { m with issued := .acceptPlayerSession 0 [c] false :: m.issued } e false [] rest
        n := by
  obtain ⟨b, hs, -, hstep⟩ := h.login hc
  have hrej : playback.acceptPlayerSession [c] (w.setRecv 0 b).env = (false, e) := by
    rw [hs.env]
    simp [playback, ledger, hr]
  have hlogin : (w.setRecv 0 b).playerLogin playback 0 [c] =
      ((w.setRecv 0 b).answered playback 0 [c]).disconnect playback 0 := by
    rw [playerLogin_refused (by rw [hrej]), printOut_refusalLine,
      if_pos (playback_refusalLine ..)]
  have hasked : Seat ((w.setRecv 0 b).answered playback 0 [c])
      { m with issued := .acceptPlayerSession 0 [c] false :: m.issued } e true [] rest n := by
    rw [answered]
    simp only [hrej, Bool.false_eq_true, if_false, hs.gameLift, Int.add_zero]
    exact ⟨rfl, rfl, hs.fault, hs.connected, hs.playerId, hs.recv, hs.contents, hs.send,
      hs.sendSize, hs.waiting⟩
  exact ⟨_, hstep, hlogin ▸ hasked.disconnected⟩

end Seat

/-- A client connects and logs in with an id that is reserved for it. -/
theorem joined_login {ids : List PlayerId} {c : Byte} (hc : c ≠ 0) (hin : [c] ∈ ids) :
    ∃ v b w, receiveStep playback 0 (joined ids [.data (loginRequest c).toBytes]) =
        ⟨v, .dispatching 0⟩ ∧
      Seat v .initialized (launched ids []).env true [] (loginRequest c).toBytes 0 ∧
      v.Handles 0 .login [c] b ∧ dispatchStep playback 0 v = ⟨w, .dispatching 0⟩ ∧
      Seat w (Seat.loggedIn .initialized c) (Seat.activated (launched ids []).env c) true [c] []
        132 := by
  have hlen : (loginRequest c).toBytes.length ≤ 4096 := by
    rw [loginRequest_length]
    omega
  have hres : (launched ids []).env.status [c] = .reserved := if_pos hin
  obtain ⟨v, hrecv, hv⟩ := joined_receive ids hlen
  have hfront := hv
  rw [← List.append_nil (loginRequest c).toBytes] at hfront
  obtain ⟨b, -, hh, -⟩ := hfront.login hc
  obtain ⟨w, hstep, hw⟩ := hfront.login_live hc hres (by omega)
  exact ⟨v, b, w, hrecv, hv, hh, hstep, hw⟩

end GameLift
