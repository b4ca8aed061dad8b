import GameLift.BufferQueue
import GameLift.Playback

/-! Two clients on a network that plays a script of reads: a player who logs in,
and a stranger who never does. -/

namespace GameLift

open Server

/-- The steps of the machine while it works on one event. -/
inductive Inside {ε : Type} (E : Env ε) : Config ε → Config ε → Prop where
  | receive {w sid c} : w.fault = none → receiveStep E sid w = c → Inside E ⟨w, .receiving sid⟩ c
  | dispatch {w sid c} : w.fault = none → dispatchStep E sid w = c →
      Inside E ⟨w, .dispatching sid⟩ c

theorem Reachable.inside {ε : Type} {E : Env ε} {c c' : Config ε}
    (h : Relation.ReflTransGen (Inside E) c c') (hc : Reachable E Free c) : Reachable E Free c' := by
  induction h with
  | refl => exact hc
  | tail _ hs ih =>
    cases hs with
    | receive hf he => exact ih.step hf (he ▸ .receive) trivial
    | dispatch hf he => exact ih.step hf (he ▸ .dispatch) trivial

/-- A service that removes nobody, sockets that take no bytes, and a script of reads. -/
def congested : Env (List ReadResult) where
  acceptPlayerSession _ e := (true, e)
  acceptErrorMessage _ _ := []
  removePlayerSession _ e := (false, e)
  activateGameSession e := e
  terminateGameSession e := e
  processEnding e := e
  starts _ := True
  setLinger _ e := (true, e)
  read _ len e :=
    match e with
    | [] => (.eagain, [])
    | r :: rs => (clip len r, rs)
  write _ _ e := (.eagain, e)
  evolves _ _ := False
  argOrder := .sizeFirst
  read_le _ len e bytes h := by
    cases e with
    | nil => cases h
    | cons r rs => exact clip_le h
  write_sent _ _ _ _ _ h := by cases h

/-- The service accepts every id, and the network plays its script. -/
structure Scripted (E : Env (List ReadResult)) : Prop where
  accept : ∀ id e, E.acceptPlayerSession id e = (true, e)
  linger : ∀ sock e, E.setLinger sock e = (true, e)
  read : E.read = congested.read
  order : E.argOrder = .sizeFirst
  starts : ∀ e, E.starts e

theorem congested_scripted : Scripted congested :=
  ⟨fun _ _ => rfl, fun _ _ => rfl, rfl, rfl, fun _ => trivial⟩

/-- `congested`, but the service removes whom it is asked to. -/
def obliging : Env (List ReadResult) :=
  { congested with removePlayerSession := fun _ e => (true, e) }

theorem obliging_scripted : Scripted obliging :=
  ⟨fun _ _ => rfl, fun _ _ => rfl, rfl, rfl, fun _ => trivial⟩

namespace Scripted

variable {E : Env (List ReadResult)}

theorem receive (hE : Scripted E) (w : Server (List ReadResult)) (sid : SessionId)
    {bytes : List Byte} {script : List ReadResult} (hr : w.env = .data bytes :: script)
    (h : (w.sessions sid).mRecvBuffer.Inv)
    (hfit : bytes.length ≤ (w.sessions sid).mRecvBuffer.freeSpace) :
    ∃ b, (w.sessions sid).mRecvBuffer.Appended bytes b ∧ receiveStep E sid w =
      ⟨{ w.setRecv sid b with env := script }, .dispatching sid⟩ := by
  have hread : E.read (w.sessions sid).mSocket (w.sessions sid).mRecvBuffer.freeSpace
      w.env = (.data bytes, script) := by
    simp only [hE.read, congested, hr, clip, List.take_of_length_le hfit]
  exact receiveStep_data (hE.order ▸ rfl) hread h hfit

theorem eagain (hE : Scripted E) {w : Server (List ReadResult)} {sid : SessionId}
    {script : List ReadResult} (hr : w.env = .eagain :: script ∨ w.env = [] ∧ script = []) :
    receiveStep E sid w =
      ⟨{ w.setRecv sid (w.sessions sid).mRecvBuffer.prepare with env := script }, .idle⟩ := by
  have hread : E.read (w.sessions sid).mSocket (w.sessions sid).mRecvBuffer.freeSpace
      w.env = (.eagain, script) := by
    rcases hr with hr | ⟨hr, rfl⟩
    · simp only [hE.read, congested, hr, clip]
    · simp only [hE.read, congested, hr]
  exact receiveStep_eagain hE.order hread

end Scripted

/-- A player on socket 5 and a stranger on socket 6, with `n` bytes for the player to send. -/
structure Party (w : Server (List ReadResult)) (script : List ReadResult) (n : Nat) : Prop where
  env : w.env = script
  fault : w.fault = none
  keys : w.mClientList.keys = {5, 6}
  player : w.mClientList.value 5 = some 0
  stranger : w.mClientList.value 6 = some 1
  connected : ∀ s : Nat, s < 2 → (w.sessions s).mConnected = true
  socket : (w.sessions 0).mSocket = 5
  send : ∀ s : Nat, s < 2 → (w.sessions s).mSendBuffer.Inv
  sendSize : (w.sessions 0).mSendBuffer.mBuffer.length = bufSize
  front : (w.sessions 0).mSendBuffer.mARegionPointer = 0
  waiting : (w.sessions 0).mSendBuffer.contents.length = n
namespace Party

variable {E : Env (List ReadResult)} {w : Server (List ReadResult)} {script : List ReadResult}
  {n : Nat}

theorem of_eq (h : Party w script n) {w' : Server (List ReadResult)} {script' : List ReadResult}
    (henv : w'.env = script') (hf : w'.fault = none) (hl : w'.mClientList = w.mClientList)
    (hc : ∀ s, (w'.sessions s).mConnected = (w.sessions s).mConnected)
    (hk : ∀ s, (w'.sessions s).mSocket = (w.sessions s).mSocket)
    (hb : ∀ s, (w'.sessions s).mSendBuffer = (w.sessions s).mSendBuffer) : Party w' script' n where
  env := henv
  fault := hf
  keys := hl ▸ h.keys
  player := hl ▸ h.player
  stranger := hl ▸ h.stranger
  connected s hs := (hc s).trans (h.connected s hs)
  socket := (hk 0).trans h.socket
  send s hs := (hb s).symm ▸ h.send s hs
  sendSize := (hb 0).symm ▸ h.sendSize
  front := (hb 0).symm ▸ h.front
  waiting := (hb 0).symm ▸ h.waiting

theorem setRecv (h : Party w script n) (sid : SessionId) (b : CircularBuffer)
    (script' : List ReadResult) : Party { w.setRecv sid b with env := script' } script' n :=
  h.of_eq rfl h.fault rfl (fun _ => setRecv_connected ..) (fun _ => setRecv_socket ..)
    fun _ => setRecv_send ..

theorem write (h : Party w script n) (pkt : List Byte) (hroom : n + pkt.length ≤ bufSize) :
    ∃ b, (w.sessions 0).mSendBuffer.write pkt pkt.length = .ok (true, b) ∧
      Party (w.modify 0 fun s => { s with mSendBuffer := b }) script (n + pkt.length) := by
  have hinv := h.send 0 (by decide)
  have hfree := hinv.room_at_start h.front
  rw [h.waiting, h.sendSize] at hfree
  obtain ⟨b, hb, ha⟩ := hinv.write_accepted (Nat.le_refl pkt.length) (by omega)
  rw [List.take_length] at ha
  have hlen := congrArg List.length ha.contents_eq
  rw [List.length_append, h.waiting] at hlen
  have hconn : ∀ s, ((w.modify 0 fun s => { s with mSendBuffer := b }).sessions s).mConnected =
      (w.sessions s).mConnected := fun s => modify_keeps w 0 s fun _ => rfl
  refine ⟨b, hb, h.env, h.fault, h.keys, h.player, h.stranger, fun s hs => ?_, ?_,
    fun s hs => ?_, ?_, ?_, ?_⟩
  · exact (hconn s).trans (h.connected s hs)
  · rw [modify_sessions, if_pos rfl]
    exact h.socket
  · rw [modify_sessions]
    split_ifs
    · exact ha.inv
    · exact h.send s hs
  · rw [modify_sessions, if_pos rfl]
    exact ha.length_eq.trans h.sendSize
  · rw [modify_sessions, if_pos rfl]
    exact ha.front.1.trans h.front
  · rw [modify_sessions, if_pos rfl]
    exact hlen

theorem login (hE : Scripted E) {rest : List Byte} (h : Party w script 0)
    (hr : (w.sessions 0).mRecvBuffer.Inv)
    (hc : (w.sessions 0).mRecvBuffer.contents = (loginRequest 1).toBytes ++ rest)
    (hm : w.gameLift.mPlayerSessions = ∅) :
    ∃ w', dispatchStep E 0 w = ⟨w', .dispatching 0⟩ ∧ Party w' script 132 ∧
      w'.gameLift.mPlayerSessions = {0} ∧
      w'.gameLift.issued = .acceptPlayerSession 0 [1] true :: w.gameLift.issued ∧
      (w'.sessions 0).mPlayerSessionId = [1] ∧ (w'.sessions 0).mRecvBuffer.Inv ∧
      (w'.sessions 0).mRecvBuffer.contents = rest ∧
      (w'.sessions 1).mRecvBuffer = (w.sessions 1).mRecvBuffer := by
  have hf : frameOf (w.sessions 0).mRecvBuffer.contents =
      .parsed .login (loginRequest 1).toBytes rest :=
    hc.symm ▸ ClientPacket.frameOf_toBytes (loginRequest 1) rest
  obtain ⟨b, hb, hrest, hnext, hstep⟩ := dispatchStep_parsed (E := E) hr hf
  have hid : cString (imagePlayerId (loginRequest 1).toBytes) = some [1] :=
    loginRequest_id (by decide)
  have hacc : (w.setRecv 0 b).answered E 0 [1] = { w.setRecv 0 b with gameLift :=
      { w.gameLift with
        issued := .acceptPlayerSession 0 [1] true :: w.gameLift.issued
        mAcceptedCount := w.gameLift.mAcceptedCount + 1
        mPlayerSessions := insert 0 w.gameLift.mPlayerSessions } } := by
    rw [answered]
    simp only [hE.accept, if_true]
    rfl
  have hlogged : Party (((w.setRecv 0 b).answered E 0 [1]).setId 0 [1]) script 0 := by
    rw [hacc]
    refine h.of_eq h.env h.fault rfl (fun s => ?_) (fun s => ?_) fun s => ?_
    · rw [setId_connected]
      exact setRecv_connected ..
    · rw [setId_socket]
      exact setRecv_socket ..
    · rw [setId_send]
      exact setRecv_send ..
  have hlen : (loginReply 1).length = 132 := rfl
  obtain ⟨b', hb', hw'⟩ := hlogged.write (loginReply 1) (by rw [hlen]; decide)
  rw [hlen] at hb' hw'
  have hwelcome := welcome_accepted (E := E) (hlogged.connected 0 (by decide)) hb'
  have hhandle : handlePacket E 0 .login (loginRequest 1).toBytes (w.setRecv 0 b) =
      (w.setRecv 0 b).playerLogin E 0 [1] := by
    rw [handlePacket]
    simp only [hid]
  have hlogin : (w.setRecv 0 b).playerLogin E 0 [1] =
      ((w.setRecv 0 b).answered E 0 [1]).welcome E 0 [1] :=
    playerLogin_accepted (by rw [hE.accept])
  rw [hhandle, hlogin, hwelcome] at hstep
  refine ⟨_, hstep, hw', ?_, congrArg (fun r => r.gameLift.issued) hacc, ?_, ?_, ?_, ?_⟩
  · rw [hacc]
    change insert 0 w.gameLift.mPlayerSessions = {0}
    rw [hm]
    rfl
  · rw [modify_sessions, if_pos rfl]
    simp
  · rw [hacc]
    simpa [Server.setId, Server.setRecv] using hb
  · rw [hacc]
    simpa [Server.setId, Server.setRecv] using hrest
  · rw [hacc]
    simp [Server.setId, Server.setRecv]

end Party

def chatRequest : ClientPacket :=
  ⟨.chat, List.replicate 256 0, by rw [List.length_replicate]; rfl⟩

def chatReply : List Byte :=
  headerBytes 260 12 ++ ((0 :: List.replicate 127 0) ++ 0 :: List.replicate 127 0)

theorem chatRequest_length : chatRequest.toBytes.length = 260 := chatRequest.length_toBytes

theorem chatReply_length : chatReply.length = 260 := by decide +kernel

theorem chatReply_size : sizeT (PacketHeader.ofBytes chatReply).mSize = 260 := by
  rw [chatReply, ofBytes_headerBytes (by decide) (by decide)]
  rfl

theorem chatBroadcastResult_empty : chatBroadcastResult [] [] = .ok chatReply := by
  have hcopy : strcpy (List.replicate 128 0) [] = .ok (0 :: List.replicate 127 0) := by
    simp [strcpy]
  rw [chatBroadcastResult, maxSessionLen, maxChatLen, hcopy, ok_bind, ok_bind, pure_eq_ok]
  rfl

/-- The player is in the game, and `k` chat requests of the stranger are to be handled. -/
structure Flood (w : Server (List ReadResult)) (script : List ReadResult) (n k : Nat) : Prop where
  party : Party w script n
  members : w.gameLift.mPlayerSessions = {0}
  id : (w.sessions 0).mPlayerSessionId ≠ []
  recv : (w.sessions 1).mRecvBuffer.Inv
  contents : (w.sessions 1).mRecvBuffer.contents =
    Framing.stream ClientPacket.toBytes (List.replicate k chatRequest)

namespace Flood

variable {E : Env (List ReadResult)} {w : Server (List ReadResult)} {script : List ReadResult}
  {n k : Nat}

theorem chat (h : Flood w script n (k + 1)) :
    ∃ b, Flood (w.setRecv 1 b) script n k ∧ dispatchStep E 1 w =
      ⟨(w.setRecv 1 b).broadcastMessage E chatReply, .dispatching 1⟩ := by
  have hf := chatRequest.frameOf_toBytes
    (Framing.stream ClientPacket.toBytes (List.replicate k chatRequest))
  rw [← Framing.stream_cons, ← List.replicate_succ, ← h.contents] at hf
  obtain ⟨b, hb, hrest, -, hstep⟩ := dispatchStep_parsed (E := E) h.recv hf
  have hid : cString (imagePlayerId chatRequest.toBytes) = some [] := by decide +kernel
  have htext : cString (imageChat chatRequest.toBytes) = some [] := by decide +kernel
  have hhandle : handlePacket E 1 .chat chatRequest.toBytes (w.setRecv 1 b) =
      (w.setRecv 1 b).broadcastMessage E chatReply := by
    rw [handlePacket]
    simp only [hid, htext, chatBroadcastResult_empty]
  refine ⟨b, ⟨?_, h.members, ?_, ?_, ?_⟩, ?_⟩
  · exact h.party.of_eq h.party.env h.party.fault rfl (fun _ => setRecv_connected ..)
      (fun _ => setRecv_socket ..) fun _ => setRecv_send ..
  · rw [setRecv_id]
    exact h.id
  · simpa [Server.setRecv] using hb
  · simpa [Server.setRecv] using hrest
  · rw [← hhandle]
    exact hstep

theorem broadcast (h : Flood w script n k) (pkt : List Byte) :
    w.broadcastMessage E pkt = w.broadcastTo E pkt 0 := by
  rw [broadcastMessage, h.members, Finset.sort_singleton]
  rfl

theorem accepted (h : Flood w script n (k + 1)) (hroom : n + 260 ≤ bufSize) :
    ∃ w', dispatchStep E 1 w = ⟨w', .dispatching 1⟩ ∧ Flood w' script (n + 260) k := by
  obtain ⟨b, hv, hstep⟩ := h.chat
  rw [← chatReply_length] at hroom
  obtain ⟨b', hb', hp⟩ := hv.party.write chatReply hroom
  rw [chatReply_length, ← chatReply_size] at hb'
  rw [chatReply_length] at hp
  have hsend := sendRequest_accepted (E := E) (hv.party.connected 0 (by decide)) hb'
  have hto : (w.setRecv 1 b).broadcastMessage E chatReply =
      (w.setRecv 1 b).modify 0 fun s => { s with mSendBuffer := b' } := by
    have hin : 0 ∈ ((w.setRecv 1 b).modify 0 fun s =>
        { s with mSendBuffer := b' }).gameLift.mPlayerSessions := by
      change 0 ∈ w.gameLift.mPlayerSessions
      rw [h.members]
      exact Finset.mem_singleton_self 0
    rw [hv.broadcast, broadcastTo, hsend]
    exact if_pos hin
  rw [hto] at hstep
  refine ⟨_, hstep, hp, h.members, ?_, ?_, ?_⟩
  · rw [modify_sessions, if_pos rfl]
    exact hv.id
  · rw [modify_sessions, if_neg (by decide)]
    exact hv.recv
  · rw [modify_sessions, if_neg (by decide)]
    exact hv.contents

theorem run (j : Nat) :
    ∀ {w : Server (List ReadResult)} {n : Nat}, Flood w script n (j + k) → n + 260 * j ≤ bufSize →
      ∃ w', Relation.ReflTransGen (Inside E) ⟨w, .dispatching 1⟩ ⟨w', .dispatching 1⟩ ∧
        Flood w' script (n + 260 * j) k := by
  induction j with
  | zero =>
    intro w n hw _
    rw [Nat.zero_add] at hw
    exact ⟨w, .refl, hw⟩
  | succ j ih =>
    intro w n hw hfit
    have hmore : n + 260 * (j + 1) = n + 260 + 260 * j := by omega
    rw [hmore] at hfit ⊢
    rw [Nat.succ_add] at hw
    obtain ⟨v, hstep, hv⟩ := hw.accepted (E := E) ((Nat.le_add_right _ _).trans hfit)
    obtain ⟨w', hrun, hw'⟩ := ih hv hfit
    exact ⟨w', hrun.head (.dispatch hw.party.fault hstep), hw'⟩

end Flood

def opened (script : List ReadResult) : Server (List ReadResult) where
  env := script
  gameLift := .initialized
  sessions _ := ⟨[], false, 0, .new zeroBlock, .new zeroBlock⟩
  allocated := ∅
  mClientList := ⟨∅, fun _ => none⟩
  accepted _ := []
  fault := none

theorem opened_live (script : List ReadResult) (s : SessionId) : ¬(opened script).Live s := by
  rintro (h | ⟨k, h, -⟩) <;> cases h

theorem stranger_new (script : List ReadResult) :
    1 ∉ (((opened script).createClient 5 0 zeroBlock zeroBlock).onConnect 0).allocated ∧
      ∀ s, (((opened script).createClient 5 0 zeroBlock zeroBlock).onConnect 0).Live s →
        ((((opened script).createClient 5 0 zeroBlock zeroBlock).onConnect 0).sessions s).mSocket
          ≠ 6 := by
  constructor
  · change (1 : Nat) ∉ (insert 0 ∅ : Finset Nat)
    decide
  · rintro s (h | ⟨k, h, hv⟩)
    · cases h
    · change k ∈ ({5} : Finset Socket) at h
      rw [Finset.mem_singleton] at h
      subst h
      cases hv
      change (5 : Nat) ≠ 6
      decide

/-- Both clients are connected: the player as session `0`, the stranger as session `1`. -/
def gathered (script : List ReadResult) : Server (List ReadResult) :=
  (((((opened script).createClient 5 0 zeroBlock zeroBlock).onConnect 0).createClient 6 1
    zeroBlock zeroBlock).onConnect 1)

theorem gathered_party (script : List ReadResult) : Party (gathered script) script 0 where
  env := rfl
  fault := rfl
  keys := by
    change insert 6 (insert 5 ∅) = ({5, 6} : Finset Socket)
    decide
  player := rfl
  stranger := rfl
  connected s hs := by
    have hcases : s = 0 ∨ s = 1 := by omega
    rcases hcases with rfl | rfl
    · rfl
    · rfl
  socket := rfl
  send s hs := by
    have hcases : s = 0 ∨ s = 1 := by omega
    rcases hcases with rfl | rfl
    · exact CircularBuffer.inv_new zeroBlock
    · exact CircularBuffer.inv_new zeroBlock
  sendSize := zeroBlock_length
  front := rfl
  waiting := congrArg List.length (CircularBuffer.contents_new zeroBlock)

theorem new_room {bytes : List Byte} (h : bytes.length ≤ 10240) :
    bytes.length ≤ (CircularBuffer.new zeroBlock).freeSpace := by
  have hroom := (CircularBuffer.inv_new zeroBlock).room_at_start rfl
  rw [CircularBuffer.contents_new, List.length_nil, Nat.add_zero] at hroom
  rw [hroom]
  change bytes.length ≤ zeroBlock.cells.length
  rw [zeroBlock_length]
  exact h

/-- The player is the only member, and the stranger has sent nothing yet. -/
structure Seated (w : Server (List ReadResult)) (script : List ReadResult) : Prop where
  party : Party w script 132
  members : w.gameLift.mPlayerSessions = {0}
  issued : w.gameLift.issued = [.acceptPlayerSession 0 [1] true]
  id : (w.sessions 0).mPlayerSessionId = [1]
  silent : (w.sessions 1).mRecvBuffer = .new zeroBlock

/-- The player is the only member, and `bytes` of the stranger are to be dispatched. -/
structure Spoken (w : Server (List ReadResult)) (script : List ReadResult) (bytes : List Byte) :
    Prop where
  party : Party w script 132
  members : w.gameLift.mPlayerSessions = {0}
  issued : w.gameLift.issued = [.acceptPlayerSession 0 [1] true]
  id : (w.sessions 0).mPlayerSessionId = [1]
  recv : (w.sessions 1).mRecvBuffer.Inv
  contents : (w.sessions 1).mRecvBuffer.contents = bytes

section
variable {E : Env (List ReadResult)}

theorem Scripted.logsIn (hE : Scripted E) {rest : List Byte} (script : List ReadResult)
    (hlen : ((loginRequest 1).toBytes ++ rest).length ≤ 10240) :
    ∃ v, Relation.ReflTransGen (Inside E)
        ⟨gathered (.data ((loginRequest 1).toBytes ++ rest) :: script), .receiving 0⟩
        ⟨v, .dispatching 0⟩ ∧
      Party v script 132 ∧ v.gameLift.mPlayerSessions = {0} ∧
      v.gameLift.issued = [.acceptPlayerSession 0 [1] true] ∧
      (v.sessions 0).mPlayerSessionId = [1] ∧ (v.sessions 0).mRecvBuffer.Inv ∧
      (v.sessions 0).mRecvBuffer.contents = rest ∧
      (v.sessions 1).mRecvBuffer = .new zeroBlock := by
  have hparty := gathered_party (.data ((loginRequest 1).toBytes ++ rest) :: script)
  obtain ⟨b, ha, hread⟩ := hE.receive (gathered _) 0 hparty.env
    (CircularBuffer.inv_new zeroBlock) (new_room hlen)
  have hempty : ((gathered (.data ((loginRequest 1).toBytes ++ rest) :: script)).sessions
      0).mRecvBuffer.contents = [] := CircularBuffer.contents_new zeroBlock
  have hlogin : b.contents = (loginRequest 1).toBytes ++ rest := by
    rw [ha.contents_eq, hempty, List.nil_append]
  have hset := hparty.setRecv 0 b script
  obtain ⟨v, hstep, hv, hmembers, hissued, hid, hinv, hcont, hrecv⟩ :=
    hset.login hE (by simpa [Server.setRecv] using ha.inv)
      (by simpa [Server.setRecv] using hlogin) rfl
  have hfirst := Inside.receive hparty.fault hread
  have hsecond := Inside.dispatch hset.fault hstep
  refine ⟨v, (Relation.ReflTransGen.single hfirst).tail hsecond, hv, hmembers, hissued, hid, hinv,
    hcont, hrecv.trans ?_⟩
  simp [Server.setRecv, gathered, created_sessions]

theorem Scripted.seats (hE : Scripted E) (script : List ReadResult) :
    ∃ w, Relation.ReflTransGen (Inside E)
        ⟨gathered (.data (loginRequest 1).toBytes :: .eagain :: script), .receiving 0⟩ ⟨w, .idle⟩ ∧
      Seated w script := by
  have hbytes : ((loginRequest 1).toBytes ++ []).length ≤ 10240 := by
    rw [List.append_nil, loginRequest_length]
    decide
  obtain ⟨v, hlogin, hv, hmembers, hissued, hid, hinv, hcont, hrecv⟩ :=
    hE.logsIn (.eagain :: script) hbytes
  rw [List.append_nil] at hlogin
  have hwait := dispatchStep_waits (E := E) hinv (congrArg frameOf hcont)
  have hdrain : receiveStep E 0 _ = _ := hE.eagain (Or.inl hv.env)
  refine ⟨_, (hlogin.tail (.dispatch hv.fault hwait)).tail (.receive hv.fault hdrain),
    hv.setRecv 0 _ script, hmembers, hissued, ?_, ?_⟩
  · rw [setRecv_id, hid]
  · refine Eq.trans ?_ hrecv
    simp [Server.setRecv]

theorem Scripted.gathered_reachable (hE : Scripted E) (script : List ReadResult) :
    Reachable E Free ⟨gathered script, .idle⟩ := by
  have hinit : Reachable E Free ⟨opened script, .idle⟩ :=
    .init ⟨hE.starts script, rfl, rfl, rfl, fun _ => rfl, fun _ => rfl, rfl⟩
  have hplayer : Reachable E Free
      ⟨((opened script).createClient 5 0 zeroBlock zeroBlock).onConnect 0, .idle⟩ :=
    hinit.step rfl (.accept (Finset.notMem_empty 0)
      (fun s hs => absurd hs (opened_live script s)) zeroBlock_length zeroBlock_length) trivial
  obtain ⟨hfresh, hlive⟩ := stranger_new script
  exact hplayer.step rfl (.accept hfresh hlive zeroBlock_length zeroBlock_length) trivial

theorem Scripted.gathered_event (hE : Scripted E) (script : List ReadResult) :
    Reachable E Free ⟨gathered script, .receiving 0⟩ := by
  have hready : (gathered script).startReceive 5 = ⟨gathered script, .receiving 0⟩ := rfl
  exact hready ▸ (hE.gathered_reachable script).step rfl .readable trivial

theorem Scripted.seated_reachable (hE : Scripted E) (script : List ReadResult) :
    ∃ w, Reachable E Free ⟨w, .idle⟩ ∧ Seated w script := by
  obtain ⟨w, hinside, hw⟩ := hE.seats script
  exact ⟨w, (hE.gathered_event _).inside hinside, hw⟩

theorem Seated.readable {w : Server (List ReadResult)} {script : List ReadResult}
    (h : Seated w script) : w.startReceive 6 = ⟨w, .receiving 1⟩ := by
  have hin : 6 ∈ w.mClientList.keys := by
    rw [h.party.keys]
    decide
  have hv := h.party.stranger
  have hc := h.party.connected 1 (by decide)
  simp [startReceive, ClientList.subscript, hin, hv, hc]

theorem Seated.reads (hE : Scripted E) {w : Server (List ReadResult)} {script : List ReadResult}
    {bytes : List Byte} (h : Seated w (.data bytes :: script)) (hlen : bytes.length ≤ 10240) :
    ∃ w', Inside E ⟨w, .receiving 1⟩ ⟨w', .dispatching 1⟩ ∧ Spoken w' script bytes := by
  have hempty := h.silent
  obtain ⟨b, ha, hread⟩ := hE.receive w 1 h.party.env (hempty ▸ CircularBuffer.inv_new zeroBlock)
    (hempty ▸ new_room hlen)
  refine ⟨_, .receive h.party.fault hread, h.party.setRecv 1 b script, h.members, h.issued, ?_, ?_,
    ?_⟩
  · rw [setRecv_id, h.id]
  · simpa [Server.setRecv] using ha.inv
  · have hcont := ha.contents_eq
    rw [hempty, CircularBuffer.contents_new, List.nil_append] at hcont
    simpa [Server.setRecv] using hcont

theorem Scripted.spoken (hE : Scripted E) {bytes : List Byte} (hlen : bytes.length ≤ 10240) :
    ∃ w, Reachable E Free ⟨w, .dispatching 1⟩ ∧ Spoken w [] bytes := by
  obtain ⟨w, hreach, hw⟩ := hE.seated_reachable [.data bytes]
  have hready : Reachable E Free (w.startReceive 6) :=
    hreach.step hw.party.fault .readable trivial
  rw [hw.readable] at hready
  obtain ⟨v, hread, hv⟩ := hw.reads hE hlen
  exact ⟨v, hready.inside (.single hread), hv⟩

theorem chats_length {k : Nat} (hk : k ≤ 39) :
    (Framing.stream ClientPacket.toBytes (List.replicate k chatRequest)).length ≤ 10240 := by
  rw [Framing.stream, List.map_replicate, List.length_flatten, List.map_replicate,
    chatRequest_length, List.sum_replicate_nat]
  omega

theorem Spoken.flood {w : Server (List ReadResult)} {script : List ReadResult} {k : Nat}
    (h : Spoken w script (Framing.stream ClientPacket.toBytes (List.replicate k chatRequest))) :
    Flood w script 132 k := by
  refine ⟨h.party, h.members, ?_, h.recv, h.contents⟩
  rw [h.id]
  decide

/-- `j` chats of a stranger are in the player's send buffer, and `k` are to be handled. -/
theorem Scripted.flooded (hE : Scripted E) {j k : Nat} (hfew : j + k ≤ 39) (hfit : j ≤ 38) :
    ∃ w, Reachable E Free ⟨w, .dispatching 1⟩ ∧ Flood w [] (132 + 260 * j) k := by
  obtain ⟨w, hreach, hw⟩ := hE.spoken (chats_length hfew)
  have hroom : 132 + 260 * j ≤ bufSize := by
    rw [bufSize]
    omega
  obtain ⟨u, hrun, hu⟩ := hw.flood.run (E := E) j hroom
  exact ⟨u, hreach.inside hrun, hu⟩

end

end GameLift
