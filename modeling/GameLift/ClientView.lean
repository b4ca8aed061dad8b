import GameLift.ChatOrder

/-! What the players see: the bytes a session's socket has taken, cut in any way on the
wire, through the network thread of the Cocos client and onto its scene. -/

namespace GameLift

open Framing (Incomplete stream)
open ServerPacket (relayed)
open scoped List

/-- What a packet puts on the scene of a client that has been logged in. -/
def SceneCall.ofData : Result × List Byte → Option SceneCall
  | (.login, image) => (cString (imagePlayerId image)).map .cclog
  | (.chat, image) =>
    match cString (imagePlayerId image), cString (imageChat image) with
    | some mPlayerId, some mChat => some (.chatDraw mPlayerId mChat)
    | _, _ => none
  | (.move, image) =>
    let mPlayerIdx := int32 (Region.slice image sizeofPacketHeader 4)
    let mPosX := Region.slice image (sizeofPacketHeader + 4) 4
    let mPosY := Region.slice image (sizeofPacketHeader + 8) 4
    if mPlayerIdx = 416 then some (.updateMe mPosX mPosY)
    else some (.updatePeer mPlayerIdx mPosX mPosY)

def ServerPacket.sceneCall (p : ServerPacket) : Option SceneCall := SceneCall.ofData p.recvData

namespace SceneCall

/-- A LoginResult is only logged. -/
def isDrawn : SceneCall → Bool
  | .cclog _ => false
  | _ => true

def ofBytes (bytes : List Byte) : Option SceneCall :=
  (Result.ofType (PacketHeader.ofBytes bytes).mType).bind fun kind => ofData (kind, bytes)

theorem ofBytes_toBytes (p : ServerPacket) : ofBytes p.toBytes = p.sceneCall := by
  have hhead := p.header_toBytes []
  rw [List.append_nil] at hhead
  rw [ofBytes, hhead, Result.ofType_pktType]
  rfl

theorem ofData_login {image : List Byte} {call : SceneCall}
    (h : ofData (.login, image) = some call) : call.isDrawn = false := by
  obtain ⟨id, -, rfl⟩ := Option.map_eq_some_iff.mp h
  rfl

theorem ofData_drawn {kind : Result} {image : List Byte} {call : SceneCall} (hkind : kind ≠ .login)
    (h : ofData (kind, image) = some call) : call.isDrawn = true := by
  cases kind with
  | login => exact absurd rfl hkind
  | chat =>
    rw [ofData] at h
    cases hid : cString (imagePlayerId image) with
    | none => simp [hid] at h
    | some id =>
      cases hchat : cString (imageChat image) with
      | none => simp [hid, hchat] at h
      | some chat =>
        simp only [hid, hchat, Option.some.injEq] at h
        rw [← h]
        rfl
  | move =>
    rw [ofData] at h
    split_ifs at h <;>
      cases h <;>
      rfl

/-- What is drawn comes from the broadcasts alone. -/
theorem drawn_relayed (packets : List ServerPacket) :
    (packets.filterMap ServerPacket.sceneCall).filter isDrawn =
      (relayed packets).filterMap ofBytes := by
  induction packets with
  | nil => rfl
  | cons p packets ih =>
    have hsplit : relayed (p :: packets) = relayed [p] ++ relayed packets :=
      ServerPacket.relayed_append [p] packets
    rw [hsplit, List.filterMap_append, ← ih]
    cases hcall : p.sceneCall with
    | none =>
      rw [List.filterMap_cons_none hcall]
      by_cases hkind : p.kind = .login
      · rw [ServerPacket.relayed_login hkind]
        rfl
      · rw [ServerPacket.relayed_broadcast hkind, List.filterMap_cons_none]
        · rfl
        · rw [ofBytes_toBytes, hcall]
    | some call =>
      rw [List.filterMap_cons_some hcall]
      by_cases hkind : p.kind = .login
      · rw [ServerPacket.sceneCall, ServerPacket.recvData, hkind] at hcall
        rw [ServerPacket.relayed_login hkind, List.filter_cons_of_neg]
        · rfl
        · rw [ofData_login hcall]
          exact Bool.false_ne_true
      · rw [ServerPacket.relayed_broadcast hkind,
          List.filterMap_cons_some ((ofBytes_toBytes p).trans hcall),
          List.filter_cons_of_pos (ofData_drawn hkind hcall)]
        rfl

end SceneCall

namespace Scene

theorem handle_logged {s : Scene} {p : ServerPacket} (hp : p.Terminated)
    (hs : p.kind = .login ∨ s.mLoginId = 416) :
    (s.handle p.recvData).mLoginId = 416 ∧
      (s.handle p.recvData).calls = s.calls ++ p.sceneCall.toList := by
  rw [ServerPacket.Terminated] at hp
  rw [ServerPacket.sceneCall, ServerPacket.recvData]
  cases hk : p.kind with
  | login =>
    simp only [hk] at hp
    obtain ⟨id, hid⟩ := Option.isSome_iff_exists.mp hp
    simp [handle, hid, call, SceneCall.ofData]
  | chat =>
    simp only [hk] at hp hs
    obtain ⟨id, hid⟩ := Option.isSome_iff_exists.mp hp.1
    obtain ⟨chat, hchat⟩ := Option.isSome_iff_exists.mp hp.2
    have hlogin := hs.resolve_left (by simp)
    simp [handle, hid, hchat, call, SceneCall.ofData, hlogin]
  | move =>
    rw [hk] at hs
    have hlogin := hs.resolve_left (by simp)
    rw [handle, SceneCall.ofData, hlogin]
    split_ifs <;>
      simp [call, hlogin]

theorem foldl_logged {packets : List ServerPacket} (hp : ∀ p ∈ packets, p.Terminated) {s : Scene}
    (hs : (∀ p ∈ packets.head?, p.kind = .login) ∨ s.mLoginId = 416) :
    (packets ≠ [] → ((packets.map ServerPacket.recvData).foldl handle s).mLoginId = 416) ∧
      ((packets.map ServerPacket.recvData).foldl handle s).calls =
        s.calls ++ packets.filterMap ServerPacket.sceneCall := by
  induction packets generalizing s with
  | nil => exact ⟨fun h => absurd rfl h, (List.append_nil _).symm⟩
  | cons p packets ih =>
    have hfirst : p.kind = .login ∨ s.mLoginId = 416 := hs.imp_left fun h => h p rfl
    obtain ⟨hid, hcalls⟩ := handle_logged (hp p List.mem_cons_self) hfirst
    obtain ⟨hlater, hall⟩ := ih (fun q hq => hp q (List.mem_cons_of_mem _ hq)) (Or.inr hid)
    rw [List.map_cons, List.foldl_cons]
    refine ⟨fun _ => ?_, ?_⟩
    · cases packets with
      | nil => exact hid
      | cons q qs => exact hlater (List.cons_ne_nil _ _)
    · rw [hall, hcalls, List.append_assoc]
      cases hcall : p.sceneCall with
      | none => rw [List.filterMap_cons_none hcall, Option.toList_none, List.nil_append]
      | some call => rw [List.filterMap_cons_some hcall, Option.toList_some, List.singleton_append]

end Scene

open Server

variable {ε : Type} {E : Env ε}

/-- The client on the other end of `s`, once `chunks` have come out of its socket. -/
structure Follows (packets handled : List ServerPacket) (client : TcpClient) : Prop where
  first : handled <+: packets
  decoded : client.decoded = handled.map ServerPacket.recvData
  overread : client.scene.overread = 0
  calls : client.scene.calls = handled.filterMap ServerPacket.sceneCall
  login : handled ≠ [] → client.scene.mLoginId = 416

theorem Server.Speaks.followed {w : Server ε} {s : SessionId} {packets : List ServerPacket}
    (h : Speaks w s packets) {block : Block} (hsize : block.cells.length = TcpClient.bufSize)
    {chunks : List (List Byte)} {rest : List Byte} (hcut : chunks.flatten ++ rest = w.outgoing s)
    (hshort : ∀ chunk ∈ chunks, chunk.length ≤ 4096) :
    ∃ handled client, (∃ fuel, TcpClient.networkThread fuel (.new block) chunks = some (.ok client)) ∧
      Follows packets handled client ∧ (rest = [] → handled = packets) := by
  have hnew : (TcpClient.new block).mRecvBuffer.contents = [] := CircularBuffer.contents_new block
  have hstart : Incomplete ServerPacket.toBytes (TcpClient.new block).mRecvBuffer.contents
      packets := by
    rw [hnew]
    cases packets with
    | nil => rfl
    | cons p ps => exact List.length_pos_iff.mpr p.toBytes_ne_nil
  have hall : [] ++ chunks.flatten ++ rest = stream ServerPacket.toBytes ([] ++ packets) :=
    hcut.trans h.bytes
  obtain ⟨handled, pending, client, rfl, hrun, hs, hi⟩ :=
    (TcpClient.synced_new hsize).run hstart hall hshort
  rw [List.nil_append] at hs
  have hterm : ∀ p ∈ handled, p.Terminated := fun p hp =>
    h.terminated p (List.mem_append_left _ hp)
  have hfirst : ∀ p ∈ handled.head?, p.kind = .login := by
    cases handled with
    | nil => exact fun p hp => by cases hp
    | cons q qs => exact h.login
  obtain ⟨hid, hcalls⟩ := Scene.foldl_logged hterm (s := .init) (Or.inl hfirst)
  refine ⟨handled, client, hrun, ⟨List.prefix_append .., hs.decoded, ?_, ?_, ?_⟩, fun hnil => ?_⟩
  · rw [hs.scene, hs.decoded]
    exact Scene.foldl_overread _ hterm
  · rw [hs.scene, hs.decoded]
    exact hcalls
  · rw [hs.scene, hs.decoded]
    exact hid
  · rw [hnil, List.append_nil] at hall
    change chunks.flatten = _ at hall
    have hbytes := hs.bytes
    rw [List.nil_append] at hbytes
    rw [hbytes, List.nil_append, Framing.stream_append, List.append_cancel_left_eq] at hall
    rw [(hi.finished hall).1, List.append_nil]

/-- A network may deliver one byte at a time. -/
theorem TcpClient.flatten_bytes (bytes : List Byte) :
    (bytes.map fun b => [b]).flatten = bytes ∧
      ∀ chunk ∈ bytes.map fun b => [b], chunk.length ≤ 4096 := by
  refine ⟨?_, fun chunk hchunk => ?_⟩
  · induction bytes with
    | nil => rfl
    | cons b bytes ih => rw [List.map_cons, List.flatten_cons, ih, List.singleton_append]
  · obtain ⟨b, -, rfl⟩ := List.mem_map.mp hchunk
    exact Nat.le_add_left 1 4095

/-- Positions are images of floats; a peer is there once it has been drawn. -/
structure HelloWorld where
  mPlayerSprite : List Byte × List Byte
  mPeerMap : Int → Option (List Byte × List Byte)

namespace HelloWorld

def updateMe (layer : HelloWorld) (x y : List Byte) : HelloWorld :=
  { layer with mPlayerSprite := (x, y) }

def updatePeer (layer : HelloWorld) (id : Int) (x y : List Byte) : HelloWorld :=
  { layer with mPeerMap := Function.update layer.mPeerMap id (some (x, y)) }

/-- `chatDraw` only logs. -/
def perform (layer : HelloWorld) : SceneCall → HelloWorld
  | .cclog _ => layer
  | .chatDraw _ _ => layer
  | .updateMe x y => layer.updateMe x y
  | .updatePeer id x y => layer.updatePeer id x y

/-- The layer after `init`, with the sprite in the middle of the window. -/
def init (centre : List Byte × List Byte) : HelloWorld := ⟨centre, fun _ => none⟩

/-- The peers of `layer` stand in `layer'` where they stand in `layer`. -/
def PeersIn (layer layer' : HelloWorld) : Prop :=
  ∀ id place, layer.mPeerMap id = some place → layer'.mPeerMap id = some place

theorem PeersIn.perform {layer layer' : HelloWorld} (h : PeersIn layer layer') (call : SceneCall) :
    PeersIn (layer.perform call) (layer'.perform call) := by
  cases call with
  | updatePeer id x y =>
    intro k place hk
    change Function.update layer.mPeerMap id (some (x, y)) k = some place at hk
    change Function.update layer'.mPeerMap id (some (x, y)) k = some place
    by_cases he : k = id
    · subst he
      rwa [Function.update_self] at hk ⊢
    · rw [Function.update_of_ne he] at hk ⊢
      exact h k place hk
  | _ => exact h

theorem PeersIn.foldl {layer layer' : HelloWorld} (h : PeersIn layer layer')
    (calls : List SceneCall) :
    PeersIn (calls.foldl HelloWorld.perform layer) (calls.foldl HelloWorld.perform layer') := by
  induction calls generalizing layer layer' with
  | nil => exact h
  | cons call calls ih => exact ih (h.perform call)

end HelloWorld

end GameLift
