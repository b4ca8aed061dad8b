import Mathlib.Data.List.TakeWhile
import GameLift.ClientView
import GameLift.SenderOrder

/-! What a player asks of the Cocos client, on its way through the server to the scenes of
all players. -/

namespace GameLift

open Framing (stream)
open OrderedBroadcast (readEach)
open Server
open ServerPacket (relayed)
open scoped List

/-- A terminated string, without its terminator. -/
structure CText where
  bytes : List Byte
  nonzero : 0 ∉ bytes

/-- The string that `c_str()` points to. -/
def CText.ofString (s : List Byte) : CText :=
  ⟨s.takeWhile (· ≠ 0), fun h => absurd (List.mem_takeWhile_imp h) (by decide)⟩

/-- The image of a `float`. -/
structure FloatImage where
  bytes : List Byte
  length_bytes : bytes.length = 4

def int32Bytes (n : Int) : List Byte :=
  let m := (n % 4294967296).toNat
  [UInt8.ofNat m, UInt8.ofNat (m / 256), UInt8.ofNat (m / 65536), UInt8.ofNat (m / 16777216)]

/-- `sprintf_s` of a text into an array; one that does not fit ends the process. -/
def sprintf_s (dest s : List Byte) : Except Fault (List Byte) :=
  if s.length < dest.length then .ok (s ++ 0 :: dest.drop (s.length + 1)) else .error .assertFailed

def memcpy (dest src : List Byte) : Except Fault (List Byte) :=
  if src.length ≤ dest.length then .ok (src ++ dest.drop src.length) else .error .outOfBounds

/-- A call of one of the three requests. -/
inductive UserRequest where
  | login (playerSessionId : List Byte)
  | chat (chat : CText)
  | move (x y : FloatImage)

namespace TcpClient

def loginRequest (mLoginId : Int) (playerSessionId : List Byte) :
    Except Fault (Option (List Byte)) :=
  if 0 < mLoginId then .ok none
  else do
    let mPlayerId ← sprintf_s (List.replicate maxSessionLen 0) (CText.ofString playerSessionId).bytes
    return some (headerBytes (sizeofPacketHeader + maxSessionLen) pktCsLogin ++ mPlayerId)

def playerName (mLoginId : Int) : List Byte := asciiBytes ("Player" ++ toString mLoginId)

def chatRequest (mLoginId : Int) (chat : CText) : Except Fault (Option (List Byte)) :=
  if mLoginId < 0 then .ok none
  else do
    let mPlayerId ← sprintf_s (List.replicate maxSessionLen 0) (playerName mLoginId)
    -- The terminator is not copied.
    let mChat ← memcpy (List.replicate maxChatLen 0) chat.bytes
    return some (headerBytes (sizeofPacketHeader + maxSessionLen + maxChatLen) pktCsChat ++
      (mPlayerId ++ mChat))

def moveRequest (mLoginId : Int) (x y : FloatImage) : Except Fault (Option (List Byte)) :=
  if mLoginId < 0 then .ok none
  else .ok (some (headerBytes (sizeofPacketHeader + 4 + 4 + 4) pktCsMove ++
    (int32Bytes mLoginId ++ (x.bytes ++ y.bytes))))

/-- What is given to `send`. -/
def request (mLoginId : Int) : UserRequest → Except Fault (Option (List Byte))
  | .login playerSessionId => loginRequest mLoginId playerSessionId
  | .chat chat => chatRequest mLoginId chat
  | .move x y => moveRequest mLoginId x y

/-- All that a client sends, by what its `m_loginId` is at each call. -/
def requests : List (Int × UserRequest) → Except Fault (List Byte)
  | [] => .ok []
  | (mLoginId, r) :: later => do
    let data ← request mLoginId r
    let rest ← requests later
    return data.getD [] ++ rest

end TcpClient

/-- What the request puts on the scenes of the players. -/
def UserRequest.drawn : Int × UserRequest → Option SceneCall
  | (_, .login _) => none
  | (mLoginId, .chat text) =>
    if mLoginId < 0 ∨ maxChatLen ≤ text.bytes.length then none
    else some (.chatDraw (TcpClient.playerName mLoginId) text.bytes)
  | (mLoginId, .move x y) => if mLoginId < 0 then none else some (.updateMe x.bytes y.bytes)

theorem int32_int32Bytes {n : Int} (hlow : -2147483648 ≤ n) (hhigh : n < 2147483648)
    (rest : List Byte) : int32 (int32Bytes n ++ rest) = n := by
  obtain ⟨m, hm⟩ : ∃ m, m = (n % 4294967296).toNat := ⟨_, rfl⟩
  have hbound : m < 4294967296 := by omega
  have hvalue : (UInt8.ofNat m).toNat + 256 * (UInt8.ofNat (m / 256)).toNat +
      65536 * (UInt8.ofNat (m / 65536)).toNat + 16777216 * (UInt8.ofNat (m / 16777216)).toNat =
        m := by
    simp only [UInt8.toNat_ofNat']
    omega
  rw [int32Bytes, ← hm]
  simp only [int32, List.cons_append, List.getD_cons_zero, List.getD_cons_succ, hvalue]
  split_ifs <;> omega

theorem sprintf_s_eq {dest s out : List Byte} (h : sprintf_s dest s = .ok out) :
    s.length < dest.length ∧ out = s ++ 0 :: dest.drop (s.length + 1) ∧
      out.length = dest.length := by
  rw [sprintf_s] at h
  split_ifs at h with hlt
  have hout := (Except.ok.inj h).symm
  refine ⟨hlt, hout, ?_⟩
  rw [hout, List.length_append, List.length_cons, List.length_drop]
  omega

theorem memcpy_eq {dest src out : List Byte} (h : memcpy dest src = .ok out) :
    src.length ≤ dest.length ∧ out = src ++ dest.drop src.length ∧ out.length = dest.length := by
  rw [memcpy] at h
  split_ifs at h with hle
  have hout := (Except.ok.inj h).symm
  refine ⟨hle, hout, ?_⟩
  rw [hout, List.length_append, List.length_drop]
  omega

theorem cString_unended {field : List Byte} (h : 0 ∉ field) : cString field = none := by
  induction field with
  | nil => rfl
  | cons b field ih =>
    rw [List.mem_cons, not_or] at h
    rw [cString, if_neg (Ne.symm h.1), ih h.2]
    rfl

/-- What `memcpy` leaves of a zeroed array ends the string, if anything is left of it. -/
theorem cString_memcpy {text : CText} {size : Nat} {out : List Byte}
    (h : memcpy (List.replicate size 0) text.bytes = .ok out) :
    cString out = if size ≤ text.bytes.length then none else some text.bytes := by
  obtain ⟨hle, hout, -⟩ := memcpy_eq h
  rw [List.length_replicate] at hle
  rw [hout, List.drop_replicate]
  split_ifs with hfull
  · rw [show size - text.bytes.length = 0 by omega, List.replicate_zero, List.append_nil]
    exact cString_unended text.nonzero
  · obtain ⟨k, hk⟩ : ∃ k, size - text.bytes.length = k + 1 := ⟨size - text.bytes.length - 1, by omega⟩
    rw [hk, List.replicate_succ]
    exact cString_terminated text.nonzero _

theorem chatBroadcastResult_drawn {id chat pkt : List Byte} (hid : id.length < 128)
    (hchat : chat.length < 128) (hid0 : 0 ∉ id) (hchat0 : 0 ∉ chat)
    (h : chatBroadcastResult id chat = .ok pkt) :
    SceneCall.ofBytes pkt = some (.chatDraw id chat) := by
  obtain ⟨pkt', hpkt, hid', hchat'⟩ := chatBroadcastResult_fields hid hchat hid0 hchat0
  obtain rfl : pkt' = pkt := Except.ok.inj (hpkt.symm.trans h)
  obtain ⟨a, ha, -⟩ := strcpy_fits (List.replicate maxSessionLen 0) id
    (by rwa [List.length_replicate])
  obtain ⟨b, hb, -⟩ := strcpy_fits (List.replicate maxChatLen 0) chat
    (by rwa [List.length_replicate])
  rw [chatBroadcastResult, ha, ok_bind, hb, ok_bind, pure_eq_ok] at h
  have hhead : PacketHeader.ofBytes pkt' =
      ⟨(sizeofPacketHeader + maxSessionLen + maxChatLen : Nat), pktScChat⟩ := by
    rw [← Except.ok.inj h]
    exact ofBytes_headerBytes (by decide) (by decide) _
  have hkind : Result.ofType pktScChat = some .chat := rfl
  rw [SceneCall.ofBytes, hhead]
  dsimp only
  rw [hkind, Option.bind_some, SceneCall.ofData, hid', hchat']

theorem moveBroadcastResult_drawn {n : Int} (hlow : -2147483648 ≤ n) (hhigh : n < 2147483648)
    (x y : FloatImage) :
    SceneCall.ofBytes (moveBroadcastResult (int32Bytes n ++ (x.bytes ++ y.bytes))) =
      some (if n = 416 then .updateMe x.bytes y.bytes else .updatePeer n x.bytes y.bytes) := by
  have hhead : PacketHeader.ofBytes (moveBroadcastResult (int32Bytes n ++ (x.bytes ++ y.bytes))) =
      ⟨(sizeofPacketHeader + 12 : Nat), pktScMove⟩ :=
    ofBytes_headerBytes (by decide) (by decide) _
  have hkind : Result.ofType pktScMove = some .move := rfl
  have hheader : (headerBytes (sizeofPacketHeader + 12) pktScMove).length = 4 := rfl
  have hindex : Region.slice (moveBroadcastResult (int32Bytes n ++ (x.bytes ++ y.bytes)))
      sizeofPacketHeader 4 = int32Bytes n := Region.slice_middle hheader rfl
  have hx : Region.slice (moveBroadcastResult (int32Bytes n ++ (x.bytes ++ y.bytes)))
      (sizeofPacketHeader + 4) 4 = x.bytes := by
    rw [moveBroadcastResult, ← List.append_assoc]
    exact Region.slice_middle rfl x.length_bytes
  have hy : Region.slice (moveBroadcastResult (int32Bytes n ++ (x.bytes ++ y.bytes)))
      (sizeofPacketHeader + 8) 4 = y.bytes := by
    have hlast : moveBroadcastResult (int32Bytes n ++ (x.bytes ++ y.bytes)) =
        (headerBytes (sizeofPacketHeader + 12) pktScMove ++ int32Bytes n ++ x.bytes) ++
          (y.bytes ++ []) := by
      rw [moveBroadcastResult, List.append_nil, List.append_assoc, List.append_assoc]
    rw [hlast]
    refine Region.slice_middle ?_ y.length_bytes
    rw [List.length_append, x.length_bytes]
    rfl
  have hint := int32_int32Bytes hlow hhigh []
  rw [List.append_nil] at hint
  rw [SceneCall.ofBytes, hhead]
  dsimp only
  rw [hkind, Option.bind_some, SceneCall.ofData, hindex, hx, hy, hint]
  split_ifs <;> rfl

namespace TcpClient

theorem loginRequest_packet {mLoginId : Int} {id bytes : List Byte}
    (h : loginRequest mLoginId id = .ok (some bytes)) :
    ∃ p : ClientPacket, bytes = p.toBytes ∧ p.broadcast = none := by
  rw [loginRequest] at h
  split_ifs at h
  · cases h
  cases hid : sprintf_s (List.replicate maxSessionLen 0) (CText.ofString id).bytes with
  | error f => simp [hid, bind, Except.bind] at h
  | ok out =>
    rw [hid, ok_bind, pure_eq_ok, Except.ok.injEq, Option.some.injEq] at h
    obtain ⟨-, -, hlen⟩ := sprintf_s_eq hid
    rw [List.length_replicate] at hlen
    have hpayload : sizeofPacketHeader + out.length = Request.login.structSize := by
      rw [hlen]
      rfl
    exact ⟨⟨.login, out, hpayload⟩, h.symm, rfl⟩

theorem playerName_cocos : (playerName 416).length = 9 ∧ 0 ∉ playerName 416 := by
  decide +kernel

theorem chatRequest_packet {text : CText} {bytes : List Byte}
    (h : chatRequest 416 text = .ok (some bytes)) :
    ∃ p : ClientPacket, bytes = p.toBytes ∧
      p.broadcast.bind SceneCall.ofBytes = UserRequest.drawn (416, .chat text) := by
  rw [chatRequest, if_neg (by decide)] at h
  cases hname : sprintf_s (List.replicate maxSessionLen 0) (playerName 416) with
  | error f => simp [hname, bind, Except.bind] at h
  | ok name =>
    cases htext : memcpy (List.replicate maxChatLen 0) text.bytes with
    | error f => simp [hname, htext, bind, Except.bind] at h
    | ok field =>
      rw [hname, ok_bind, htext, ok_bind, pure_eq_ok, Except.ok.injEq, Option.some.injEq] at h
      obtain ⟨hnamelt, hnameeq, hnamelen⟩ := sprintf_s_eq hname
      obtain ⟨-, -, hfieldlen⟩ := memcpy_eq htext
      rw [List.length_replicate] at hnamelt hnamelen hfieldlen
      have hpayload : sizeofPacketHeader + (name ++ field).length = Request.chat.structSize := by
        rw [List.length_append, hnamelen, hfieldlen]
        rfl
      have hheader : ∀ n, (headerBytes n pktCsChat).length = sizeofPacketHeader := fun _ => rfl
      have hid : cString (imagePlayerId bytes) = some (playerName 416) := by
        rw [← h, imagePlayerId, Region.slice_middle (hheader _) hnamelen, hnameeq]
        exact cString_terminated playerName_cocos.2 _
      have hchat : imageChat bytes = field := by
        have hslice : Region.slice (headerBytes (sizeofPacketHeader + maxSessionLen + maxChatLen)
            pktCsChat ++ name ++ (field ++ [])) (sizeofPacketHeader + maxSessionLen) maxChatLen =
              field := by
          refine Region.slice_middle ?_ hfieldlen
          rw [List.length_append, hnamelen, hheader]
        rw [← h, imageChat]
        rwa [List.append_nil, List.append_assoc] at hslice
      refine ⟨⟨.chat, name ++ field, hpayload⟩, h.symm, ?_⟩
      change (broadcastOf .chat (ClientPacket.toBytes ⟨.chat, name ++ field, hpayload⟩)).bind _ = _
      rw [show ClientPacket.toBytes ⟨.chat, name ++ field, hpayload⟩ = bytes from h, broadcastOf,
        hid, hchat, cString_memcpy htext, UserRequest.drawn]
      by_cases hlong : maxChatLen ≤ text.bytes.length
      · rw [if_pos hlong, if_pos (Or.inr hlong)]
        rfl
      · rw [if_neg hlong, if_neg (not_or.mpr ⟨by decide, hlong⟩)]
        have hshort : text.bytes.length < 128 := Nat.lt_of_not_le hlong
        have hnameshort : (playerName 416).length < 128 := by
          rw [playerName_cocos.1]
          decide
        obtain ⟨pkt, hpkt, -⟩ := chatBroadcastResult_fields hnameshort hshort playerName_cocos.2
          text.nonzero
        dsimp only
        rw [hpkt]
        exact chatBroadcastResult_drawn hnameshort hshort playerName_cocos.2 text.nonzero hpkt

theorem moveRequest_packet {x y : FloatImage} {bytes : List Byte}
    (h : moveRequest 416 x y = .ok (some bytes)) :
    ∃ p : ClientPacket, bytes = p.toBytes ∧
      p.broadcast.bind SceneCall.ofBytes = UserRequest.drawn (416, .move x y) := by
  rw [moveRequest, if_neg (by decide), Except.ok.injEq, Option.some.injEq] at h
  have hlen : (int32Bytes 416 ++ (x.bytes ++ y.bytes)).length = 12 := by
    rw [List.length_append, List.length_append, x.length_bytes, y.length_bytes]
    rfl
  have hpayload : sizeofPacketHeader + (int32Bytes 416 ++ (x.bytes ++ y.bytes)).length =
      Request.move.structSize := by
    rw [hlen]
    rfl
  refine ⟨⟨.move, _, hpayload⟩, h.symm, ?_⟩
  have hfields : imageMove (ClientPacket.toBytes ⟨.move, _, hpayload⟩) =
      int32Bytes 416 ++ (x.bytes ++ y.bytes) := by
    have hslice : Region.slice (headerBytes Request.move.structSize Request.move.pktType ++
        (int32Bytes 416 ++ (x.bytes ++ y.bytes) ++ [])) sizeofPacketHeader 12 =
          int32Bytes 416 ++ (x.bytes ++ y.bytes) := Region.slice_middle rfl hlen
    rwa [List.append_nil] at hslice
  change (some (moveBroadcastResult (imageMove _))).bind _ = _
  rw [hfields, Option.bind_some, moveBroadcastResult_drawn (by decide) (by decide) x y]
  rfl

theorem silent_request {mLoginId : Int} {r : UserRequest} (h : request mLoginId r = .ok none) :
    UserRequest.drawn (mLoginId, r) = none := by
  cases r with
  | login id => rfl
  | chat text =>
    rw [request, chatRequest] at h
    split_ifs at h with hneg
    · rw [UserRequest.drawn, if_pos (Or.inl hneg)]
    · cases hname : sprintf_s (List.replicate maxSessionLen 0) (playerName mLoginId) with
      | error f => simp [hname, bind, Except.bind] at h
      | ok name =>
        cases htext : memcpy (List.replicate maxChatLen 0) text.bytes with
        | error f => simp [hname, htext, bind, Except.bind] at h
        | ok field =>
          rw [hname, ok_bind, htext, ok_bind, pure_eq_ok] at h
          cases h
  | move x y =>
    rw [request, moveRequest] at h
    split_ifs at h with hneg
    · rw [UserRequest.drawn, if_pos hneg]
    · cases h

/-- `m_loginId` of a client is -1 until its first LoginResult, and 416 from then on. -/
theorem request_packet {mLoginId : Int} (hid : mLoginId = -1 ∨ mLoginId = 416) {r : UserRequest}
    {data : Option (List Byte)} (h : request mLoginId r = .ok data) :
    ∃ packets : List ClientPacket, data.getD [] = stream ClientPacket.toBytes packets ∧
      packets.filterMap (fun p => p.broadcast.bind SceneCall.ofBytes) =
        (UserRequest.drawn (mLoginId, r)).toList := by
  have hsingle : ∀ {p : ClientPacket} {bytes : List Byte}, bytes = p.toBytes →
      p.broadcast.bind SceneCall.ofBytes = UserRequest.drawn (mLoginId, r) →
      ∃ packets : List ClientPacket, bytes = stream ClientPacket.toBytes packets ∧
        packets.filterMap (fun p => p.broadcast.bind SceneCall.ofBytes) =
          (UserRequest.drawn (mLoginId, r)).toList := by
    intro p bytes hp hdrawn
    refine ⟨[p], by rw [hp, Framing.stream_cons]; exact (List.append_nil _).symm, ?_⟩
    rw [← hdrawn]
    cases hb : p.broadcast.bind SceneCall.ofBytes with
    | none => exact List.filterMap_cons_none hb
    | some call => exact List.filterMap_cons_some hb
  cases data with
  | none =>
    have hnone : UserRequest.drawn (mLoginId, r) = none := silent_request h
    exact ⟨[], rfl, by rw [hnone]; rfl⟩
  | some bytes =>
    cases r with
    | login id =>
      obtain ⟨p, hp, hnone⟩ := loginRequest_packet h
      refine hsingle hp ?_
      rw [hnone]
      rfl
    | chat text =>
      rcases hid with rfl | rfl
      · rw [request, chatRequest, if_pos (by decide)] at h
        cases h
      · obtain ⟨p, hp, hdrawn⟩ := chatRequest_packet h
        exact hsingle hp hdrawn
    | move x y =>
      rcases hid with rfl | rfl
      · rw [request, moveRequest, if_pos (by decide)] at h
        cases h
      · obtain ⟨p, hp, hdrawn⟩ := moveRequest_packet h
        exact hsingle hp hdrawn

theorem requests_packets {asked : List (Int × UserRequest)}
    (hid : ∀ r ∈ asked, r.1 = -1 ∨ r.1 = 416) {bytes : List Byte} (h : requests asked = .ok bytes) :
    ∃ packets, bytes = stream ClientPacket.toBytes packets ∧
      packets.filterMap (fun p => p.broadcast.bind SceneCall.ofBytes) =
        asked.filterMap UserRequest.drawn := by
  induction asked generalizing bytes with
  | nil =>
    cases h
    exact ⟨[], rfl, rfl⟩
  | cons r asked ih =>
    obtain ⟨mLoginId, r⟩ := r
    rw [requests] at h
    cases hdata : request mLoginId r with
    | error f => simp [hdata, bind, Except.bind] at h
    | ok data =>
      cases hrest : requests asked with
      | error f => simp [hdata, hrest, bind, Except.bind] at h
      | ok rest =>
        rw [hdata, ok_bind, hrest, ok_bind, pure_eq_ok, Except.ok.injEq] at h
        obtain ⟨packets, hpackets, hdrawn⟩ :=
          request_packet (hid (mLoginId, r) List.mem_cons_self) hdata
        obtain ⟨later, hlater, hlaterdrawn⟩ :=
          ih (fun r hr => hid r (List.mem_cons_of_mem _ hr)) hrest
        refine ⟨packets ++ later, ?_, ?_⟩
        · rw [← h, hpackets, hlater, Framing.stream_append]
        · rw [List.filterMap_append, hdrawn, hlaterdrawn]
          cases hd : UserRequest.drawn (mLoginId, r) with
          | none => rw [List.filterMap_cons_none hd, Option.toList_none, List.nil_append]
          | some call =>
            rw [List.filterMap_cons_some hd, Option.toList_some, List.singleton_append]

end TcpClient

variable {ε : Type}

/-- A value that `m_loginId` takes, whatever the client has received. -/
def Scene.IsLoginId (mLoginId : Int) : Prop :=
  ∃ decoded : List (Result × List Byte), mLoginId = (decoded.foldl handle .init).mLoginId

theorem Scene.loginId_values {mLoginId : Int} (h : IsLoginId mLoginId) :
    mLoginId = -1 ∨ mLoginId = 416 := by
  obtain ⟨decoded, rfl⟩ := h
  have hstep : ∀ (s : Scene) (data : Result × List Byte),
      (s.handle data).mLoginId = s.mLoginId ∨ (s.handle data).mLoginId = 416 := by
    rintro s ⟨kind, image⟩
    cases kind with
    | login => exact Or.inr rfl
    | chat =>
      rw [handle]
      cases cString (imagePlayerId image) with
      | none => exact Or.inl rfl
      | some id => cases cString (imageChat image) <;> exact Or.inl rfl
    | move =>
      rw [handle]
      split_ifs <;> exact Or.inl rfl
  have hkeep : ∀ s : Scene, s.mLoginId = -1 ∨ s.mLoginId = 416 →
      (decoded.foldl Scene.handle s).mLoginId = -1 ∨
        (decoded.foldl Scene.handle s).mLoginId = 416 := by
    induction decoded with
    | nil => exact fun s hs => hs
    | cons data decoded ih =>
      intro s hs
      refine ih _ ?_
      rcases hstep s data with he | he
      · rwa [he]
      · exact Or.inr he
  exact hkeep .init (Or.inl rfl)

theorem ServerPacket.Terminated.sceneCall_ne_none {p : ServerPacket} (h : p.Terminated) :
    p.sceneCall ≠ none := by
  rw [Terminated] at h
  rw [sceneCall, recvData]
  cases hk : p.kind with
  | login =>
    simp only [hk] at h
    obtain ⟨id, hid⟩ := Option.isSome_iff_exists.mp h
    simp [SceneCall.ofData, hid]
  | chat =>
    simp only [hk] at h
    obtain ⟨id, hid⟩ := Option.isSome_iff_exists.mp h.1
    obtain ⟨chat, hchat⟩ := Option.isSome_iff_exists.mp h.2
    simp [SceneCall.ofData, hid, hchat]
  | move =>
    rw [SceneCall.ofData]
    split_ifs <;> simp

/-- A broadcast that reaches a client is drawn. -/
theorem Server.Speaks.drawn {w : Server ε} {u : SessionId} {packets : List ServerPacket}
    (h : Speaks w u packets) (hrelayed : relayed packets ≠ []) :
    (relayed packets).filterMap SceneCall.ofBytes ≠ [] := by
  intro hnil
  obtain ⟨bytes, hbytes⟩ := List.exists_mem_of_ne_nil _ hrelayed
  have hcall := List.filterMap_eq_nil_iff.mp hnil bytes hbytes
  obtain ⟨p, hp, rfl⟩ := List.mem_map.mp hbytes
  rw [SceneCall.ofBytes_toBytes] at hcall
  exact (h.terminated p (List.mem_of_mem_filter hp)).sceneCall_ne_none hcall

/-- Where all sessions are those of Cocos clients, a client draws what players have asked
for: of each player's chats and moves some, in the order asked, and none of them twice. One
that has received all that was queued to it has drawn every broadcast of it. -/
theorem players_see_requests (E : Env ε) (horder : E.argOrder = .sizeFirst) (t : Traffic)
    (c : Config ε) (h : Conversing E t c) (hf : c.server.fault = none)
    (asked : SessionId → List (Int × UserRequest))
    (hid : ∀ s, ∀ r ∈ asked s, Scene.IsLoginId r.1) (sent : SessionId → List Byte)
    (hsent : ∀ s, TcpClient.requests (asked s) = .ok (sent s))
    (hreceived : ∀ s, t.received s <+: sent s) (u : SessionId) (hu : u ∈ c.server.allocated)
    (block : Block) (hsize : block.cells.length = TcpClient.bufSize)
    (chunks : List (List Byte)) (hcut : chunks.flatten <+: c.server.accepted u)
    (hshort : ∀ chunk ∈ chunks, chunk.length ≤ 4096) :
    ∃ packets client, ∃ seen : List (SessionId × SceneCall), Speaks c.server u packets ∧
      (∃ fuel, TcpClient.networkThread fuel (.new block) chunks = some (.ok client)) ∧
      client.scene.overread = 0 ∧
      client.scene.calls.filter SceneCall.isDrawn = seen.map Prod.snd ∧
      (chunks.flatten = c.server.outgoing u →
        seen.map Prod.snd = (relayed packets).filterMap SceneCall.ofBytes) ∧
      ∀ s, (seen.filter fun m => m.1 = s).map Prod.snd <+
        (asked s).filterMap UserRequest.drawn := by
  choose packets hpackets hdrawn using fun s =>
    TcpClient.requests_packets (fun r hr => Scene.loginId_values (hid s r hr)) (hsent s)
  obtain ⟨handled, hheeded, hunmade, hheard⟩ := heard_of_run h horder hf
    (show ∀ s, t.received s <+: stream ClientPacket.toBytes (packets s) from
      fun s => hpackets s ▸ hreceived s)
  obtain ⟨spoken, heard, hspeaks, -, hrelayed, hsenders⟩ := hheard u hu
  obtain ⟨rest, hrest⟩ := hcut
  have hwhole : chunks.flatten ++ (rest ++ (c.server.sessions u).mSendBuffer.contents) =
      c.server.outgoing u := by
    rw [← List.append_assoc, hrest]
    rfl
  obtain ⟨decoded, client, hrun, hfollows, hend⟩ := hspeaks.followed hsize hwhole hshort
  have hprefix : relayed decoded <+: heard.map Prod.snd := by
    rw [← hrelayed]
    exact (hfollows.first.filter _).map _
  obtain ⟨n, hn⟩ : ∃ n, relayed decoded = (heard.take n).map Prod.snd := by
    refine ⟨(relayed decoded).length, ?_⟩
    rw [List.map_take]
    exact List.prefix_iff_eq_take.mp hprefix
  have hseen : client.scene.calls.filter SceneCall.isDrawn =
      (readEach SceneCall.ofBytes (heard.take n)).map Prod.snd := by
    rw [OrderedBroadcast.readEach_messages, hfollows.calls, SceneCall.drawn_relayed, hn]
  refine ⟨spoken, client, readEach SceneCall.ofBytes (heard.take n), hspeaks, hrun,
    hfollows.overread, hseen, fun hall => ?_, fun s => ?_⟩
  · rw [← hwhole] at hall
    rw [← hseen, hfollows.calls, SceneCall.drawn_relayed, hend (List.self_eq_append_right.mp hall)]
  · rw [OrderedBroadcast.readEach_sender]
    have hfirst : handled s <+: packets s := by
      by_cases hs : s ∈ c.server.allocated
      · exact (hheeded s hs).first
      · exact hunmade s hs ▸ List.nil_prefix
    have hsome : ((heard.take n).filter fun m => m.1 = s).map Prod.snd <+
        (packets s).filterMap ClientPacket.broadcast :=
      ((((List.take_sublist n heard).filter _).map _).trans (hsenders s)).trans
        (hfirst.sublist.filterMap _)
    have hcalls := hsome.filterMap SceneCall.ofBytes
    rwa [List.filterMap_filterMap, hdrawn s] at hcalls

/-- The image of 480.0. -/
def px480 : FloatImage := ⟨[0, 0, 0xF0, 0x43], rfl⟩

/-- A player logs in and moves, and sees itself move. -/
theorem players_see_requests_move :
    ∃ t w client, ∃ seen : List (SessionId × SceneCall), Conversing playback t ⟨w, .idle⟩ ∧
      (∃ fuel, TcpClient.networkThread fuel (.new TcpClient.zeroed)
        ((w.accepted 0).map fun b => [b]) = some (.ok client)) ∧
      client.scene.calls.filter SceneCall.isDrawn = seen.map Prod.snd ∧ seen ≠ [] ∧
      (seen.filter fun m => m.1 = 0).map Prod.snd <+
        [(-1, UserRequest.login [7]), (416, .move px480 px480)].filterMap UserRequest.drawn := by
  obtain ⟨p, hp⟩ : ∃ p : ClientPacket,
      p = ⟨.move, int32Bytes 416 ++ (px480.bytes ++ px480.bytes), rfl⟩ := ⟨_, rfl⟩
  obtain ⟨t', w', hrun', hw, hnone, hreceived'⟩ :=
    moved_conversing (c := 7) (by decide) (p := p) (hp ▸ rfl)
  obtain ⟨t, w, hrun, hsame, hf, hin, hall, hlen⟩ := hrun'.flushed hw rfl hnone
  have hreceived : ∀ s, t.received s = if s = 0 then (loginRequest 7).toBytes ++ p.toBytes else [] :=
    fun s => hsame ▸ hreceived' s
  obtain ⟨hbytes, hshort⟩ := TcpClient.flatten_bytes (w.accepted 0)
  have hsent : TcpClient.requests [(-1, .login [7]), (416, .move px480 px480)] =
      .ok ((loginRequest 7).toBytes ++ p.toBytes) := by
    rw [hp]
    decide +kernel
  have hids : ∀ s, ∀ r ∈ (if s = 0 then [((-1 : Int), UserRequest.login [7]),
      (416, .move px480 px480)] else []), Scene.IsLoginId r.1 := by
    intro s r hr
    split_ifs at hr
    · rcases List.mem_cons.mp hr with rfl | hr
      · exact ⟨[], rfl⟩
      · obtain rfl := List.mem_singleton.mp hr
        exact ⟨[(.login, [])], rfl⟩
    · cases hr
  obtain ⟨packets, client, seen, hspeaks, hclient, -, hseen, hdrawn, hsenders⟩ :=
    players_see_requests playback rfl t _ hrun hf
      (fun s => if s = 0 then [(-1, .login [7]), (416, .move px480 px480)] else []) hids
      (fun s => if s = 0 then (loginRequest 7).toBytes ++ p.toBytes else []) (fun s => by
        split_ifs
        · exact hsent
        · rfl)
      (fun s => (hreceived s).symm ▸ List.prefix_rfl) 0 hin TcpClient.zeroed List.length_replicate _
      ⟨[], (List.append_nil _).trans hbytes⟩ hshort
  have hrelayed : relayed packets ≠ [] := by
    intro hnil
    have hdvd := ServerPacket.dvd_length_logins hnil
    rw [← hspeaks.bytes, ← hall, hlen] at hdvd
    exact absurd hdvd (by decide)
  refine ⟨t, w, client, seen, hrun, hclient, hseen, ?_, hsenders 0⟩
  rintro rfl
  exact hspeaks.drawn hrelayed (hdrawn (hbytes.trans hall)).symm

end GameLift
