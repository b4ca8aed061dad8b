import GameLift.TcpClient
import GameLift.TextFields

/-! The packets the server makes, as the packets its clients read: a LoginResult, and
the CHAT and MOVE results that a handler gives to `BroadcastMessage`. -/

namespace GameLift

open Framing (stream)
open Server

namespace ServerPacket

theorem covers (p : ServerPacket) : (PacketHeader.ofBytes p.toBytes).mSize ≤ p.toBytes.length := by
  have hhead := p.header_toBytes []
  rw [List.append_nil] at hhead
  rw [hhead, p.length_toBytes]

def packet (p : ServerPacket) : Packet := ⟨p.toBytes, p.covers⟩

theorem packet_declared (p : ServerPacket) : p.packet.declared = p.kind.structSize := by
  have hhead := p.header_toBytes []
  rw [List.append_nil] at hhead
  rw [Packet.declared, packet, hhead, Result.sizeT_structSize]

theorem packet_bytes (p : ServerPacket) : p.packet.bytes = p.toBytes := by
  change p.toBytes.take p.packet.declared = p.toBytes
  rw [p.packet_declared, ← p.length_toBytes, List.take_length]

theorem toBytes_ne_nil (p : ServerPacket) : p.toBytes ≠ [] := by
  have hlen := p.length_toBytes
  have hpos := p.kind.header_le_structSize
  rw [sizeofPacketHeader] at hpos
  intro he
  rw [he, List.length_nil] at hlen
  omega

theorem toBytes_free {p q : ServerPacket} {x y : List Byte}
    (h : p.toBytes ++ x = q.toBytes ++ y) : p = q := by
  have hhead := congrArg PacketHeader.ofBytes h
  rw [p.header_toBytes, q.header_toBytes, PacketHeader.mk.injEq] at hhead
  have hkind : p.kind = q.kind := by
    have hp := Result.ofType_pktType p.kind
    rw [hhead.2, Result.ofType_pktType, Option.some.injEq] at hp
    exact hp.symm
  have hlen : p.toBytes.length = q.toBytes.length := by
    rw [p.length_toBytes, q.length_toBytes, hkind]
  have hbytes := List.append_inj_left h hlen
  cases p
  cases q
  dsimp only at hkind
  subst hkind
  rw [toBytes, toBytes, List.append_cancel_left_eq] at hbytes
  dsimp only at hbytes
  subst hbytes
  rfl

theorem stream_unique {ps qs : List ServerPacket} (h : stream toBytes ps = stream toBytes qs) :
    ps = qs :=
  Framing.stream_injective (fun _ _ _ _ => toBytes_free) toBytes_ne_nil h

/-- The name in a LoginResult. -/
def greeting (p : ServerPacket) : Option (List Byte) :=
  if p.kind = .login then cString (imagePlayerId p.toBytes) else none

/-- What of these packets was sent to every member. -/
def relayed (packets : List ServerPacket) : List (List Byte) :=
  (packets.filter fun p => p.kind ≠ .login).map toBytes

theorem relayed_append (ps qs : List ServerPacket) :
    relayed (ps ++ qs) = relayed ps ++ relayed qs := by
  rw [relayed, List.filter_append, List.map_append]
  rfl

theorem relayed_login {p : ServerPacket} (h : p.kind = .login) : relayed [p] = [] := by
  rw [relayed, List.filter_singleton]
  simp [h]

theorem relayed_broadcast {p : ServerPacket} (h : p.kind ≠ .login) : relayed [p] = [p.toBytes] := by
  rw [relayed, List.filter_singleton]
  simp [h]

end ServerPacket

theorem loginResult_server {id : List Byte} (hlen : id.length < 128) (hid : 0 ∉ id) :
    ∃ p : ServerPacket, loginResult id = .ok p.toBytes ∧ p.kind = .login ∧
      cString (imagePlayerId p.toBytes) = some id := by
  obtain ⟨out, hout, hout'⟩ := strcpy_fits (List.replicate maxSessionLen 0) id
    (by rwa [List.length_replicate])
  rw [List.length_replicate] at hout'
  have hpayload : sizeofPacketHeader + out.length = Result.login.structSize := by
    rw [hout']
    rfl
  refine ⟨⟨.login, out, hpayload⟩, ?_, rfl, ?_⟩
  · rw [loginResult, hout, ok_bind]
    rfl
  · have hfield : imagePlayerId (headerBytes Result.login.structSize Result.login.pktType ++ out) =
        out := by
      have hslice : imagePlayerId (headerBytes Result.login.structSize Result.login.pktType ++
          (out ++ [])) = out := Region.slice_middle rfl hout'
      rwa [List.append_nil] at hslice
    change cString (imagePlayerId (headerBytes _ _ ++ out)) = some id
    rw [hfield]
    exact cString_strcpy hid hout

theorem broadcastOf_server {kind : Request} {image pkt : List Byte}
    (hlen : image.length = kind.structSize) (h : broadcastOf kind image = some pkt) :
    ∃ p : ServerPacket, pkt = p.toBytes ∧ p.kind ≠ .login ∧ p.Terminated := by
  cases kind with
  | login => cases h
  | exit => cases h
  | move =>
    cases h
    have hfields : (imageMove image).length = 12 := by
      refine Region.length_slice ?_
      rw [hlen]
      decide
    have hpayload : sizeofPacketHeader + (imageMove image).length = Result.move.structSize := by
      rw [hfields]
      rfl
    exact ⟨⟨.move, imageMove image, hpayload⟩, rfl, (by intro hkind; cases hkind), trivial⟩
  | chat =>
    obtain ⟨id, chat, hid, hchat, hresult⟩ := broadcastOf_chat h
    obtain ⟨pkt', hpkt, hid', hchat'⟩ := chatBroadcastResult_fields
      (lt_of_lt_of_le (cString_length hid) (imagePlayerId_length image))
      (lt_of_lt_of_le (cString_length hchat) (imageChat_length image))
      (cString_nonzero hid) (cString_nonzero hchat)
    obtain rfl : pkt' = pkt := by
      rw [hpkt] at hresult
      exact Except.ok.inj hresult
    rw [chatBroadcastResult] at hpkt
    cases hfirst : strcpy (List.replicate maxSessionLen 0) id with
    | error f => simp [hfirst, bind, Except.bind] at hpkt
    | ok mPlayerId =>
      cases hsecond : strcpy (List.replicate maxChatLen 0) chat with
      | error f => simp [hfirst, hsecond, bind, Except.bind] at hpkt
      | ok mChat =>
        rw [hfirst, hsecond, ok_bind, ok_bind, pure_eq_ok] at hpkt
        have hpayload : sizeofPacketHeader + (mPlayerId ++ mChat).length =
            Result.chat.structSize := by
          rw [List.length_append, length_strcpy hfirst, length_strcpy hsecond,
            List.length_replicate, List.length_replicate]
          rfl
        have hbytes : pkt' = ServerPacket.toBytes ⟨.chat, mPlayerId ++ mChat, hpayload⟩ :=
          (Except.ok.inj hpkt).symm
        refine ⟨⟨.chat, mPlayerId ++ mChat, hpayload⟩, hbytes, (by intro hkind; cases hkind), ?_, ?_⟩
        · rw [← hbytes, hid']
          rfl
        · rw [← hbytes, hchat']
          rfl

end GameLift
