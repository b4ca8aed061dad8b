import GameLift.HeardPlayers

/-! The C strings of LOGIN, EXIT and CHAT packets, from the fields they are received in
to the fields and the log line they are copied to. -/

namespace GameLift

open Server

theorem cString_length {field s : List Byte} (h : cString field = some s) :
    s.length < field.length := by
  induction field generalizing s with
  | nil => cases h
  | cons c cs ih =>
    rw [cString] at h
    by_cases hc : c = 0
    · rw [if_pos hc] at h
      cases h
      exact Nat.succ_pos _
    · rw [if_neg hc] at h
      obtain ⟨t, ht, rfl⟩ := Option.map_eq_some_iff.mp h
      exact Nat.succ_lt_succ (ih ht)

theorem cString_nonzero {field s : List Byte} (h : cString field = some s) : 0 ∉ s := by
  induction field generalizing s with
  | nil => cases h
  | cons c cs ih =>
    rw [cString] at h
    by_cases hc : c = 0
    · rw [if_pos hc] at h
      cases h
      exact List.not_mem_nil
    · rw [if_neg hc] at h
      obtain ⟨t, ht, rfl⟩ := Option.map_eq_some_iff.mp h
      rintro (_ | ⟨_, hin⟩)
      · exact hc rfl
      · exact ih ht hin

theorem cString_terminated {s : List Byte} (hs : 0 ∉ s) (rest : List Byte) :
    cString (s ++ 0 :: rest) = some s := by
  induction s with
  | nil => rfl
  | cons c cs ih =>
    rw [List.mem_cons, not_or] at hs
    rw [List.cons_append, cString, if_neg (Ne.symm hs.1), ih hs.2]
    rfl

theorem cString_strcpy {dest s out : List Byte} (hs : 0 ∉ s) (h : strcpy dest s = .ok out) :
    cString out = some s := by
  rw [strcpy] at h
  split_ifs at h
  cases h
  exact cString_terminated hs _

theorem strcpy_fits (dest s : List Byte) (h : s.length < dest.length) :
    ∃ out, strcpy dest s = .ok out ∧ out.length = dest.length := by
  have hout : strcpy dest s = .ok (s ++ 0 :: dest.drop (s.length + 1)) := by
    rw [strcpy, if_pos h]
  exact ⟨_, hout, length_strcpy hout⟩

theorem imagePlayerId_length (image : List Byte) : (imagePlayerId image).length ≤ 128 := by
  rw [imagePlayerId, Region.slice, List.length_take]
  exact Nat.min_le_left _ _

theorem imageChat_length (image : List Byte) : (imageChat image).length ≤ 128 := by
  rw [imageChat, Region.slice, List.length_take]
  exact Nat.min_le_left _ _

theorem loginResult_packet {id : List Byte} (h : id.length < 128) :
    ∃ p : Packet, loginResult id = .ok p.memory := by
  obtain ⟨out, hout, hlen⟩ := strcpy_fits (List.replicate maxSessionLen 0) id
    (by rwa [List.length_replicate])
  rw [List.length_replicate] at hlen
  obtain ⟨p, hp, -⟩ := headerBytes_packet hlen (by decide) (show pktScLogin < 32768 by decide)
  refine ⟨p, ?_⟩
  rw [loginResult, hout, ok_bind, hp]
  rfl

/-- A relayed chat holds the two strings it was made from. -/
theorem chatBroadcastResult_fields {id chat : List Byte} (hid : id.length < 128)
    (hchat : chat.length < 128) (hid0 : 0 ∉ id) (hchat0 : 0 ∉ chat) :
    ∃ pkt, chatBroadcastResult id chat = .ok pkt ∧ cString (imagePlayerId pkt) = some id ∧
      cString (imageChat pkt) = some chat := by
  obtain ⟨a, ha, hla⟩ := strcpy_fits (List.replicate maxSessionLen 0) id
    (by rwa [List.length_replicate])
  obtain ⟨c, hc, hlc⟩ := strcpy_fits (List.replicate maxChatLen 0) chat
    (by rwa [List.length_replicate])
  rw [List.length_replicate] at hla hlc
  have hheader : ∀ n, (headerBytes n pktScChat).length = sizeofPacketHeader := fun _ => rfl
  refine ⟨_, by rw [chatBroadcastResult, ha, ok_bind, hc, ok_bind, pure_eq_ok], ?_, ?_⟩
  · rw [imagePlayerId, Region.slice_middle (hheader _) hla]
    exact cString_strcpy hid0 ha
  · rw [imageChat, ← List.append_assoc, ← List.append_nil c, Region.slice_middle ?_ hlc]
    · exact cString_strcpy hchat0 hc
    · rw [List.length_append, hla, hheader]

namespace Server

variable {ε : Type} {E : Env ε}

/-- The C strings of the packet are read and copied within their fields and buffers, and a
chat is relayed with the strings of its sender. -/
structure TextSafe (E : Env ε) (w : Server ε) (sid : SessionId) (kind : Request)
    (image : List Byte) : Prop where
  inBounds : (handlePacket E sid kind image w).fault ≠ some .outOfBounds
  relayed : kind = .chat → ∃ pkt, handlePacket E sid kind image w = w.broadcastMessage E pkt ∧
    cString (imagePlayerId pkt) = cString (imagePlayerId image) ∧
    cString (imageChat pkt) = cString (imageChat image)

/-- Every field is terminated, and what is logged of it fits into the log line, terminator
included: 24 characters and a login id, 38 and the message of a refusal, 25 and a logout id,
in 128 bytes. -/
def TextFits (E : Env ε) (w : Server ε) (kind : Request) (image : List Byte) : Prop :=
  match kind with
  | .login => ∃ id, cString (imagePlayerId image) = some id ∧
      if (E.acceptPlayerSession id w.env).1 then 24 + id.length < 128
      else 38 + (E.acceptErrorMessage id w.env).length < 128
  | .exit => ∃ id, cString (imagePlayerId image) = some id ∧ 25 + id.length < 128
  | .chat => (cString (imagePlayerId image)).isSome ∧ (cString (imageChat image)).isSome
  | .move => True

theorem raise_first {w : Server ε} (hf : w.fault = none) (f : Fault) :
    (w.raise f).fault = some f := by rw [raise, hf, Option.none_or]

/-- An overrun stays on record. -/
theorem overrun_carried : Carried E (fun w : Server ε => w.fault = some .outOfBounds) where
  raise h := by rw [raise, h, Option.some_or]
  queue _ h := h
  disconnect h := (disconnect_send ..).2.2.trans h

theorem sendRequest_fault {w : Server ε} {sid : SessionId}
    (hs : (w.sessions sid).mSendBuffer.Sized) (p : Packet) :
    (w.sendRequest E sid p.memory).2.fault = w.fault := by
  cases hc : (w.sessions sid).mConnected with
  | false => rw [sendRequest_gone hc]
  | true =>
    by_cases hroom : sizeT (PacketHeader.ofBytes p.memory).mSize ≤
        (w.sessions sid).mSendBuffer.freeSpace
    · obtain ⟨b, hb, -⟩ := hs.inv.write_accepted (p.declared_le hs.inv hs.size hroom) hroom
      rw [sendRequest_accepted hc hb]
      rfl
    · rw [sendRequest_refused hc (hs.inv.write_refused p.memory (Nat.lt_of_not_le hroom))]
      exact (disconnect_send ..).2.2

theorem printOut_loginLine (w : Server ε) (id : PlayerId) :
    w.printOut "[PLAYER] PlayerLogin: %s \n" id =
      if 24 + id.length < 128 then w else w.raise .outOfBounds := by
  have hfmt : "[PLAYER] PlayerLogin: %s \n".length = 26 := by decide +kernel
  rw [printOut, hfmt]

theorem printOut_logoutLine (w : Server ε) (id : PlayerId) :
    w.printOut "[PLAYER] PlayerLogout: %s \n" id =
      if 25 + id.length < 128 then w else w.raise .outOfBounds := by
  have hfmt : "[PLAYER] PlayerLogout: %s \n".length = 27 := by decide +kernel
  rw [printOut, hfmt]

theorem printOut_errorLine (w : Server ε) {id : PlayerId} (h : 24 + id.length < 128) :
    w.printOut "send request error: %s \n" id = w := by
  have hfmt : "send request error: %s \n".length = 24 := by decide +kernel
  rw [printOut, hfmt, if_pos (by omega)]

theorem welcome_eq {w v : Server ε} {sid : SessionId} {id : PlayerId}
    (hprint : (w.setId sid id).printOut "[PLAYER] PlayerLogin: %s \n" id = v) :
    w.welcome E sid id =
      match loginResult id with
      | .error f => v.raise f
      | .ok pkt =>
        if (v.sendRequest E sid pkt).1 then (v.sendRequest E sid pkt).2
        else ((v.sendRequest E sid pkt).2.printOut "send request error: %s \n" id).disconnect
          E sid := by
  rw [← hprint]
  unfold welcome setId
  cases loginResult id with
  | error f => rfl
  | ok pkt => rfl

theorem welcome_fits {w : Server ε} {sid : SessionId} {id : PlayerId}
    (hs : (w.sessions sid).mSendBuffer.Sized) (h : 24 + id.length < 128) :
    (w.welcome E sid id).fault = w.fault := by
  obtain ⟨p, hp⟩ := loginResult_packet (show id.length < 128 by omega)
  have hkept : ((w.setId sid id).sessions sid).mSendBuffer.Sized := by rwa [setId_send]
  have hsend := sendRequest_fault (E := E) hkept p
  rw [welcome_eq (printOut_loginLine _ id), if_pos h, hp]
  dsimp only
  split_ifs
  · exact hsend
  · rw [printOut_errorLine _ h]
    exact (disconnect_send ..).2.2.trans hsend

theorem welcome_overrun {w : Server ε} {sid : SessionId} {id : PlayerId} (hf : w.fault = none)
    (h : ¬24 + id.length < 128) : (w.welcome E sid id).fault = some .outOfBounds := by
  have hprint : ((w.setId sid id).raise .outOfBounds).fault = some .outOfBounds :=
    raise_first hf _
  rw [welcome_eq (printOut_loginLine _ id), if_neg h]
  cases loginResult id with
  | error f => exact overrun_carried.raise (E := E) hprint
  | ok pkt =>
    have hsend := overrun_carried.sendRequest (E := E) sid pkt hprint
    dsimp only
    split_ifs
    · exact hsend
    · exact overrun_carried.disconnect (overrun_carried.printOut (E := E) _ _ hsend)

theorem inBounds_of_none {w : Server ε} (hf : w.fault = none) : w.fault ≠ some .outOfBounds := by
  rw [hf]
  exact fun h => by cases h

theorem playerLogin_inBounds {w : Server ε} {sid : SessionId} {id : PlayerId}
    (hf : w.fault = none) (hs : (w.sessions sid).mSendBuffer.Sized) :
    (w.playerLogin E sid id).fault ≠ some .outOfBounds ↔
      if (E.acceptPlayerSession id w.env).1 then 24 + id.length < 128
      else 38 + (E.acceptErrorMessage id w.env).length < 128 := by
  have hfault : (w.answered E sid id).fault = none := hf
  cases hok : (E.acceptPlayerSession id w.env).1 with
  | false =>
    rw [if_neg Bool.false_ne_true, playerLogin_refused hok, printOut_refusalLine,
      (disconnect_send ..).2.2]
    by_cases hfits : 38 + (E.acceptErrorMessage id w.env).length < 128
    · rw [if_pos hfits]
      exact iff_of_true (inBounds_of_none hfault) hfits
    · rw [if_neg hfits]
      exact iff_of_false (fun h => h (raise_first hfault _)) hfits
  | true =>
    have hring : ((w.answered E sid id).sessions sid).mSendBuffer.Sized := hs
    rw [if_pos rfl, playerLogin_accepted hok]
    by_cases hfits : 24 + id.length < 128
    · exact iff_of_true (inBounds_of_none ((welcome_fits hring hfits).trans hfault)) hfits
    · exact iff_of_false (fun h => h (welcome_overrun hfault hfits)) hfits

theorem playerLogout_inBounds {w : Server ε} {sid : SessionId} {id : PlayerId}
    (hf : w.fault = none) :
    (w.playerLogout E sid id).fault ≠ some .outOfBounds ↔ 25 + id.length < 128 := by
  have hfault : ((w.removePlayerSession E sid id).setId sid []).fault = none := hf
  have hlogout : (w.playerLogout E sid id).fault = ((((w.removePlayerSession E sid id).setId
      sid []).printOut "[PLAYER] PlayerLogout: %s \n" id)).fault := (disconnect_send ..).2.2
  rw [hlogout, printOut_logoutLine]
  by_cases hfits : 25 + id.length < 128
  · rw [if_pos hfits]
    exact iff_of_true (inBounds_of_none hfault) hfits
  · rw [if_neg hfits]
    exact iff_of_false (fun h => h (raise_first hfault _)) hfits

theorem broadcastTo_inBounds {w : Server ε} {sid : SessionId}
    (hf : w.fault ≠ some .outOfBounds) (hs : (w.sessions sid).mSendBuffer.Sized) (p : Packet) :
    (w.broadcastTo E p.memory sid).fault ≠ some .outOfBounds := by
  have hraise : ∀ v : Server ε, v.fault = w.fault →
      (if sid ∈ v.gameLift.mPlayerSessions then v else v.raise .danglingIterator).fault ≠
        some .outOfBounds := by
    intro v hv
    split_ifs
    · rwa [hv]
    · rw [raise, hv]
      cases hw : w.fault with
      | none => simp
      | some f => rwa [Option.some_or, ← hw]
  have hsend := sendRequest_fault (E := E) hs p
  rw [broadcastTo]
  cases hr : w.sendRequest E sid p.memory with
  | mk ok v =>
    rw [hr] at hsend
    cases ok
    · exact hraise _ ((disconnect_send v sid).2.2.trans hsend)
    · exact hraise _ hsend

/-- Nothing but a lost iterator can go wrong in a broadcast. -/
theorem broadcast_inBounds (p : Packet) {members : List SessionId} (hnodup : members.Nodup)
    {w : Server ε} (hf : w.fault ≠ some .outOfBounds)
    (hs : ∀ s ∈ members, (w.sessions s).mSendBuffer.Sized) :
    (members.foldl (broadcastTo E p.memory) w).fault ≠ some .outOfBounds := by
  induction members generalizing w with
  | nil => exact hf
  | cons s members ih =>
    obtain ⟨hnot, hrest⟩ := List.nodup_cons.mp hnodup
    refine ih hrest (broadcastTo_inBounds hf (hs s List.mem_cons_self) p) fun t ht => ?_
    have hne : t ≠ s := fun he => hnot (he ▸ ht)
    rw [broadcastTo_others hne]
    exact hs t (List.mem_cons_of_mem s ht)

theorem broadcastMessage_inBounds {w : Server ε} (p : Packet) (hf : w.fault ≠ some .outOfBounds)
    (hs : ∀ s ∈ w.gameLift.mPlayerSessions, (w.sessions s).mSendBuffer.Sized) :
    (w.broadcastMessage E p.memory).fault ≠ some .outOfBounds :=
  broadcast_inBounds p (Finset.sort_nodup ..) hf fun s hin => hs s ((Finset.mem_sort _).mp hin)

theorem textSafe_of_ne_chat {w : Server ε} {sid : SessionId} {kind : Request} {image : List Byte}
    (hkind : kind ≠ .chat) :
    TextSafe E w sid kind image ↔ (handlePacket E sid kind image w).fault ≠ some .outOfBounds :=
  ⟨fun h => h.inBounds, fun h => ⟨h, fun he => absurd he hkind⟩⟩

theorem chat_textSafe {w : Server ε} {sid : SessionId} {image : List Byte} {id chat : List Byte}
    (hlen : image.length = Request.chat.structSize) (hf : w.fault = none)
    (hm : ∀ s ∈ w.gameLift.mPlayerSessions, (w.sessions s).mSendBuffer.Sized)
    (hid : cString (imagePlayerId image) = some id)
    (hchat : cString (imageChat image) = some chat) : TextSafe E w sid .chat image := by
  have hidlen := lt_of_lt_of_le (cString_length hid) (imagePlayerId_length image)
  have hchatlen := lt_of_lt_of_le (cString_length hchat) (imageChat_length image)
  obtain ⟨pkt, hpkt, hid', hchat'⟩ :=
    chatBroadcastResult_fields hidlen hchatlen (cString_nonzero hid) (cString_nonzero hchat)
  have hof : broadcastOf .chat image = some pkt := by
    rw [broadcastOf, hid, hchat]
    exact congrArg Except.toOption hpkt
  obtain ⟨p, rfl, -⟩ := broadcastOf_packet hlen hof
  have hrelay : handlePacket E sid .chat image w = w.broadcastMessage E p.memory :=
    handlePacket_broadcast hof w
  refine ⟨?_, fun _ => ⟨p.memory, hrelay, hid'.trans hid.symm, hchat'.trans hchat.symm⟩⟩
  rw [hrelay]
  exact broadcastMessage_inBounds p (inBounds_of_none hf) hm

/-- A packet with one string is safe if the string is there and fits. -/
theorem iff_exists_string {field : Option (List Byte)} {safe : Prop} {fits : List Byte → Prop}
    (hnone : field = none → ¬safe) (hsome : ∀ s, field = some s → (safe ↔ fits s)) :
    safe ↔ ∃ s, field = some s ∧ fits s := by
  cases hfield : field with
  | none =>
    refine iff_of_false (hnone hfield) ?_
    rintro ⟨s, h, -⟩
    cases h
  | some s =>
    rw [hsome s hfield]
    constructor
    · intro h
      exact ⟨s, rfl, h⟩
    · rintro ⟨t, ht, hfits⟩
      cases ht
      exact hfits

theorem handlePacket_textSafe {w : Server ε} {sid : SessionId} {kind : Request}
    {image : List Byte} (hlen : image.length = kind.structSize) (hf : w.fault = none)
    (hs : (w.sessions sid).mSendBuffer.Sized)
    (hm : ∀ s ∈ w.gameLift.mPlayerSessions, (w.sessions s).mSendBuffer.Sized) :
    TextSafe E w sid kind image ↔ TextFits E w kind image := by
  have hraised : ¬(w.raise .outOfBounds).fault ≠ some .outOfBounds :=
    fun h => h (raise_first hf _)
  cases kind with
  | login =>
    rw [textSafe_of_ne_chat (fun h => by cases h), handlePacket, TextFits]
    apply iff_exists_string
    · intro hid
      rw [hid]
      exact hraised
    · intro id hid
      rw [hid]
      exact playerLogin_inBounds hf hs
  | exit =>
    rw [textSafe_of_ne_chat (fun h => by cases h), handlePacket, TextFits]
    apply iff_exists_string
    · intro hid
      rw [hid]
      exact hraised
    · intro id hid
      rw [hid]
      exact playerLogout_inBounds hf
  | chat =>
    rw [TextFits]
    cases hid : cString (imagePlayerId image) with
    | none =>
      refine iff_of_false (fun h => hraised ?_) fun h => Bool.false_ne_true h.1
      have hin := h.inBounds
      rwa [handlePacket, hid] at hin
    | some id =>
      cases hchat : cString (imageChat image) with
      | none =>
        refine iff_of_false (fun h => hraised ?_) fun h => Bool.false_ne_true h.2
        have hin := h.inBounds
        rwa [handlePacket, hid, hchat] at hin
      | some chat => exact iff_of_true (chat_textSafe hlen hf hm hid hchat) ⟨rfl, rfl⟩
  | move =>
    refine iff_of_true ((textSafe_of_ne_chat fun h => by cases h).mpr ?_) trivial
    obtain ⟨p, hp, -⟩ := broadcastOf_packet hlen (show broadcastOf .move image = some _ from rfl)
    rw [handlePacket, ← hp]
    exact broadcastMessage_inBounds p (inBounds_of_none hf) hm

end Server

open Server

/-- Whatever bytes the next packet holds and whatever GameLift answers: its text fields
stay in bounds exactly when they are terminated and the log line has room for the id. -/
theorem textFields_inBounds {ε : Type} (E : Env ε) (w : Server ε) (sid : SessionId)
    (h : Reachable E Free ⟨w, .dispatching sid⟩) (hf : w.fault = none) (kind : Request)
    (image : List Byte) (b : CircularBuffer)
    (hn : nextFrame (w.sessions sid).mRecvBuffer = .parsed kind image b) :
    TextSafe E (w.setRecv sid b) sid kind image ↔ TextFits E w kind image := by
  have hrings := h.buffered sid (h.known.2 sid (Or.inr rfl))
  have hframe : frameOf (w.sessions sid).mRecvBuffer.contents =
      .parsed kind image b.contents := by
    rw [← hrings.1.inv.nextFrame_spec.1, hn]
    rfl
  obtain ⟨hle, himage, -⟩ := frameOf_parsed hframe
  have hlen : image.length = kind.structSize := by
    rw [himage, List.length_take, Nat.min_eq_left hle]
  have hmembers : ∀ s ∈ (w.setRecv sid b).gameLift.mPlayerSessions,
      ((w.setRecv sid b).sessions s).mSendBuffer.Sized := by
    intro s hs
    rw [setRecv_send]
    exact h.members_sized s hs
  have hsend : ((w.setRecv sid b).sessions sid).mSendBuffer.Sized := by
    rw [setRecv_send]
    exact hrings.2
  have hfault : (w.setRecv sid b).fault = none := hf
  rw [handlePacket_textSafe hlen hfault hsend hmembers]
  cases kind <;> exact Iff.rfl

/-- The next packet of a client that has just connected. -/
theorem joined_handles (ids : List PlayerId) (p : ClientPacket) :
    ∃ w b, Reachable playback Free ⟨w, .dispatching 0⟩ ∧ w.fault = none ∧
      nextFrame (w.sessions 0).mRecvBuffer = .parsed p.kind p.toBytes b := by
  have hlen : p.toBytes.length ≤ 4096 := by
    rw [p.length_toBytes]
    cases p.kind <;> decide
  have hjoin : Reachable playback Free ⟨joined ids [.data p.toBytes], .receiving 0⟩ :=
    joined_reachable (fun _ _ _ _ => trivial) ids [.data p.toBytes]
  obtain ⟨w, hrecv, hw⟩ := joined_receive ids hlen
  have hf := p.frameOf_toBytes []
  rw [List.append_nil] at hf
  have hf : frameOf (w.sessions 0).mRecvBuffer.contents = .parsed p.kind p.toBytes [] :=
    hw.contents.symm ▸ hf
  obtain ⟨b, -, -, hnext, -⟩ := dispatchStep_parsed (E := playback) hw.recv hf
  exact ⟨w, b, hjoin.later (onward_receive rfl hrecv), hw.fault, hnext⟩

theorem textFields_inBounds_login :
    ∃ w b, Reachable playback Free ⟨w, .dispatching 0⟩ ∧
      nextFrame (w.sessions 0).mRecvBuffer = .parsed .login (loginRequest 1).toBytes b ∧
      TextSafe playback (w.setRecv 0 b) 0 .login (loginRequest 1).toBytes := by
  obtain ⟨w, b, hreach, hf, hnext⟩ := joined_handles [] (loginRequest 1)
  refine ⟨w, b, hreach, hnext, (textFields_inBounds playback w 0 hreach hf _ _ b hnext).mpr ?_⟩
  refine ⟨[1], loginRequest_id (by decide), ?_⟩
  split_ifs
  · decide
  · exact playback_refusalLine ..

theorem unterminated_size : sizeofPacketHeader + (List.replicate 128 (1 : Byte)).length =
    Request.login.structSize := by
  rw [List.length_replicate]
  rfl

def unterminated : ClientPacket := ⟨.login, List.replicate 128 1, unterminated_size⟩

theorem cString_unterminated : cString (imagePlayerId unterminated.toBytes) = none := by
  decide +kernel

/-- A LOGIN whose 128 id bytes hold no terminator. -/
theorem textFields_overrun :
    ∃ w b, Reachable playback Free ⟨w, .dispatching 0⟩ ∧ w.fault = none ∧
      nextFrame (w.sessions 0).mRecvBuffer = .parsed .login unterminated.toBytes b ∧
      ¬TextSafe playback (w.setRecv 0 b) 0 .login unterminated.toBytes := by
  obtain ⟨w, b, hreach, hf, hnext⟩ := joined_handles [] unterminated
  refine ⟨w, b, hreach, hf, hnext, fun h => h.inBounds ?_⟩
  have hraise : handlePacket playback 0 .login unterminated.toBytes (w.setRecv 0 b) =
      (w.setRecv 0 b).raise .outOfBounds := by rw [handlePacket, cString_unterminated]
  rw [hraise]
  exact raise_first hf _

end GameLift
