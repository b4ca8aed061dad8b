import GameLift.BroadcastDelivery
import GameLift.OwnRemoval

/-! Whose packets the players hear. The CHAT and MOVE handlers broadcast for any
connection, so who is heard is decided by whether the members can take the packet. -/

namespace GameLift

/-- The sessions accepted and neither logged out nor removed since, latest call first. -/
def seated : List SdkCall → Finset SessionId
  | [] => ∅
  | .acceptPlayerSession psess _ true :: calls => insert psess (seated calls)
  | .removePlayerSession psess _ _ :: calls => (seated calls).erase psess
  | _ :: calls => seated calls

/-- The packet that a handler gives to `BroadcastMessage`. -/
def broadcastOf (kind : Request) (image : List Byte) : Option (List Byte) :=
  match kind with
  | .chat =>
    match cString (imagePlayerId image), cString (imageChat image) with
    | some id, some chat => (chatBroadcastResult id chat).toOption
    | _, _ => none
  | .move => some (moveBroadcastResult (imageMove image))
  | _ => none

namespace Server

variable {ε : Type}

def Player (w : Server ε) (sid : SessionId) : Prop :=
  (w.sessions sid).mConnected = true ∧ sid ∈ seated w.gameLift.issued

def nextBroadcast (w : Server ε) (sid : SessionId) : Option (List Byte) :=
  match nextFrame (w.sessions sid).mRecvBuffer with
  | .parsed kind image _ => broadcastOf kind image
  | _ => none

structure Untouched (w w' : Server ε) (s : SessionId) : Prop where
  stream : w'.outgoing s = w.outgoing s
  connected : (w'.sessions s).mConnected = (w.sessions s).mConnected

/-- Whomever the next packet of `sid` reaches, it is a player's packet. Only a packet
that is not broadcast may be answered to its sender. -/
def HeardOnly (E : Env ε) (w : Server ε) (sid : SessionId) : Prop :=
  ∀ s, (s = sid → w.nextBroadcast sid ≠ none) →
    Player w sid ∨ Untouched w (dispatchStep E sid w).server s

/-- No connected member has room for `n` bytes, or can be closed for it. -/
def Unreached (E : Env ε) (w : Server ε) (n : Nat) : ε → List SessionId → Prop
  | _, [] => True
  | e, s :: members =>
    if (w.sessions s).mConnected then
      (w.sessions s).mSendBuffer.freeSpace < n ∧ (lingers E (w.sessions s).mSocket e).1 = false ∧
        Unreached E w n (lingers E (w.sessions s).mSocket e).2 members
    else Unreached E w n e members

variable {E : Env ε}

theorem Untouched.refl (w : Server ε) (s : SessionId) : Untouched w w s := ⟨rfl, rfl⟩

theorem Untouched.trans {u v w : Server ε} {s : SessionId} (h : Untouched w v s)
    (h' : Untouched v u s) : Untouched w u s :=
  ⟨h'.stream.trans h.stream, h'.connected.trans h.connected⟩

theorem Apart.untouched {w w' : Server ε} {sid s : SessionId} (h : Apart sid w w') (hs : s ≠ sid) :
    Untouched w w' s where
  stream := by rw [outgoing, outgoing, h.others s hs, h.accepted]
  connected := by rw [h.others s hs]

theorem untouched_setRecv (w : Server ε) (sid s : SessionId) (b : CircularBuffer) :
    Untouched w (w.setRecv sid b) s where
  stream := by
    rw [outgoing, outgoing, setRecv_send]
    rfl
  connected := setRecv_connected ..

theorem untouched_setSend {w : Server ε} {sid : SessionId} {b : CircularBuffer}
    (hb : b.contents = (w.sessions sid).mSendBuffer.contents) (s : SessionId) :
    Untouched w (w.modify sid fun c => { c with mSendBuffer := b }) s := by
  by_cases hs : s = sid
  · subst hs
    refine ⟨?_, ?_⟩
    · rw [outgoing, outgoing, modify_sessions, if_pos rfl, hb]
      rfl
    · rw [modify_sessions, if_pos rfl]
  · refine ⟨?_, ?_⟩
    · rw [outgoing, outgoing, modify_sessions, if_neg hs]
      rfl
    · rw [modify_sessions, if_neg hs]

theorem unreached_setRecv (w : Server ε) (sid : SessionId) (b : CircularBuffer) (n : Nat) (e : ε)
    (members : List SessionId) :
    Unreached E (w.setRecv sid b) n e members ↔ Unreached E w n e members := by
  induction members generalizing e with
  | nil => rfl
  | cons s members ih =>
    simp only [Unreached, setRecv_connected, setRecv_send, setRecv_socket]
    split_ifs
    · rw [ih]
    · exact ih e

theorem broadcastTo_accepted {w : Server ε} (sid : SessionId) (pkt : List Byte) :
    (w.broadcastTo E pkt sid).accepted = w.accepted := by
  have hsend := (Apart.sendRequest (E := E) w sid pkt).accepted
  rw [broadcastTo]
  dsimp only
  split_ifs
  · exact hsend
  · exact hsend
  · exact (Apart.disconnect (E := E) _ sid).accepted.trans hsend
  · exact (Apart.disconnect (E := E) _ sid).accepted.trans hsend

theorem broadcast_accepted {members : List SessionId} (pkt : List Byte) (w : Server ε) :
    (members.foldl (broadcastTo E pkt) w).accepted = w.accepted := by
  induction members generalizing w with
  | nil => rfl
  | cons s members ih => exact (ih _).trans (broadcastTo_accepted s pkt)

/-- The broadcast before the members `todo`, while it has reached nobody. -/
structure Unmoved (w v : Server ε) (e : ε) (todo : List SessionId) : Prop where
  env : v.env = e
  members : v.gameLift.mPlayerSessions = w.gameLift.mPlayerSessions
  same : ∀ s, Untouched w v s
  rest : ∀ s ∈ todo, v.sessions s = w.sessions s

section
variable {w v : Server ε} {e : ε} {s : SessionId} {todo : List SessionId} {p : Packet}

theorem Unmoved.gone (h : Unmoved w v e (s :: todo)) (hin : s ∈ w.gameLift.mPlayerSessions)
    (hc : (w.sessions s).mConnected = false) :
    Unmoved w (v.broadcastTo E p.memory s) e todo := by
  have hcv : (v.sessions s).mConnected = false := (h.same s).connected.trans hc
  rw [broadcastTo_gone (h.members ▸ hin) hcv]
  exact ⟨h.env, h.members, h.same, fun t ht => h.rest t (List.mem_cons_of_mem _ ht)⟩

theorem Unmoved.appended (h : Unmoved w v e (s :: todo)) (hin : s ∈ w.gameLift.mPlayerSessions)
    (hs : (w.sessions s).mSendBuffer.Sized) (hc : (w.sessions s).mConnected = true)
    (hroom : w.Room s p) (hp : p.bytes ≠ []) :
    ¬Untouched w (v.broadcastTo E p.memory s) s := by
  have hsame := h.rest s List.mem_cons_self
  have hcv : (v.sessions s).mConnected = true := hsame ▸ hc
  obtain ⟨b, hb, ha⟩ := hs.inv.write_accepted (p.declared_le hs.inv hs.size hroom) hroom
  rw [← hsame] at hb
  have hto := broadcastTo_written (E := E) (h.members ▸ hin) hcv hb
  intro hun
  have hstream := hun.stream.trans (h.same s).stream.symm
  rw [hto, outgoing, outgoing, modify_sessions, if_pos rfl] at hstream
  have hcont := List.append_cancel_left hstream
  rw [ha.contents_eq, hsame] at hcont
  exact hp (List.append_right_eq_self.mp hcont)

theorem Unmoved.refused (h : Unmoved w v e (s :: todo)) (hnot : s ∉ todo)
    (hin : s ∈ w.gameLift.mPlayerSessions) (hs : (w.sessions s).mSendBuffer.Sized)
    (hc : (w.sessions s).mConnected = true) (hfull : ¬w.Room s p) :
    ((lingers E (w.sessions s).mSocket e).1 = false ∧
      Unmoved w (v.broadcastTo E p.memory s) (lingers E (w.sessions s).mSocket e).2 todo) ∨
    ((lingers E (w.sessions s).mSocket e).1 = true ∧
      ¬Untouched w (v.broadcastTo E p.memory s) s) := by
  have hsame := h.rest s List.mem_cons_self
  have hcv : (v.sessions s).mConnected = true := hsame ▸ hc
  have hb := hs.inv.write_refused p.memory (Nat.lt_of_not_le hfull)
  rw [← hsame] at hb
  have hprep := hs.inv.appended_prepare.contents_eq
  rw [List.append_nil, ← hsame] at hprep
  have hto := broadcastTo_refused (E := E) hcv hb
  obtain ⟨u, hu⟩ : ∃ u, u = v.modify s fun c => { c with
    mSendBuffer := (v.sessions s).mSendBuffer.prepare } := ⟨_, rfl⟩
  have hside : ∀ t, Untouched v u t := fun t => hu ▸ untouched_setSend hprep t
  have hother : ∀ t, t ≠ s → u.sessions t = v.sessions t := by
    intro t ht
    rw [hu, modify_sessions, if_neg ht]
  have hmembers : u.gameLift.mPlayerSessions = w.gameLift.mPlayerSessions := by
    rw [hu]
    exact h.members
  rw [← hu, hsame, h.env] at hto
  dsimp only at hto
  cases hl : (lingers E (w.sessions s).mSocket e).1 with
  | false =>
    rw [hl] at hto
    simp only [Bool.false_eq_true, if_false, hmembers, if_pos hin] at hto
    rw [hto]
    refine Or.inl ⟨rfl, rfl, hmembers, fun t => (h.same t).trans ?_, fun t ht => ?_⟩
    · exact ⟨(hside t).stream, (hside t).connected⟩
    · have hne : t ≠ s := fun he => hnot (he ▸ ht)
      exact (hother t hne).trans (h.rest t (List.mem_cons_of_mem _ ht))
  | true =>
    refine Or.inr ⟨rfl, fun hun => ?_⟩
    have hgone : ((v.broadcastTo E p.memory s).sessions s).mConnected = false := by
      rw [hl, if_pos rfl] at hto
      rw [hto]
      split_ifs <;>
        simp only [raise, closing_sessions, Function.update_self]
    rw [hun.connected, hc] at hgone
    cases hgone

/-- The broadcast touches nobody if and only if no member can be reached. -/
theorem Unmoved.run (h : Unmoved w v e todo) (hnodup : todo.Nodup)
    (hin : ∀ s ∈ todo, s ∈ w.gameLift.mPlayerSessions)
    (hs : ∀ s ∈ todo, (w.sessions s).mSendBuffer.Sized) (hp : p.bytes ≠ []) :
    (Unreached E w p.declared e todo →
      ∀ s, Untouched w (todo.foldl (broadcastTo E p.memory) v) s) ∧
    (¬Unreached E w p.declared e todo →
      ∃ s ∈ todo, ¬Untouched w (todo.foldl (broadcastTo E p.memory) v) s) := by
  induction todo generalizing v e with
  | nil => exact ⟨fun _ => h.same, fun hn => absurd trivial hn⟩
  | cons s todo ih =>
    obtain ⟨hnot, hnodup⟩ := List.nodup_cons.mp hnodup
    have hmem := hin s List.mem_cons_self
    have hsized := hs s List.mem_cons_self
    have hgo : ∀ e', Unmoved w (v.broadcastTo E p.memory s) e' todo → _ := fun e' hv =>
      ih hv hnodup (fun t ht => hin t (List.mem_cons_of_mem _ ht))
        fun t ht => hs t (List.mem_cons_of_mem _ ht)
    have hmore : ∀ {Q : Prop}, (Q → ∃ t ∈ todo, ¬Untouched w (todo.foldl (broadcastTo E p.memory)
        (v.broadcastTo E p.memory s)) t) → Q → ∃ t ∈ s :: todo,
          ¬Untouched w (todo.foldl (broadcastTo E p.memory) (v.broadcastTo E p.memory s)) t := by
      intro Q hq hQ
      obtain ⟨t, ht, hun⟩ := hq hQ
      exact ⟨t, List.mem_cons_of_mem _ ht, hun⟩
    -- What the visit does to `s`, the later ones do not undo.
    have hlater : ¬Untouched w (v.broadcastTo E p.memory s) s → ∃ t ∈ s :: todo,
        ¬Untouched w (todo.foldl (broadcastTo E p.memory) (v.broadcastTo E p.memory s)) t := by
      refine fun hun => ⟨s, List.mem_cons_self, fun hall => hun ⟨?_, ?_⟩⟩
      · rw [← hall.stream, outgoing, outgoing, broadcast_accepted, broadcast_others hnot]
      · rw [← hall.connected, broadcast_others hnot]
    rw [List.foldl_cons, Unreached]
    cases hc : (w.sessions s).mConnected with
    | false =>
      obtain ⟨hgood, hbad⟩ := hgo e (h.gone hmem hc)
      rw [if_neg Bool.false_ne_true]
      exact ⟨hgood, hmore hbad⟩
    | true =>
      rw [if_pos rfl]
      by_cases hroom : w.Room s p
      · refine ⟨fun hun => absurd hroom (Nat.not_le_of_lt hun.1), fun _ => ?_⟩
        exact hlater (h.appended hmem hsized hc hroom hp)
      · rcases h.refused (E := E) hnot hmem hsized hc hroom with ⟨hl, hv⟩ | ⟨hl, hun⟩
        · obtain ⟨hgood, hbad⟩ := hgo _ hv
          refine ⟨fun hun => hgood hun.2.2, fun hun => hmore hbad fun hrest => ?_⟩
          exact hun ⟨Nat.lt_of_not_le hroom, hl, hrest⟩
        · refine ⟨fun hl' => ?_, fun _ => hlater hun⟩
          rw [hl'.2.1] at hl
          cases hl

end

theorem length_strcpy {dest s out : List Byte} (h : strcpy dest s = .ok out) :
    out.length = dest.length := by
  rw [strcpy] at h
  split_ifs at h with hfit
  cases h
  simp only [List.length_append, List.length_cons, List.length_drop]
  omega

theorem broadcastOf_chat {image pkt : List Byte} (h : broadcastOf .chat image = some pkt) :
    ∃ id chat, cString (imagePlayerId image) = some id ∧ cString (imageChat image) = some chat ∧
      chatBroadcastResult id chat = .ok pkt := by
  rw [broadcastOf] at h
  cases hid : cString (imagePlayerId image) with
  | none => simp [hid] at h
  | some id =>
    cases hchat : cString (imageChat image) with
    | none => simp [hid, hchat] at h
    | some chat =>
      simp only [hid, hchat] at h
      cases hc : chatBroadcastResult id chat with
      | error f => simp [hc, Except.toOption] at h
      | ok pkt' =>
        rw [hc] at h
        cases h
        exact ⟨id, chat, rfl, rfl, hc⟩

/-- A packed struct of `n` bytes behind the header, as a packet object. -/
theorem headerBytes_packet {n mType : Nat} {fields : List Byte} (hn : fields.length = n)
    (hsmall : n + 4 < 32768) (ht : mType < 32768) :
    ∃ p : Packet, p.memory = headerBytes (4 + n) mType ++ fields ∧ p.bytes ≠ [] := by
  have hsize : PacketHeader.ofBytes (headerBytes (4 + n) mType ++ fields) = _ :=
    ofBytes_headerBytes (by omega) ht fields
  have hmem : (headerBytes (4 + n) mType ++ fields).length = 4 + n := by
    simp [headerBytes, shortBytes, hn]
    omega
  have hcovers : (PacketHeader.ofBytes (headerBytes (4 + n) mType ++ fields)).mSize ≤
      (headerBytes (4 + n) mType ++ fields).length := by rw [hsize, hmem]
  refine ⟨⟨_, hcovers⟩, rfl, ?_⟩
  change (headerBytes (4 + n) mType ++ fields).take
    (sizeT (PacketHeader.ofBytes (headerBytes (4 + n) mType ++ fields)).mSize) ≠ []
  rw [hsize, ← List.length_pos_iff, List.length_take, hmem]
  simp only [sizeT]
  omega

theorem broadcastOf_packet {kind : Request} {image pkt : List Byte}
    (hlen : image.length = kind.structSize) (h : broadcastOf kind image = some pkt) :
    ∃ p : Packet, p.memory = pkt ∧ p.bytes ≠ [] := by
  cases kind with
  | login => cases h
  | exit => cases h
  | move =>
    cases h
    refine headerBytes_packet (n := 12) (Region.length_slice ?_) (by decide) (by decide)
    exact Nat.le_of_eq hlen.symm
  | chat =>
    obtain ⟨id, chat, -, -, hresult⟩ := broadcastOf_chat h
    rw [chatBroadcastResult] at hresult
    cases hfirst : strcpy (List.replicate maxSessionLen 0) id with
    | error f => simp [hfirst, bind, Except.bind] at hresult
    | ok mPlayerId =>
      cases hsecond : strcpy (List.replicate maxChatLen 0) chat with
      | error f => simp [hfirst, hsecond, bind, Except.bind] at hresult
      | ok mChat =>
        rw [hfirst, hsecond, ok_bind, ok_bind, pure_eq_ok] at hresult
        cases hresult
        refine headerBytes_packet (n := 256) ?_ (by decide) (by decide)
        rw [List.length_append, length_strcpy hfirst, length_strcpy hsecond,
          List.length_replicate, List.length_replicate, maxSessionLen, maxChatLen]

theorem handlePacket_broadcast {sid : SessionId} {kind : Request} {image pkt : List Byte}
    (h : broadcastOf kind image = some pkt) (w : Server ε) :
    handlePacket E sid kind image w = w.broadcastMessage E pkt := by
  cases kind with
  | login => cases h
  | exit => cases h
  | move =>
    cases h
    rfl
  | chat =>
    obtain ⟨id, chat, hid, hchat, hresult⟩ := broadcastOf_chat h
    simp only [handlePacket, hid, hchat, hresult]

theorem Apart.dispatch {w : Server ε} {sid : SessionId} (h : w.nextBroadcast sid = none) :
    Apart sid w (Server.dispatchStep E sid w).server := by
  have hrefl : Apart sid w w := .of_same (fun _ _ => rfl) rfl rfl
  refine dispatchStep_of_body hrefl ?_
  rw [Receiver.dispatchBody]
  cases hn : nextFrame ((receiver E sid).mRecvBuffer w) with
  | wait => exact hrefl
  | invalidType => exact Apart.disconnect ..
  | unregistered => exact Apart.disconnect ..
  | parseError k => exact hrefl
  | fault f => exact hrefl.raise f
  | parsed kind image b =>
    have hnone : broadcastOf kind image = none := by
      change nextFrame (w.sessions sid).mRecvBuffer = _ at hn
      rw [nextBroadcast, hn] at h
      exact h
    have hrecv : Apart sid w (w.setRecv sid b) := .modify ..
    have hraise : ∀ f, Apart sid w ((w.setRecv sid b).raise f) := hrecv.raise
    have hhandle : Apart sid w (handlePacket E sid kind image (w.setRecv sid b)) := by
      unfold handlePacket
      cases kind with
      | login =>
        cases cString (imagePlayerId image) with
        | none => exact hraise _
        | some id => exact hrecv.trans (.playerLogin ..)
      | exit =>
        cases cString (imagePlayerId image) with
        | none => exact hraise _
        | some id => exact hrecv.trans (.playerLogout ..)
      | move => cases hnone
      | chat =>
        rw [broadcastOf] at hnone
        cases hid : cString (imagePlayerId image) with
        | none => exact hraise _
        | some id =>
          cases hchat : cString (imageChat image) with
          | none => exact hraise _
          | some chat =>
            simp only [hid, hchat] at hnone ⊢
            cases hc : chatBroadcastResult id chat with
            | error f => exact hraise _
            | ok pkt =>
              rw [hc] at hnone
              cases hnone
    simpa only [Loop.Iter.Holds, receiver, Server.setRecv] using hhandle

/-- Handling a packet hands nothing to a socket. -/
theorem dispatchStep_accepted (w : Server ε) (sid : SessionId) :
    (Server.dispatchStep E sid w).server.accepted = w.accepted := by
  cases hof : w.nextBroadcast sid with
  | none => exact (Apart.dispatch hof).accepted
  | some pkt =>
    rw [nextBroadcast] at hof
    cases hn : nextFrame (w.sessions sid).mRecvBuffer with
    | parsed kind image b =>
      rw [hn] at hof
      rw [dispatchStep_handles hn, handlePacket_broadcast hof]
      exact broadcast_accepted pkt (w.setRecv sid b)
    | _ => simp [hn] at hof

theorem Apart.receiveStep (w : Server ε) (sid : SessionId) :
    Apart sid w (Server.receiveStep E sid w).server := by
  have hread : ∀ b e, Apart sid w { w.setRecv sid b with env := e } := fun b e =>
    (Apart.modify w sid fun s => { s with mRecvBuffer := b }).trans
      (.of_same (fun _ _ => rfl) rfl rfl)
  rw [Server.receiveStep, receiveBody_eq]
  dsimp only
  cases (E.read (w.sessions sid).mSocket (w.sessions sid).mRecvBuffer.freeSpace w.env).1 with
  | eagain => exact hread _ _
  | error => exact (hread _ _).trans (.disconnect ..)
  | data bytes =>
    dsimp only
    cases (w.sessions sid).mRecvBuffer.prepare.storeAt
        (receiveWindow E.argOrder (w.sessions sid).mRecvBuffer).1 bytes bytes.length with
    | error f => exact (hread _ _).raise f
    | ok b =>
      exact (hread _ _).trans (Apart.modify _ sid fun s =>
        { s with mRecvBuffer := b.commit bytes.length })

theorem broadcast_heard {w : Server ε} {sid : SessionId}
    (h : Reachable E Free ⟨w, .dispatching sid⟩) {pkt : List Byte}
    (hpkt : w.nextBroadcast sid = some pkt) :
    (Unreached E w (sizeT (PacketHeader.ofBytes pkt).mSize) w.env
        (w.gameLift.mPlayerSessions.sort (· ≤ ·)) →
      ∀ s, Untouched w (dispatchStep E sid w).server s) ∧
    (¬Unreached E w (sizeT (PacketHeader.ofBytes pkt).mSize) w.env
        (w.gameLift.mPlayerSessions.sort (· ≤ ·)) →
      ∃ s, ¬Untouched w (dispatchStep E sid w).server s) := by
  have hinv := (h.buffered sid (h.known.2 sid (Or.inr rfl))).1.inv
  cases hn : nextFrame (w.sessions sid).mRecvBuffer with
  | parsed kind image b =>
    have hof : broadcastOf kind image = some pkt := by
      rw [nextBroadcast, hn] at hpkt
      exact hpkt
    have hframe : frameOf (w.sessions sid).mRecvBuffer.contents =
        .parsed kind image b.contents := by
      rw [← hinv.nextFrame_spec.1, hn]
      rfl
    obtain ⟨hle, himage, -⟩ := frameOf_parsed hframe
    have hlen : image.length = kind.structSize := by
      rw [himage, List.length_take, Nat.min_eq_left hle]
    obtain ⟨p, rfl, hp⟩ := broadcastOf_packet hlen hof
    have hstart : Unmoved (w.setRecv sid b) (w.setRecv sid b) w.env
        (w.gameLift.mPlayerSessions.sort (· ≤ ·)) :=
      ⟨rfl, rfl, fun s => .refl _ s, fun _ _ => rfl⟩
    have hsized : ∀ s ∈ w.gameLift.mPlayerSessions.sort (· ≤ ·),
        ((w.setRecv sid b).sessions s).mSendBuffer.Sized := by
      intro s hs
      rw [setRecv_send]
      exact h.members_sized s ((Finset.mem_sort _).mp hs)
    have hrun := hstart.run (E := E) (Finset.sort_nodup ..)
      (fun s hs => (Finset.mem_sort _).mp hs) hsized hp
    rw [unreached_setRecv] at hrun
    have hstep : (dispatchStep E sid w).server =
        (w.gameLift.mPlayerSessions.sort (· ≤ ·)).foldl (broadcastTo E p.memory)
          (w.setRecv sid b) := by
      rw [dispatchStep_handles hn]
      exact handlePacket_broadcast hof _
    have hsame : ∀ s, Untouched w (dispatchStep E sid w).server s ↔
        Untouched (w.setRecv sid b) (dispatchStep E sid w).server s := by
      intro s
      have hrecv := untouched_setRecv w sid s b
      exact ⟨fun hu => ⟨hu.stream.trans hrecv.stream.symm, hu.connected.trans hrecv.connected.symm⟩,
        hrecv.trans⟩
    simp only [hsame]
    rw [hstep]
    refine ⟨hrun.1, fun hun => ?_⟩
    obtain ⟨s, -, hs⟩ := hrun.2 hun
    exact ⟨s, hs⟩
  | _ => simp [nextBroadcast, hn] at hpkt

end Server

open Server

/-- A packet reaches only sessions that a player speaks to if and only if it is not
broadcast, comes from a player, or no member can be reached by it. Whatever else a
connection does leaves the others alone. -/
theorem heard_iff (E : Env ε) (w : Server ε) (sid : SessionId)
    (h : Reachable E Free ⟨w, .dispatching sid⟩) :
    (HeardOnly E w sid ↔ ∀ pkt, w.nextBroadcast sid = some pkt → Player w sid ∨
      Unreached E w (sizeT (PacketHeader.ofBytes pkt).mSize) w.env
        (w.gameLift.mPlayerSessions.sort (· ≤ ·))) ∧
    ∀ v : Server ε, Apart sid v (receiveStep E sid v).server := by
  refine ⟨⟨fun hheard pkt hpkt => ?_, fun hspeaks s hs => ?_⟩, fun v => .receiveStep v sid⟩
  · by_contra hnot
    rw [not_or] at hnot
    obtain ⟨s, hs⟩ := (broadcast_heard h hpkt).2 hnot.2
    rcases hheard s fun _ => by simp [hpkt] with hplayer | hun
    · exact hnot.1 hplayer
    · exact hs hun
  · cases hpkt : w.nextBroadcast sid with
    | none =>
      have hne : s ≠ sid := fun he => hs he hpkt
      exact Or.inr ((Apart.dispatch hpkt).untouched hne)
    | some pkt =>
      rcases hspeaks pkt hpkt with hplayer | hun
      · exact Or.inl hplayer
      · exact Or.inr ((broadcast_heard h hpkt).1 hun s)

theorem chatRequest_broadcast {w : Server (List ReadResult)} {sid : SessionId} {rest : List Byte}
    (hr : (w.sessions sid).mRecvBuffer.Inv)
    (hc : (w.sessions sid).mRecvBuffer.contents = chatRequest.toBytes ++ rest) :
    w.nextBroadcast sid = some chatReply := by
  have hf := chatRequest.frameOf_toBytes rest
  rw [← hc] at hf
  obtain ⟨b, -, -, hnext, -⟩ := dispatchStep_parsed (E := congested) hr hf
  have hid : cString (imagePlayerId chatRequest.toBytes) = some [] := by decide +kernel
  have htext : cString (imageChat chatRequest.toBytes) = some [] := by decide +kernel
  have hof : broadcastOf .chat chatRequest.toBytes = some chatReply := by
    rw [broadcastOf, hid, htext]
    simp only [chatBroadcastResult_empty, Except.toOption]
  rw [nextBroadcast, hnext]
  exact hof

theorem heard_player :
    ∃ w, Reachable congested Free ⟨w, .dispatching 0⟩ ∧ w.nextBroadcast 0 = some chatReply ∧
      HeardOnly congested w 0 := by
  have hlen : ((loginRequest 1).toBytes ++ chatRequest.toBytes).length ≤ 10240 := by
    rw [List.length_append, loginRequest_length, chatRequest_length]
    decide
  obtain ⟨w, hinside, hw, -, hissued, -, hinv, hcont, -⟩ := congested_scripted.logsIn [] hlen
  have hreach := (congested_scripted.gathered_event _).inside hinside
  rw [← List.append_nil chatRequest.toBytes] at hcont
  have hplayer : Player w 0 := by
    refine ⟨hw.connected 0 (by decide), ?_⟩
    rw [hissued]
    decide
  exact ⟨w, hreach, chatRequest_broadcast hinv hcont,
    (heard_iff congested w 0 hreach).1.mpr fun _ _ => Or.inl hplayer⟩

/-- A stranger who never asked to be accepted sends a chat, and the player gets it. -/
theorem heard_stranger :
    ∃ w, Reachable congested Free ⟨w, .dispatching 1⟩ ∧ w.fault = none ∧
      (∀ id ok, .acceptPlayerSession 1 id ok ∉ w.gameLift.issued) ∧ ¬HeardOnly congested w 1 := by
  obtain ⟨w, hreach, hw⟩ := congested_scripted.spoken (chats_length (k := 1) (by decide))
  have hroom := (hw.party.send 0 (by decide)).room_at_start hw.party.front
  rw [hw.party.waiting, hw.party.sendSize, bufSize] at hroom
  have hpkt : w.nextBroadcast 1 = some chatReply := by
    have hcontents : (w.sessions 1).mRecvBuffer.contents = chatRequest.toBytes ++ [] := by
      rw [hw.contents, List.replicate_one, Framing.stream_cons]
      rfl
    exact chatRequest_broadcast hw.recv hcontents
  refine ⟨w, hreach, hw.party.fault, fun id ok hin => ?_, fun hheard => ?_⟩
  · rw [hw.issued] at hin
    simp at hin
  · have hreached : ¬Unreached congested w (sizeT (PacketHeader.ofBytes chatReply).mSize) w.env
        (w.gameLift.mPlayerSessions.sort (· ≤ ·)) := by
      rw [hw.members, Finset.sort_singleton, Unreached, if_pos (hw.party.connected 0 (by decide)),
        chatReply_size]
      omega
    obtain ⟨s, hs⟩ := (broadcast_heard hreach hpkt).2 hreached
    rcases hheard s fun _ => by simp [hpkt] with hplayer | hun
    · have hseated := hplayer.2
      rw [hw.issued] at hseated
      exact absurd hseated (by decide)
    · exact hs hun

end GameLift
