import GameLift.Membership
import GameLift.TwoClients

/-! For whom removals are requested. An EXIT removes the id in the packet, and a
disconnect the id of the session; only the second is always the session's own. -/

namespace GameLift

/-- Every removal was requested for an id that the same session had been accepted with. -/
def RemovesOwn : List SdkCall → Prop
  | [] => True
  | .removePlayerSession psess id _ :: calls =>
    .acceptPlayerSession psess id true ∈ calls ∧ RemovesOwn calls
  | _ :: calls => RemovesOwn calls

/-- The sessions on whose behalf a removal succeeded, latest first. -/
def removals : List SdkCall → List SessionId
  | [] => []
  | .removePlayerSession psess _ true :: calls => psess :: removals calls
  | _ :: calls => removals calls

namespace GameLiftManager

variable {ε : Type} {S : Sdk ε}

theorem removesOwn_remove (psess : SessionId) (id : PlayerId) (m : GameLiftManager) (e : ε) :
    RemovesOwn (m.removePlayerSession S psess id e).1.issued ↔
      .acceptPlayerSession psess id true ∈ m.issued ∧ RemovesOwn m.issued := by
  rcases removePlayerSession_issued (S := S) psess id m e with h | h <;>
    rw [h] <;>
    rfl

theorem issued_subset_remove (psess : SessionId) (id : PlayerId) (m : GameLiftManager) (e : ε) :
    m.issued ⊆ (m.removePlayerSession S psess id e).1.issued := by
  intro call hcall
  rcases removePlayerSession_issued (S := S) psess id m e with h | h <;>
    rw [h] <;>
    simp [hcall]

theorem removals_remove (psess : SessionId) (id : PlayerId) (m : GameLiftManager) (e : ε) :
    removals (m.removePlayerSession S psess id e).1.issued =
      if (S.removePlayerSession id e).1 then psess :: removals m.issued else removals m.issued := by
  rcases removePlayerSession_issued (S := S) psess id m e with h | h <;>
    rw [h] <;>
    cases (S.removePlayerSession id e).1 <;>
    rfl

theorem removedCount_remove {m : GameLiftManager}
    (h : m.mRemovedCount = (removals m.issued).length) (psess : SessionId) (id : PlayerId) (e : ε) :
    (m.removePlayerSession S psess id e).1.mRemovedCount =
      (removals (m.removePlayerSession S psess id e).1.issued).length := by
  rw [removals_remove, (removePlayerSession_counts (S := S) psess id m e).2.1, h]
  split_ifs <;> simp

end GameLiftManager

namespace Server

variable {ε : Type} {E : Env ε}

structure Owned (w : Server ε) : Prop where
  own : RemovesOwn w.gameLift.issued
  count : w.gameLift.mRemovedCount = (removals w.gameLift.issued).length
  id : ∀ s, (w.sessions s).mPlayerSessionId ≠ [] →
    .acceptPlayerSession s (w.sessions s).mPlayerSessionId true ∈ w.gameLift.issued

/-- An EXIT that is handled next carries an id that its session was accepted with. -/
def ExitFits (c : Config ε) : Prop :=
  ∀ sid id b, c.control = .dispatching sid → c.server.Handles sid .exit id b →
    .acceptPlayerSession sid id true ∈ c.server.gameLift.issued

theorem Owned.of_eq {w w' : Server ε} (h : w.Owned) (hg : w'.gameLift = w.gameLift)
    (hid : ∀ s, (w'.sessions s).mPlayerSessionId = (w.sessions s).mPlayerSessionId) : w'.Owned := by
  refine ⟨hg ▸ h.own, hg ▸ h.count, fun s hs => ?_⟩
  rw [hid, hg]
  exact h.id s (hid s ▸ hs)

theorem Owned.more {w w' : Server ε} (h : w.Owned) {m : GameLiftManager}
    (hg : w'.gameLift = m) (hown : RemovesOwn m.issued ↔ RemovesOwn w.gameLift.issued)
    (hremoved : removals m.issued = removals w.gameLift.issued)
    (hcount : m.mRemovedCount = w.gameLift.mRemovedCount) (hsub : w.gameLift.issued ⊆ m.issued)
    (hid : ∀ s, (w'.sessions s).mPlayerSessionId = (w.sessions s).mPlayerSessionId) : w'.Owned where
  own := hg ▸ hown.mpr h.own
  count := by rw [hg, hcount, hremoved, h.count]
  id s hs := by
    rw [hg, hid]
    exact hsub (h.id s (hid s ▸ hs))

theorem Owned.setId {w : Server ε} (h : w.Owned) {sid : SessionId} {id : PlayerId}
    (hin : id ≠ [] → .acceptPlayerSession sid id true ∈ w.gameLift.issued) :
    (w.setId sid id).Owned := by
  refine ⟨h.own, h.count, fun s hs => ?_⟩
  rw [setId_id] at hs ⊢
  split_ifs at hs ⊢ with he
  · exact he ▸ hin hs
  · exact h.id s hs

theorem Owned.answered {w : Server ε} (h : w.Owned) (sid : SessionId) (id : PlayerId) :
    (w.answered E sid id).Owned :=
  h.more rfl Iff.rfl rfl rfl (List.subset_cons_self ..) fun _ => rfl

theorem Owned.removePlayerSession {w : Server ε} (h : w.Owned) {sid : SessionId} {id : PlayerId}
    (hin : .acceptPlayerSession sid id true ∈ w.gameLift.issued) :
    (w.removePlayerSession E sid id).Owned where
  own := (GameLiftManager.removesOwn_remove ..).mpr ⟨hin, h.own⟩
  count := GameLiftManager.removedCount_remove h.count sid id w.env
  id s hs := GameLiftManager.issued_subset_remove sid id w.gameLift w.env (h.id s hs)

theorem Owned.closed {w : Server ε} (h : w.Owned) (sid : SessionId) :
    (w.closed sid w.gameLift w.env).Owned := by
  refine ⟨h.own, h.count, fun s hs => ?_⟩
  rw [closed_id] at hs ⊢
  split_ifs at hs ⊢
  · exact absurd rfl hs
  · exact h.id s hs

theorem owned_stable : Stable E (Owned : Server ε → Prop) :=
  .of_closed (fun hq h => h.of_eq hq.gameLift hq.id) (fun _ _ h => h.closed _)
    fun _ hid h => (h.removePlayerSession (E := E) (h.id _ hid)).closed _

theorem upheld_owned : Upheld E ExitFits (Owned : Server ε → Prop) where
  stable := owned_stable
  receive h := h.of_eq rfl fun s => setRecv_id ..
  lookup := by
    intro w sock _ h
    rcases startReceive_cases w sock with ⟨sid, -, -, he⟩ | ⟨f, he⟩ | ⟨-, he⟩ <;> rw [he]
    · exact h
    · exact h.of_eq rfl fun _ => rfl
    · exact h.of_eq rfl fun _ => rfl
  create := by
    intro w sock sid send recv _ _ _ h
    refine ⟨h.own, h.count, fun s hs => ?_⟩
    rw [created_sessions] at hs ⊢
    split_ifs at hs ⊢
    · exact absurd rfl hs
    · exact h.id s hs
  accepted := by
    intro w sid id b _ _ _ h hok
    have hrecv : (w.setRecv sid b).Owned := h.of_eq rfl fun s => setRecv_id ..
    refine (hrecv.answered (E := E) sid id).setId fun _ => ?_
    have hans : (E.acceptPlayerSession id (w.setRecv sid b).env).1 = true := hok
    rw [Server.answered, hans]
    exact List.mem_cons_self
  rejected := by
    intro w sid id b _ _ _ h _
    have hrecv : (w.setRecv sid b).Owned := h.of_eq rfl fun s => setRecv_id ..
    exact hrecv.answered sid id
  removed := by
    intro w sid id b _ hg hh h
    have hrecv : (w.setRecv sid b).Owned := h.of_eq rfl fun s => setRecv_id ..
    exact (hrecv.removePlayerSession (hg sid id b rfl hh)).setId fun hne => absurd rfl hne
  started h := h.more rfl Iff.rfl rfl rfl (List.subset_cons_self ..) fun _ => rfl
  terminated h := h.more rfl Iff.rfl rfl rfl
    (fun _ hc => List.mem_cons_of_mem _ (List.mem_cons_of_mem _ hc)) fun _ => rfl
  outside _ h := h.of_eq rfl fun _ => rfl

/-- From `w` to `w'` only the session `sid` was worked on. -/
structure Apart (sid : SessionId) (w w' : Server ε) : Prop where
  others : ∀ t, t ≠ sid → w'.sessions t = w.sessions t
  accepted : w'.accepted = w.accepted
  members : ∀ t, t ≠ sid → (t ∈ w'.gameLift.mPlayerSessions ↔ t ∈ w.gameLift.mPlayerSessions)
  calls : ∃ new, w'.gameLift.issued = new ++ w.gameLift.issued ∧
    ∀ t id ok, .removePlayerSession t id ok ∈ new → t = sid

namespace Apart

variable {sid : SessionId} {u v w : Server ε}

theorem of_same (ho : ∀ t, t ≠ sid → v.sessions t = w.sessions t) (ha : v.accepted = w.accepted)
    (hg : v.gameLift = w.gameLift) : Apart sid w v where
  others := ho
  accepted := ha
  members t _ := by rw [hg]
  calls := ⟨[], by rw [hg, List.nil_append], fun _ _ _ h => absurd h List.not_mem_nil⟩

theorem trans (h : Apart sid w v) (h' : Apart sid v u) : Apart sid w u where
  others t ht := (h'.others t ht).trans (h.others t ht)
  accepted := h'.accepted.trans h.accepted
  members t ht := (h'.members t ht).trans (h.members t ht)
  calls := by
    obtain ⟨new, hn, hown⟩ := h.calls
    obtain ⟨new', hn', hown'⟩ := h'.calls
    refine ⟨new' ++ new, by rw [hn', hn, List.append_assoc], fun t id ok hin => ?_⟩
    rcases List.mem_append.mp hin with hin | hin
    · exact hown' t id ok hin
    · exact hown t id ok hin

theorem raise (h : Apart sid w v) (f : Fault) : Apart sid w (v.raise f) :=
  h.trans (.of_same (fun _ _ => rfl) rfl rfl)

theorem modify (w : Server ε) (sid : SessionId) (f : ClientSession → ClientSession) :
    Apart sid w (w.modify sid f) :=
  .of_same (fun t ht => by rw [modify_sessions, if_neg ht]) rfl rfl

theorem printOut (w : Server ε) (sid : SessionId) (fmt : String) (arg : List Byte) :
    Apart sid w (w.printOut fmt arg) := by
  rw [Server.printOut]
  split_ifs
  · exact .of_same (fun _ _ => rfl) rfl rfl
  · exact .of_same (fun _ _ => rfl) rfl rfl

theorem removePlayerSession (w : Server ε) (sid : SessionId) (id : PlayerId) :
    Apart sid w (w.removePlayerSession E sid id) where
  others _ _ := rfl
  accepted := rfl
  members t ht := by
    change t ∈ (w.gameLift.removePlayerSession E.toSdk sid id w.env).1.mPlayerSessions ↔ _
    rw [(GameLiftManager.removePlayerSession_counts (S := E.toSdk) sid id w.gameLift w.env).2.2]
    split_ifs
    · simp [ht]
    · rfl
  calls := by
    change ∃ new, (w.gameLift.removePlayerSession E.toSdk sid id w.env).1.issued = _ ∧ _
    rcases GameLiftManager.removePlayerSession_issued (S := E.toSdk) sid id w.gameLift w.env with
      h | h
    · refine ⟨[_], h, fun t id' ok hin => ?_⟩
      simp only [List.mem_singleton, SdkCall.removePlayerSession.injEq] at hin
      exact hin.1
    · refine ⟨[_, _, _], h, fun t id' ok hin => ?_⟩
      simp only [List.mem_cons, reduceCtorEq, SdkCall.removePlayerSession.injEq, List.not_mem_nil,
        or_false, false_or] at hin
      exact hin.1

theorem answered (w : Server ε) (sid : SessionId) (id : PlayerId) :
    Apart sid w (w.answered E sid id) := by
  refine ⟨fun _ _ => rfl, rfl, fun t ht => ?_, [_], rfl, fun t id' ok hin => ?_⟩
  · dsimp only [Server.answered]
    split_ifs
    · simp [ht]
    · rfl
  · simp at hin

theorem closed (w : Server ε) (sid : SessionId) (e : ε) :
    Apart sid w (w.closed sid w.gameLift e) :=
  .of_same (fun _ ht => Function.update_of_ne ht ..) rfl rfl

theorem disconnect (w : Server ε) (sid : SessionId) : Apart sid w (w.disconnect E sid) := by
  have hlinger : ∀ e, Apart sid w { w with env := e } := fun e => .of_same (fun _ _ => rfl) rfl rfl
  rcases disconnect_cases (E := E) w sid with ⟨-, he⟩ | ⟨-, he⟩ | ⟨-, -, he⟩ | ⟨-, -, he⟩ <;>
    rw [he]
  · exact .of_same (fun _ _ => rfl) rfl rfl
  · exact hlinger _
  · exact closed ..
  · have hremoved := (hlinger (E.setLinger (w.sessions sid).mSocket w.env).2).trans
      (removePlayerSession (E := E) _ sid (w.sessions sid).mPlayerSessionId)
    exact hremoved.trans (closed _ sid _)

theorem sendRequest (w : Server ε) (sid : SessionId) (pkt : List Byte) :
    Apart sid w (w.sendRequest E sid pkt).2 := by
  rw [Server.sendRequest]
  split_ifs
  · cases (w.sessions sid).mSendBuffer.write pkt (sizeT (PacketHeader.ofBytes pkt).mSize) with
    | error f => exact .of_same (fun _ _ => rfl) rfl rfl
    | ok r =>
      obtain ⟨ok, b⟩ := r
      have hset := modify w sid fun s => { s with mSendBuffer := b }
      cases ok
      · exact hset.trans (disconnect ..)
      · exact hset
  · exact .of_same (fun _ _ => rfl) rfl rfl

theorem playerLogin (w : Server ε) (sid : SessionId) (id : PlayerId) :
    Apart sid w (w.playerLogin E sid id) := by
  have hacc := answered (E := E) w sid id
  cases hok : (E.acceptPlayerSession id w.env).1 with
  | true =>
    rw [playerLogin_accepted hok]
    have hprint := (hacc.trans (modify _ sid fun s => { s with mPlayerSessionId := id })).trans
      (printOut _ sid "[PLAYER] PlayerLogin: %s \n" id)
    unfold Server.welcome
    dsimp only
    cases loginResult id with
    | error f => exact hprint.raise f
    | ok pkt =>
      have hsend := hprint.trans (sendRequest (E := E) _ sid pkt)
      dsimp only
      split_ifs
      · exact hsend
      · exact (hsend.trans (printOut ..)).trans (disconnect ..)
  | false =>
    rw [playerLogin_refused hok]
    exact (hacc.trans (printOut ..)).trans (disconnect ..)

theorem playerLogout (w : Server ε) (sid : SessionId) (id : PlayerId) :
    Apart sid w (w.playerLogout E sid id) :=
  (((removePlayerSession w sid id).trans (modify ..)).trans (printOut ..)).trans (disconnect ..)

theorem dispatchStep {w : Server ε} {sid : SessionId} {kind : Request} {id : PlayerId}
    {b : CircularBuffer} (hh : w.Handles sid kind id b) (hkind : kind = .login ∨ kind = .exit) :
    Apart sid w (Server.dispatchStep E sid w).server := by
  obtain ⟨image, hn, hid⟩ := hh
  rw [dispatchStep_handles hn]
  have hrecv : Apart sid w (w.setRecv sid b) := modify ..
  rcases hkind with rfl | rfl <;>
    simp only [handlePacket, hid]
  · exact hrecv.trans (playerLogin ..)
  · exact hrecv.trans (playerLogout ..)

end Apart

theorem removesOwn_suffix {new calls : List SdkCall} (h : RemovesOwn (new ++ calls)) :
    RemovesOwn calls := by
  induction new with
  | nil => exact h
  | cons call new ih =>
    cases call with
    | removePlayerSession psess id ok => exact ih h.2
    | _ => exact ih h

theorem exit_own {w : Server ε} {sid : SessionId} {id : PlayerId} {b : CircularBuffer}
    (hh : w.Handles sid .exit id b)
    (h : RemovesOwn (dispatchStep E sid w).server.gameLift.issued) :
    .acceptPlayerSession sid id true ∈ w.gameLift.issued := by
  obtain ⟨image, hn, hid⟩ := hh
  rw [dispatchStep_handles hn] at h
  simp only [handlePacket, hid, Server.playerLogout] at h
  have hrest := ((Apart.modify ((w.setRecv sid b).removePlayerSession E sid id) sid
    fun s => { s with mPlayerSessionId := [] }).trans (.printOut _ sid
      "[PLAYER] PlayerLogout: %s \n" id)).trans (.disconnect (E := E) _ sid)
  obtain ⟨new, hissued, -⟩ := hrest.calls
  rw [hissued] at h
  exact ((GameLiftManager.removesOwn_remove (S := E.toSdk) ..).mp (removesOwn_suffix h)).1

theorem exitRequest_size (c : Byte) : sizeofPacketHeader +
    (c :: List.replicate 127 0).length = Request.exit.structSize := by
  rw [List.length_cons, List.length_replicate]
  rfl

def exitRequest (c : Byte) : ClientPacket :=
  ⟨.exit, c :: List.replicate 127 0, exitRequest_size c⟩

/-- What a logout of a connected session makes of the manager. -/
theorem playerLogout_gameLift {w : Server ε} {sid : SessionId} (c : Byte)
    (hl : ∀ sock e, (E.setLinger sock e).1 = true) (hc : (w.sessions sid).mConnected = true) :
    (w.playerLogout E sid [c]).gameLift =
      (w.gameLift.removePlayerSession E.toSdk sid [c] w.env).1 := by
  have hfmt : "[PLAYER] PlayerLogout: %s \n".length < 100 := by decide +kernel
  obtain ⟨u, hu⟩ : ∃ u, u = (w.removePlayerSession E sid [c]).setId sid [] := ⟨_, rfl⟩
  have hconn : (u.sessions sid).mConnected = true := by
    rw [hu, setId_connected]
    exact hc
  have hempty : (u.sessions sid).mPlayerSessionId = [] := by rw [hu, setId_id, if_pos rfl]
  have hprint := printOut_letter u c hfmt
  rw [hu, setId] at hprint hconn hempty
  rw [playerLogout, hprint, disconnect_plain hconn (hl _ _) hempty]
  rfl

/-- A player logs in, and has sent an EXIT together with its LOGIN. -/
theorem joined_leaving :
    ∃ w, Reachable playback (fun c _ => ExitFits c) ⟨w, .dispatching 0⟩ ∧
      Seat w (Seat.loggedIn .initialized 7) (Seat.activated (launched [[7]] []).env 7) true [7]
        (exitRequest 7).toBytes 132 := by
  have hlen : ((loginRequest 7).toBytes ++ (exitRequest 7).toBytes).length ≤ 4096 := by
    rw [List.length_append, loginRequest_length, (exitRequest 7).length_toBytes]
    decide
  have hnot : ∀ {v : Server Playback} {control : Control}, (∀ sid, control ≠ .dispatching sid) →
      ExitFits ⟨v, control⟩ := fun hc sid _ _ he _ => absurd he (hc sid)
  obtain ⟨v, hrecv, hv⟩ := joined_receive [[7]] hlen
  have hjoin : Reachable playback (fun c _ => ExitFits c)
      ⟨joined [[7]] [.data ((loginRequest 7).toBytes ++ (exitRequest 7).toBytes)], .receiving 0⟩ := by
    refine joined_reachable (fun c _ hidle _ => ?_) _ _
    obtain ⟨u, control⟩ := c
    exact hnot fun sid he => by cases hidle.symm.trans he
  have hreceive : Step playback
      ⟨joined [[7]] [.data ((loginRequest 7).toBytes ++ (exitRequest 7).toBytes)], .receiving 0⟩
        ⟨v, .dispatching 0⟩ := hrecv ▸ .receive
  have hread := hjoin.step rfl hreceive (hnot fun _ he => by cases he)
  have hreserved : (launched [[7]] []).env.status [7] = .reserved := rfl
  obtain ⟨b, -, hlogin, -⟩ := hv.login (by decide)
  obtain ⟨w, hstep, hw⟩ := hv.login_live (by decide) hreserved (Nat.zero_le _)
  have hfits : ExitFits ⟨v, .dispatching 0⟩ := by
    intro sid id b' hsid hexit
    cases hsid
    cases (hlogin.unique hexit).1
  have hdispatch : Step playback ⟨v, .dispatching 0⟩ ⟨w, .dispatching 0⟩ := hstep ▸ .dispatch
  exact ⟨w, hread.step hv.fault hdispatch hfits, hw⟩

/-- The EXIT fits, and it takes the player from the game. -/
theorem leaving_exits {w : Server Playback}
    (hw : Seat w (Seat.loggedIn .initialized 7) (Seat.activated (launched [[7]] []).env 7) true [7]
      (exitRequest 7).toBytes 132) :
    ExitFits ⟨w, .dispatching 0⟩ ∧ (dispatchStep playback 0 w).server.gameLift =
      (w.gameLift.removePlayerSession playback.toSdk 0 [7] w.env).1 := by
  have hframe : frameOf (w.sessions 0).mRecvBuffer.contents =
      .parsed .exit (exitRequest 7).toBytes [] := by
    have hframe := (exitRequest 7).frameOf_toBytes []
    rw [List.append_nil] at hframe
    rw [hw.contents]
    exact hframe
  obtain ⟨b', -, -, hnext, hexit⟩ := dispatchStep_parsed (E := playback) hw.recv hframe
  have hid : cString (imagePlayerId (exitRequest 7).toBytes) = some [7] :=
    loginRequest_id (by decide)
  refine ⟨fun sid id b'' hsid hother => ?_, ?_⟩
  · cases hsid
    have hself : w.Handles 0 .exit [7] b' := ⟨_, hnext, hid⟩
    rw [← (hself.unique hother).2]
    change _ ∈ w.gameLift.issued
    rw [hw.gameLift]
    exact List.mem_cons_self
  · have hhandle : handlePacket playback 0 .exit (exitRequest 7).toBytes (w.setRecv 0 b') =
        (w.setRecv 0 b').playerLogout playback 0 [7] := by
      rw [handlePacket]
      simp only [hid]
    have hgame := playerLogout_gameLift (E := playback) (w := w.setRecv 0 b') 7 (fun _ _ => rfl)
      ((setRecv_connected ..).trans hw.connected)
    rw [hexit]
    exact (congrArg Server.gameLift hhandle).trans hgame

/-- While every EXIT carries an id of its own session, sessions remove themselves only,
and the next packet keeps it so exactly when it is no EXIT with a foreign id. A LOGIN
or an EXIT never changes another session, its membership or its share of the count. -/
theorem removals_own (E : Env ε) :
    (∀ c, Reachable E (fun c _ => ExitFits c) c → RemovesOwn c.server.gameLift.issued ∧
      c.server.gameLift.mRemovedCount = (removals c.server.gameLift.issued).length) ∧
    (∀ w sid, Reachable E (fun c _ => ExitFits c) ⟨w, .dispatching sid⟩ →
      (RemovesOwn (dispatchStep E sid w).server.gameLift.issued ↔
        ExitFits ⟨w, .dispatching sid⟩)) ∧
    ∀ w sid kind id b, w.Handles sid kind id b → kind = .login ∨ kind = .exit →
      Apart sid w (dispatchStep E sid w).server := by
  have howned : ∀ c, Reachable E (fun c _ => ExitFits c) c → c.server.Owned := by
    intro c hc
    refine hc.invariant upheld_owned (fun w hw => ?_) fun _ _ hok => hok
    refine ⟨by rw [hw.gameLift]; trivial, by rw [hw.gameLift]; rfl, fun s hs => ?_⟩
    exact absurd (hw.id s) hs
  refine ⟨fun c hc => ⟨(howned c hc).own, (howned c hc).count⟩, fun w sid hw => ⟨?_, ?_⟩, ?_⟩
  · intro h s id b hs hh
    cases hs
    exact exit_own hh h
  · intro hfits
    have hallocated := hw.known.2 sid (Or.inr rfl)
    exact (upheld_owned.dispatchStep hallocated hfits (howned _ hw)).own
  · intro w sid kind id b hh hkind
    exact .dispatchStep hh hkind

end Server

open Server

/-- A player logs in, and then leaves under its own id. -/
theorem removals_own_exit :
    ∃ w, Reachable playback (fun c _ => ExitFits c) ⟨w, .dispatching 0⟩ ∧
      removals (dispatchStep playback 0 w).server.gameLift.issued = [0] ∧
      RemovesOwn (dispatchStep playback 0 w).server.gameLift.issued := by
  obtain ⟨w, hreach, hw⟩ := joined_leaving
  obtain ⟨hfits, hleft⟩ := leaving_exits hw
  refine ⟨w, hreach, ?_, ((removals_own playback).2.1 w 0 hreach).mpr hfits⟩
  have hremoved : (playback.removePlayerSession [7] w.env).1 = true := by
    rw [hw.env]
    rfl
  rw [hleft, GameLiftManager.removals_remove, hremoved, hw.gameLift]
  rfl

/-- A stranger who was never accepted sends an EXIT with the player's id. -/
theorem removal_foreign :
    ∃ w w', Reachable obliging Free ⟨w, .dispatching 1⟩ ∧ w.fault = none ∧
      dispatchStep obliging 1 w = ⟨w', .dispatching 1⟩ ∧
      w'.gameLift.mPlayerSessions = {0} ∧ removals w'.gameLift.issued = [1] ∧
      ¬RemovesOwn w'.gameLift.issued := by
  have hlen : (exitRequest 1).toBytes.length ≤ 10240 := by
    rw [(exitRequest 1).length_toBytes]
    decide
  obtain ⟨w, hreach, hw⟩ := obliging_scripted.spoken hlen
  have hf := (exitRequest 1).frameOf_toBytes []
  rw [List.append_nil] at hf
  have hf : frameOf (w.sessions 1).mRecvBuffer.contents =
      .parsed .exit (exitRequest 1).toBytes [] := hw.contents.symm ▸ hf
  obtain ⟨b, -, -, -, hstep⟩ := dispatchStep_parsed (E := obliging) hw.recv hf
  have hid : cString (imagePlayerId (exitRequest 1).toBytes) = some [1] :=
    loginRequest_id (by decide)
  have hhandle : handlePacket obliging 1 .exit (exitRequest 1).toBytes (w.setRecv 1 b) =
      (w.setRecv 1 b).playerLogout obliging 1 [1] := by
    rw [handlePacket]
    simp only [hid]
  have hgame : ((w.setRecv 1 b).playerLogout obliging 1 [1]).gameLift =
      (w.gameLift.removePlayerSession obliging.toSdk 1 [1] w.env).1 :=
    playerLogout_gameLift 1 (fun _ _ => rfl)
      ((setRecv_connected ..).trans (hw.party.connected 1 (by decide)))
  rw [hhandle] at hstep
  refine ⟨w, _, hreach, hw.party.fault, hstep, ?_, ?_, ?_⟩ <;>
    rw [hgame]
  · rw [(GameLiftManager.removePlayerSession_counts (S := obliging.toSdk) 1 [1] w.gameLift w.env).2.2,
      hw.members]
    rfl
  · rw [GameLiftManager.removals_remove, hw.issued]
    rfl
  · rw [GameLiftManager.removesOwn_remove, hw.issued]
    rintro ⟨hin, -⟩
    exact absurd hin (by decide)

end GameLift
