import GameLift.OrderedBroadcast
import GameLift.RelayedPackets

/-! What one event does to the streams of the sessions. A broadcast reaches the
connected members, a login lets one session in, and anything else only lets go. -/

namespace GameLift

open Framing (stream)
open OrderedBroadcast (Hall Steps)
open ServerPacket (relayed)

/-- The linger option can always be set, so that `Disconnect` always closes. -/
def Env.Lingers {ε : Type} (E : Env ε) : Prop := ∀ sock e, (E.setLinger sock e).1 = true

namespace Server

variable {ε : Type}

def Listening (w : Server ε) (s : SessionId) : Prop :=
  s ∈ w.gameLift.mPlayerSessions ∧ (w.sessions s).mConnected = true

/-- Nothing was queued and nobody let in; whoever was let go has been closed. -/
structure Mute (E : Env ε) (w w' : Server ε) : Prop where
  allocated : w'.allocated = w.allocated
  outgoing : ∀ s ∈ w.allocated, w'.outgoing s = w.outgoing s
  connected : ∀ s, (w'.sessions s).mConnected = true → (w.sessions s).mConnected = true
  members : w'.gameLift.mPlayerSessions ⊆ w.gameLift.mPlayerSessions
  gone : E.Lingers → ∀ s ∈ w.gameLift.mPlayerSessions, s ∉ w'.gameLift.mPlayerSessions →
    (w'.sessions s).mConnected = false

/-- The LoginResult `p` was queued to `sid`. -/
structure Greets (w w' : Server ε) (sid : SessionId) (p : ServerPacket) : Prop where
  allocated : w'.allocated = w.allocated
  outgoing : ∀ s, w'.outgoing s = if s = sid then w.outgoing s ++ p.toBytes else w.outgoing s
  connected : ∀ s, (w'.sessions s).mConnected = (w.sessions s).mConnected
  members : w'.gameLift.mPlayerSessions = w.gameLift.mPlayerSessions
  kind : p.kind = .login
  terminated : p.Terminated

structure Enters (w w' : Server ε) (sid : SessionId) : Prop where
  allocated : w'.allocated = w.allocated
  outgoing : ∀ s, w'.outgoing s = w.outgoing s
  connected : ∀ s, (w'.sessions s).mConnected = (w.sessions s).mConnected
  members : w'.gameLift.mPlayerSessions = insert sid w.gameLift.mPlayerSessions

/-- The packet `p` was queued to members; one that it was not queued to is closed. -/
structure Spreads (E : Env ε) (w w' : Server ε) (p : ServerPacket) : Prop where
  allocated : w'.allocated = w.allocated
  members : w'.gameLift.mPlayerSessions = w.gameLift.mPlayerSessions
  connected : ∀ s, (w'.sessions s).mConnected = true → (w.sessions s).mConnected = true
  outgoing : ∀ s, w'.outgoing s = w.outgoing s ∨
    Listening w s ∧ w'.outgoing s = w.outgoing s ++ p.toBytes
  missed : E.Lingers → ∀ s, Listening w' s → w'.outgoing s = w.outgoing s ++ p.toBytes
  kind : p.kind ≠ .login
  terminated : p.Terminated

variable {E : Env ε} {u v w : Server ε} {sid : SessionId}

theorem Mute.of_same (ha : v.allocated = w.allocated)
    (ho : ∀ s ∈ w.allocated, v.outgoing s = w.outgoing s)
    (hc : ∀ s, (v.sessions s).mConnected = true → (w.sessions s).mConnected = true)
    (hm : v.gameLift.mPlayerSessions = w.gameLift.mPlayerSessions) : Mute E w v where
  allocated := ha
  outgoing := ho
  connected := hc
  members := by rw [hm]
  gone _ s hs hout := absurd (hm ▸ hs) hout

theorem Mute.refl (w : Server ε) : Mute E w w :=
  .of_same rfl (fun _ _ => rfl) (fun _ h => h) rfl

theorem Mute.trans (h : Mute E w v) (h' : Mute E v u) : Mute E w u where
  allocated := h'.allocated.trans h.allocated
  outgoing s hs := (h'.outgoing s (h.allocated.symm ▸ hs)).trans (h.outgoing s hs)
  connected s hs := h.connected s (h'.connected s hs)
  members := h'.members.trans h.members
  gone hl s hs hout := by
    by_cases hv : s ∈ v.gameLift.mPlayerSessions
    · exact h'.gone hl s hv hout
    · have hgone := h.gone hl s hs hv
      by_contra hc
      rw [h'.connected s (Bool.not_eq_false _ ▸ hc)] at hgone
      cases hgone

theorem Mute.raise (h : Mute E w v) (f : Fault) : Mute E w (v.raise f) :=
  h.trans (.of_same rfl (fun _ _ => rfl) (fun _ h => h) rfl)

theorem Mute.printOut (h : Mute E w v) (fmt : String) (arg : List Byte) :
    Mute E w (v.printOut fmt arg) := by
  rw [Server.printOut]
  split_ifs
  · exact h
  · exact h.raise _

theorem Mute.setRecv (w : Server ε) (sid : SessionId) (b : CircularBuffer) :
    Mute E w (w.setRecv sid b) :=
  .of_same rfl (fun s _ => (untouched_setRecv w sid s b).stream)
    (fun s h => (setRecv_connected w sid s b).symm.trans h) rfl

theorem created_outgoing (w : Server ε) (sid s : SessionId) (sock : Socket) (send recv : Block) :
    ((w.createClient sock sid send recv).onConnect sid).outgoing s =
      if s = sid then [] else w.outgoing s := by
  obtain ⟨v, hv⟩ : ∃ v, v = (w.createClient sock sid send recv).onConnect sid := ⟨_, rfl⟩
  have haccepted : v.accepted = Function.update w.accepted sid [] := hv ▸ rfl
  rw [← hv, outgoing, haccepted, hv, created_sessions]
  by_cases hs : s = sid
  · rw [if_pos hs, if_pos hs, hs, Function.update_self, CircularBuffer.contents_new]
    rfl
  · rw [if_neg hs, if_neg hs, Function.update_of_ne hs]
    rfl

theorem closed_outgoing (w : Server ε) (sid s : SessionId) (m : GameLiftManager) (e : ε) :
    (w.closed sid m e).outgoing s = w.outgoing s := by
  rw [outgoing, outgoing, closed_send]
  rfl

theorem removed_members (w : Server ε) (sid : SessionId) (id : PlayerId) (e : ε) :
    (w.gameLift.removePlayerSession E.toSdk sid id e).1.mPlayerSessions =
      if (E.removePlayerSession id e).1 then w.gameLift.mPlayerSessions.erase sid
      else w.gameLift.mPlayerSessions :=
  (GameLiftManager.removePlayerSession_counts (S := E.toSdk) sid id w.gameLift e).2.2

/-- A removal leaves every session but its own in the set. -/
theorem removed_keeps (w : Server ε) {sid s : SessionId} (hne : s ≠ sid) (id : PlayerId) (e : ε)
    (hs : s ∈ w.gameLift.mPlayerSessions) :
    s ∈ (w.gameLift.removePlayerSession E.toSdk sid id e).1.mPlayerSessions := by
  rw [removed_members]
  split_ifs
  · exact Finset.mem_erase.mpr ⟨hne, hs⟩
  · exact hs

theorem removed_subset (w : Server ε) (sid : SessionId) (id : PlayerId) (e : ε) :
    (w.gameLift.removePlayerSession E.toSdk sid id e).1.mPlayerSessions ⊆
      w.gameLift.mPlayerSessions := by
  rw [removed_members]
  split_ifs
  · exact Finset.erase_subset ..
  · exact Finset.Subset.refl _

theorem Mute.closed (w : Server ε) (sid : SessionId) {m : GameLiftManager} (e : ε)
    (hsub : m.mPlayerSessions ⊆ w.gameLift.mPlayerSessions)
    (hkeep : ∀ s ≠ sid, s ∈ w.gameLift.mPlayerSessions → s ∈ m.mPlayerSessions) :
    Mute E w (w.closed sid m e) where
  allocated := rfl
  outgoing s _ := closed_outgoing w sid s m e
  connected s hs := by
    rw [closed_connected] at hs
    split_ifs at hs
    exact hs
  members := hsub
  gone _ s hs hout := by
    rw [closed_connected]
    split_ifs with he
    · rfl
    · exact absurd (hkeep s he hs) hout

theorem Mute.disconnect (h : Mute E w v) (sid : SessionId) : Mute E w (v.disconnect E sid) := by
  refine h.trans ?_
  rcases disconnect_cases (E := E) v sid with ⟨-, he⟩ | ⟨-, he⟩ | ⟨-, -, he⟩ | ⟨-, -, he⟩ <;>
    rw [he]
  · exact .refl v
  · exact .of_same rfl (fun _ _ => rfl) (fun _ h => h) rfl
  · exact .closed v sid _ (Finset.Subset.refl _) fun _ _ h => h
  · exact .closed v sid _ (removed_subset ..) fun _ hne hs => removed_keeps v hne _ _ hs

theorem disconnect_closes (hl : E.Lingers) (w : Server ε) (sid : SessionId) :
    ((w.disconnect E sid).sessions sid).mConnected = false := by
  cases hc : (w.sessions sid).mConnected with
  | false => rw [disconnect_gone hc, hc]
  | true =>
    rw [disconnect_closing hc (hl _ _), closing_sessions, Function.update_self]

/-- A logout lets go of its own session, which the linger option then closes. -/
theorem Mute.playerLogout (w : Server ε) (sid : SessionId) (id : PlayerId) :
    Mute E w (w.playerLogout E sid id) := by
  obtain ⟨v, hv⟩ : ∃ v, v = (w.removePlayerSession E sid id).setId sid [] := ⟨_, rfl⟩
  have hrest : Mute E v (w.playerLogout E sid id) := by
    rw [hv]
    exact ((Mute.refl _).printOut _ _).disconnect sid
  have hapart := Apart.playerLogout (E := E) w sid id
  have hmembers : v.gameLift.mPlayerSessions ⊆ w.gameLift.mPlayerSessions := by
    rw [hv]
    exact removed_subset ..
  have hkeeps : ∀ s, v.outgoing s = w.outgoing s := by
    intro s
    rw [hv, Server.outgoing, Server.outgoing, setId_send]
    rfl
  have hallocated : v.allocated = w.allocated := by
    rw [hv]
    rfl
  refine ⟨hrest.allocated.trans hallocated,
    fun s hs => (hrest.outgoing s (hallocated ▸ hs)).trans (hkeeps s), fun s hs => ?_,
    hrest.members.trans hmembers, fun hl s hs hout => ?_⟩
  · have hc := hrest.connected s hs
    rwa [hv, setId_connected] at hc
  · by_cases he : s = sid
    · rw [he]
      exact disconnect_closes hl _ sid
    · exact absurd ((hapart.members s he).mpr hs) hout

theorem Mute.receiveStep (w : Server ε) (sid : SessionId) :
    Mute E w (Server.receiveStep E sid w).server := by
  have hread : ∀ b e, Mute E w { w.setRecv sid b with env := e } := fun b e =>
    (Mute.setRecv w sid b).trans (.of_same rfl (fun _ _ => rfl) (fun _ h => h) rfl)
  rw [Server.receiveStep, receiveBody_eq]
  dsimp only
  cases (E.read (w.sessions sid).mSocket (w.sessions sid).mRecvBuffer.freeSpace w.env).1 with
  | eagain => exact hread _ _
  | error => exact (hread _ _).disconnect sid
  | data bytes =>
    dsimp only
    cases (w.sessions sid).mRecvBuffer.prepare.storeAt
        (receiveWindow E.argOrder (w.sessions sid).mRecvBuffer).1 bytes bytes.length with
    | error f => exact (hread _ _).raise f
    | ok b => exact (hread _ _).trans (.setRecv ..)

theorem sendBody_fault (hs : (w.sessions sid).mSendBuffer.Sized) :
    (sendBody E sid w).Holds (fun v => (v.sessions sid).mSendBuffer.Sized ∧ v.fault = w.fault)
      fun p => p.2.fault = w.fault := by
  have hwin := hs.inv.window_eq
  unfold sendBody
  dsimp only
  split_ifs with hpos
  · rw [CircularBuffer.window, if_pos hpos] at hwin
    rw [hwin]
    dsimp only
    cases (E.write (w.sessions sid).mSocket ((w.sessions sid).mSendBuffer.contents.take
        (w.sessions sid).mSendBuffer.getContiguiousBytes) w.env).1 with
    | eagain => rfl
    | error => rfl
    | sent n =>
      obtain ⟨b, hb, hd⟩ := hs.inv.remove_eq n
      dsimp only
      rw [hb]
      refine ⟨?_, rfl⟩
      rw [modify_sessions, if_pos rfl]
      exact hs.dropped hd
  · rfl

/-- A flush never reads or removes outside the ring. -/
theorem sendFlush_fault {w' : Server ε} {fuel : Nat} {r : FlushEnd}
    (hs : (w.sessions sid).mSendBuffer.Sized)
    (h : w.sendFlush E fuel sid = some (r, w')) : w'.fault = w.fault := by
  rw [sendFlush] at h
  split_ifs at h
  · cases h
    rfl
  · have hret : Loop.Returns (sendBody E sid) w (r, w') := ⟨fuel, h⟩
    refine hret.invariant (fun v => (v.sessions sid).mSendBuffer.Sized ∧ v.fault = w.fault)
      (fun p => p.2.fault = w.fault) ⟨hs, rfl⟩ fun v hv => ?_
    have hbody := sendBody_fault (E := E) hv.1
    rwa [hv.2] at hbody
  · cases h
    rfl

theorem sendBody_others (w : Server ε) (sid : SessionId) :
    (sendBody E sid w).Holds (fun v => ∀ t ≠ sid, v.outgoing t = w.outgoing t)
      fun p => ∀ t ≠ sid, p.2.outgoing t = w.outgoing t := by
  have hsame : ∀ {v : Server ε}, v.sessions = w.sessions →
      (∀ t ≠ sid, v.accepted t = w.accepted t) → ∀ t ≠ sid, v.outgoing t = w.outgoing t := by
    intro v hs ha t ht
    rw [outgoing, outgoing, hs, ha t ht]
  have hkept : ∀ t ≠ sid, ∀ bytes, Function.update w.accepted sid bytes t = w.accepted t :=
    fun t ht bytes => Function.update_of_ne ht ..
  rw [sendBody]
  dsimp only
  split_ifs
  · cases (w.sessions sid).mSendBuffer.loadAt (w.sessions sid).mSendBuffer.getBufferStart
        (w.sessions sid).mSendBuffer.getContiguiousBytes with
    | error f => exact hsame rfl fun _ _ => rfl
    | ok data =>
      dsimp only
      cases (E.write (w.sessions sid).mSocket data w.env).1 with
      | eagain => exact hsame rfl fun _ _ => rfl
      | error => exact hsame rfl fun _ _ => rfl
      | sent n =>
        dsimp only
        cases (w.sessions sid).mSendBuffer.remove n with
        | error f => exact hsame rfl fun t ht => hkept t ht _
        | ok b =>
          intro t ht
          rw [outgoing, outgoing, modify_sessions, if_neg ht]
          exact congrArg (· ++ _) (hkept t ht _)
  · exact fun _ _ => rfl

/-- What is handed to a socket was queued before. -/
theorem sendFlush_outgoing {w w' : Server ε} {fuel : Nat} {sid : SessionId} {r : FlushEnd}
    (hf : w.fault = none) (hw : w.Buffered) (h : w.sendFlush E fuel sid = some (r, w'))
    {s : SessionId} (hin : s ∈ w.allocated) : w'.outgoing s = w.outgoing s := by
  by_cases he : s = sid
  · have hs := (hw sid (he ▸ hin)).2
    have hstream : Streams sid [w.outgoing sid] w :=
      ⟨hs.inv, hs.size, by simp, hf⟩
    have hbytes := (hstream.sendFlush h).1.bytes
    rw [he, hbytes, List.flatten_singleton]
  · rw [sendFlush] at h
    split_ifs at h
    · cases h
      rfl
    · have hret : Loop.Returns (sendBody E sid) w (r, w') := ⟨fuel, h⟩
      refine hret.invariant (fun v => ∀ t ≠ sid, v.outgoing t = w.outgoing t)
        (fun p => ∀ t ≠ sid, p.2.outgoing t = w.outgoing t) (fun _ _ => rfl) (fun v hv => ?_) s he
      exact (sendBody_others v sid).imp (fun u hu t ht => (hu t ht).trans (hv t ht))
        fun p hp t ht => (hp t ht).trans (hv t ht)
    · cases h
      rfl

theorem Mute.sendFlush {w v v' : Server ε} {fuel : Nat} {sid : SessionId} {r : FlushEnd}
    (hsend : v.sendFlush E fuel sid = some (r, v')) (h : Mute E w v)
    (hf : v'.fault = none) (hv : v.Buffered) : Mute E w v' := by
  have hq := sendFlush_quiet hsend
  refine h.trans (.of_same hq.allocated (fun s => sendFlush_outgoing (hq.fault hf) hv hsend)
    (fun s hc => ?_) (by rw [hq.gameLift]))
  rwa [hq.connected s] at hc

theorem Mute.flushClientSend {w w' : Server ε} {fuel : Nat} (hw : w.Buffered)
    (h : w.flushClientSend E fuel = some w') (hf : w'.fault = none) : Mute E w w' := by
  have hflush : w'.fault = none → Mute E w w' ∧ w'.Buffered := by
    refine flushClients_keeps (I := fun v => v.fault = none → Mute E w v ∧ v.Buffered)
      (fun _ hfault => absurd hfault (raise_fault _ _)) ?_ ?_ h fun _ => ⟨.refl w, hw⟩
    · intro v sid hv hfault
      rw [(disconnect_send v sid).2.2] at hfault
      exact ⟨(hv hfault).1.disconnect sid, buffered_carried.disconnect (hv hfault).2⟩
    · intro v v' fuel sid r hsend hv hfault
      obtain ⟨hmute, hbuf⟩ := hv ((sendFlush_quiet hsend).fault hfault)
      exact ⟨hmute.sendFlush hsend hfault hbuf, hbuf.sendFlush hsend⟩
  exact (hflush hf).1

/-- What a broadcast of `p` did to one of its members. -/
structure Reached (E : Env ε) (w w' : Server ε) (p : Packet) (s : SessionId) : Prop where
  connected : (w'.sessions s).mConnected = true → (w.sessions s).mConnected = true
  outgoing : (w'.outgoing s = w.outgoing s ∧ (E.Lingers → (w'.sessions s).mConnected = false)) ∨
    ((w.sessions s).mConnected = true ∧ w'.outgoing s = w.outgoing s ++ p.bytes)

theorem Reached.congr {s : SessionId} {p : Packet} {w₁ v₁ : Server ε} (h : Reached E w v p s)
    (hw : w₁.sessions s = w.sessions s) (haw : w₁.accepted = w.accepted)
    (hv : v₁.sessions s = v.sessions s) (hav : v₁.accepted = v.accepted) :
    Reached E w₁ v₁ p s := by
  have how : w₁.outgoing s = w.outgoing s := by rw [Server.outgoing, Server.outgoing, hw, haw]
  have hov : v₁.outgoing s = v.outgoing s := by rw [Server.outgoing, Server.outgoing, hv, hav]
  refine ⟨?_, ?_⟩
  · rw [hw, hv]
    exact h.connected
  · rw [hw, hv, how, hov]
    exact h.outgoing

/-- One visit of a broadcast that keeps its place in the set. -/
theorem broadcastTo_visit {w : Server ε} {s : SessionId} {p : Packet}
    (hin : s ∈ w.gameLift.mPlayerSessions) (hs : (w.sessions s).mSendBuffer.Sized)
    (hf : (w.broadcastTo E p.memory s).fault = none) :
    (w.broadcastTo E p.memory s).gameLift.mPlayerSessions = w.gameLift.mPlayerSessions ∧
      (w.broadcastTo E p.memory s).allocated = w.allocated ∧
      Reached E w (w.broadcastTo E p.memory s) p s := by
  cases hc : (w.sessions s).mConnected with
  | false =>
    rw [broadcastTo_gone hin hc]
    exact ⟨rfl, rfl, fun h => h, Or.inl ⟨rfl, fun _ => hc⟩⟩
  | true =>
    by_cases hroom : w.Room s p
    · obtain ⟨b, hb, ha⟩ := hs.inv.write_accepted (p.declared_le hs.inv hs.size hroom) hroom
      rw [broadcastTo_written hin hc hb]
      refine ⟨rfl, rfl, fun _ => hc, Or.inr ⟨hc, ?_⟩⟩
      rw [Server.outgoing, Server.outgoing, modify_sessions, if_pos rfl, ha.contents_eq,
        ← List.append_assoc]
      rfl
    · have hb := hs.inv.write_refused p.memory (Nat.lt_of_not_le hroom)
      have hprep := hs.inv.appended_prepare.contents_eq
      rw [List.append_nil] at hprep
      obtain ⟨u, hu⟩ : ∃ u, u = w.modify s fun c => { c with
        mSendBuffer := (w.sessions s).mSendBuffer.prepare } := ⟨_, rfl⟩
      have hstream : u.outgoing s = w.outgoing s := by
        rw [hu]
        exact (untouched_setSend hprep s).stream
      obtain ⟨l, hl⟩ : ∃ l, l = lingers E (w.sessions s).mSocket w.env := ⟨_, rfl⟩
      have hto := broadcastTo_refused (E := E) hc hb
      rw [← hu, ← hl] at hto
      dsimp only at hto
      cases hok : l.1 with
      | false =>
        simp only [hok, Bool.false_eq_true, if_false] at hto
        have hinu : s ∈ u.gameLift.mPlayerSessions := hu ▸ hin
        rw [if_pos hinu] at hto
        rw [hto]
        refine ⟨by rw [hu]; rfl, by rw [hu]; rfl, fun _ => hc, Or.inl ⟨hstream, fun hlinger => ?_⟩⟩
        rw [hl, lingers, if_pos (hlinger _ _), hlinger _ _] at hok
        cases hok
      | true =>
        simp only [hok, if_true] at hto
        have hkept : s ∈ (u.closing E s l.2).gameLift.mPlayerSessions := by
          by_contra hout
          rw [if_neg hout] at hto
          exact raise_fault _ _ (hto ▸ hf)
        rw [if_pos hkept] at hto
        rw [hto]
        have hclosed : ((u.closing E s l.2).sessions s).mConnected = false := by
          rw [closing_sessions, Function.update_self]
        have hout : (u.closing E s l.2).outgoing s = w.outgoing s := by
          rw [← hstream, closing]
          split_ifs
          · exact closed_outgoing ..
          · exact closed_outgoing ..
        refine ⟨?_, ?_, fun _ => hc, Or.inl ⟨hout, fun _ => hclosed⟩⟩
        · rw [closing] at hkept ⊢
          split_ifs at hkept ⊢
          · rw [hu]
            rfl
          · change s ∈ (u.gameLift.removePlayerSession E.toSdk s _ _).1.mPlayerSessions at hkept
            change (u.gameLift.removePlayerSession E.toSdk s _ _).1.mPlayerSessions = _
            rw [removed_members] at hkept ⊢
            split_ifs at hkept ⊢
            · exact absurd hkept (Finset.notMem_erase _ _)
            · rw [hu]
              rfl
        · rw [closing, hu]
          split_ifs <;> rfl

theorem broadcast_visits {members : List SessionId} (hnodup : members.Nodup) {p : Packet}
    {w : Server ε} (hin : ∀ s ∈ members, s ∈ w.gameLift.mPlayerSessions)
    (hs : ∀ s ∈ members, (w.sessions s).mSendBuffer.Sized)
    (hf : (members.foldl (broadcastTo E p.memory) w).fault = none) :
    (members.foldl (broadcastTo E p.memory) w).gameLift.mPlayerSessions =
        w.gameLift.mPlayerSessions ∧
      (members.foldl (broadcastTo E p.memory) w).allocated = w.allocated ∧
      ∀ s ∈ members, Reached E w (members.foldl (broadcastTo E p.memory) w) p s := by
  induction members generalizing w with
  | nil => exact ⟨rfl, rfl, fun s hs => absurd hs List.not_mem_nil⟩
  | cons s members ih =>
    obtain ⟨hnot, hnodup⟩ := List.nodup_cons.mp hnodup
    rw [List.foldl_cons] at hf ⊢
    have hfirst : (w.broadcastTo E p.memory s).fault = none := by
      by_contra hfault
      exact broadcast_fault members p.memory hfault hf
    obtain ⟨hm, ha, hreached⟩ := broadcastTo_visit (hin s List.mem_cons_self)
      (hs s List.mem_cons_self) hfirst
    have hother : ∀ t ∈ members, (w.broadcastTo E p.memory s).sessions t = w.sessions t := by
      intro t ht
      have hne : t ≠ s := fun he => hnot (he ▸ ht)
      exact broadcastTo_others hne p.memory
    obtain ⟨hm', ha', hreached'⟩ := ih hnodup
      (fun t ht => hm ▸ hin t (List.mem_cons_of_mem _ ht))
      (fun t ht => hother t ht ▸ hs t (List.mem_cons_of_mem _ ht)) hf
    refine ⟨hm'.trans hm, ha'.trans ha, fun t ht => ?_⟩
    rcases List.mem_cons.mp ht with rfl | ht
    · exact hreached.congr rfl rfl (broadcast_others hnot p.memory _) (broadcast_accepted p.memory _)
    · exact (hreached' t ht).congr (hother t ht).symm (broadcastTo_accepted s p.memory).symm rfl rfl

theorem broadcastMessage_spreads {w : Server ε} {p : ServerPacket} (hkind : p.kind ≠ .login)
    (hterm : p.Terminated)
    (hs : ∀ s ∈ w.gameLift.mPlayerSessions, (w.sessions s).mSendBuffer.Sized)
    (hf : (w.broadcastMessage E p.toBytes).fault = none) :
    Spreads E w (w.broadcastMessage E p.toBytes) p := by
  obtain ⟨hm, ha, hreached⟩ := broadcast_visits (E := E) (p := p.packet)
    (Finset.sort_nodup w.gameLift.mPlayerSessions (· ≤ ·))
    (fun s hin => (Finset.mem_sort _).mp hin) (fun s hin => hs s ((Finset.mem_sort _).mp hin)) hf
  change (w.broadcastMessage E p.toBytes).gameLift.mPlayerSessions = _ at hm
  have hother : ∀ s ∉ w.gameLift.mPlayerSessions,
      (w.broadcastMessage E p.toBytes).sessions s = w.sessions s := fun s hout =>
    broadcast_others (fun h => hout ((Finset.mem_sort _).mp h)) _ w
  have haccepted : (w.broadcastMessage E p.toBytes).accepted = w.accepted :=
    broadcast_accepted _ w
  have hmember : ∀ s ∈ w.gameLift.mPlayerSessions,
      Reached E w (w.broadcastMessage E p.toBytes) p.packet s :=
    fun s hin => hreached s ((Finset.mem_sort _).mpr hin)
  refine ⟨ha, hm, fun s hc => ?_, fun s => ?_, fun hl s hlisten => ?_, hkind, hterm⟩
  · by_cases hin : s ∈ w.gameLift.mPlayerSessions
    · exact (hmember s hin).connected hc
    · rwa [hother s hin] at hc
  · by_cases hin : s ∈ w.gameLift.mPlayerSessions
    · rcases (hmember s hin).outgoing with ⟨he, -⟩ | ⟨hc, he⟩
      · exact Or.inl he
      · rw [p.packet_bytes] at he
        exact Or.inr ⟨⟨hin, hc⟩, he⟩
    · rw [Server.outgoing, Server.outgoing, hother s hin, haccepted]
      exact Or.inl rfl
  · have hin : s ∈ w.gameLift.mPlayerSessions := hm ▸ hlisten.1
    rcases (hmember s hin).outgoing with ⟨-, hclosed⟩ | ⟨-, he⟩
    · have hopen := hlisten.2
      rw [hclosed hl] at hopen
      cases hopen
    · rwa [p.packet_bytes] at he

theorem Enters.accepted {w : Server ε} (sid : SessionId) {id : PlayerId}
    (hok : (E.acceptPlayerSession id w.env).1 = true) :
    Enters w ((w.answered E sid id).setId sid id) sid := by
  refine ⟨rfl, fun s => ?_, fun s => setId_connected .., if_pos hok⟩
  rw [Server.outgoing, Server.outgoing, setId_send]
  rfl

/-- Being let in and having a packet queued can be taken in either order. -/
theorem accepted_setSend (w : Server ε) (sid : SessionId) (id : PlayerId) (b : CircularBuffer) :
    (((w.answered E sid id).setId sid id).modify sid fun s => { s with mSendBuffer := b }) =
      (((w.modify sid fun s => { s with mSendBuffer := b }).answered E sid id).setId sid id) := by
  simp only [answered, setId, Server.modify, Function.update_idem, Function.update_self]
  rfl

theorem Greets.written {w : Server ε} {sid : SessionId} {p : ServerPacket} {b : CircularBuffer}
    (hkind : p.kind = .login) (hterm : p.Terminated)
    (ha : (w.sessions sid).mSendBuffer.Appended p.toBytes b) :
    Greets w (w.modify sid fun s => { s with mSendBuffer := b }) sid p := by
  refine ⟨rfl, fun s => ?_, fun s => modify_keeps w sid s fun _ => rfl, rfl, hkind, hterm⟩
  rw [Server.outgoing, modify_sessions]
  split_ifs with he
  · subst he
    rw [ha.contents_eq, Server.outgoing, List.append_assoc]
    rfl
  · rfl

/-- An empty stream has room for a LoginResult. -/
theorem greeted_of_full {w : Server ε} {sid : SessionId} {p : ServerPacket}
    (hs : (w.sessions sid).mSendBuffer.Sized)
    (hfull : ¬p.packet.declared ≤ (w.sessions sid).mSendBuffer.freeSpace) :
    w.outgoing sid ≠ [] := by
  intro hnil
  have hcontents : (w.sessions sid).mSendBuffer.contents = [] :=
    (List.append_eq_nil_iff.mp hnil).2
  have hroom := hs.inv.half_free hs.size
  have hsize := p.kind.structSize_le
  rw [hcontents, List.length_nil] at hroom
  rw [p.packet_declared] at hfull
  omega

/-- `SendRequest` of a LoginResult to a session that the service has just accepted. -/
theorem welcomed_effect {w v : Server ε} {sid : SessionId} {id : PlayerId} {p : ServerPacket}
    (hs : (w.sessions sid).mSendBuffer.Sized) (hok : (E.acceptPlayerSession id w.env).1 = true)
    (hkind : p.kind = .login) (hterm : p.Terminated)
    (hv : v = (w.answered E sid id).setId sid id) :
    ((v.sendRequest E sid p.toBytes).1 = true ∧
      ∃ u, Greets w u sid p ∧ Enters u (v.sendRequest E sid p.toBytes).2 sid) ∨
    ((v.sendRequest E sid p.toBytes).1 = false ∧
      ((w.sessions sid).mConnected = true → w.outgoing sid ≠ []) ∧
      Mute E v (v.sendRequest E sid p.toBytes).2) := by
  have henter : Enters w v sid := hv ▸ Enters.accepted sid hok
  have hring : (v.sessions sid).mSendBuffer = (w.sessions sid).mSendBuffer := by
    rw [hv, setId_send]
    rfl
  cases hc : (v.sessions sid).mConnected with
  | false =>
    rw [sendRequest_gone hc]
    refine Or.inr ⟨rfl, fun hopen => ?_, .refl v⟩
    rw [← henter.connected, hc] at hopen
    cases hopen
  | true =>
    by_cases hroom : p.packet.declared ≤ (w.sessions sid).mSendBuffer.freeSpace
    · obtain ⟨b, hb, ha⟩ := hs.inv.write_accepted (p.packet.declared_le hs.inv hs.size hroom) hroom
      have hbytes : (w.sessions sid).mSendBuffer.Appended p.packet.bytes b := ha
      rw [p.packet_bytes] at hbytes
      rw [← hring] at hb
      have hsend : v.sendRequest E sid p.toBytes =
          (true, v.modify sid fun s => { s with mSendBuffer := b }) := sendRequest_accepted hc hb
      rw [hsend, hv, accepted_setSend]
      exact Or.inl ⟨rfl, _, .written hkind hterm hbytes, .accepted sid hok⟩
    · have hb := hs.inv.write_refused p.toBytes (Nat.lt_of_not_le hroom)
      have hprep := hs.inv.appended_prepare.contents_eq
      rw [List.append_nil, ← hring] at hprep
      rw [← hring] at hb
      rw [sendRequest_refused hc hb]
      refine Or.inr ⟨rfl, fun _ => greeted_of_full hs hroom, Mute.disconnect ?_ sid⟩
      refine .of_same rfl (fun s _ => (untouched_setSend hprep s).stream) (fun s h => ?_) rfl
      rwa [(untouched_setSend hprep s).connected] at h

/-- A login lets its session in after a LoginResult, or with one from before, or not at all. -/
theorem playerLogin_effect {w : Server ε} {sid : SessionId} {id : PlayerId}
    (hw : w.fault = none) (hs : (w.sessions sid).mSendBuffer.Sized) (hid : 0 ∉ id)
    (hf : (w.playerLogin E sid id).fault = none) :
    Mute E w (w.playerLogin E sid id) ∨
      (∃ v p, cString (imagePlayerId p.toBytes) = some id ∧ Greets w v sid p ∧
        Enters v (w.playerLogin E sid id) sid) ∨
      ∃ v, ((w.sessions sid).mConnected = true → w.outgoing sid ≠ []) ∧ Enters w v sid ∧
        Mute E v (w.playerLogin E sid id) := by
  cases hok : (E.acceptPlayerSession id w.env).1 with
  | false =>
    rw [playerLogin_refused hok]
    refine Or.inl (Mute.disconnect (Mute.printOut ?_ _ _) sid)
    refine .of_same rfl (fun _ _ => rfl) (fun _ h => h) ?_
    rw [answered, hok]
    rfl
  | true =>
    rw [playerLogin_accepted hok] at hf ⊢
    have hline : 24 + id.length < 128 := by
      by_contra hlong
      have hfault : (w.answered E sid id).fault = none := hw
      rw [welcome_overrun hfault hlong] at hf
      cases hf
    obtain ⟨p, hp, hkind, hname⟩ := loginResult_server (by omega) hid
    have hterm : p.Terminated := by
      rw [ServerPacket.Terminated, hkind, hname]
      rfl
    obtain ⟨v, hv⟩ : ∃ v, v = (w.answered E sid id).setId sid id := ⟨_, rfl⟩
    rw [welcome_eq (printOut_loginLine _ id), if_pos hline, hp, ← hv]
    dsimp only
    rcases welcomed_effect hs hok hkind hterm hv with ⟨hans, hqueued⟩ | ⟨hans, hgreeted, hmute⟩
    · rw [if_pos hans]
      obtain ⟨u, hgreets, henters⟩ := hqueued
      exact Or.inr (Or.inl ⟨u, p, hname, hgreets, henters⟩)
    · rw [if_neg (by rw [hans]; exact Bool.false_ne_true)]
      have henters : Enters w v sid := hv ▸ Enters.accepted sid hok
      exact Or.inr (Or.inr ⟨v, hgreeted, henters, (hmute.printOut _ _).disconnect sid⟩)

end Server

end GameLift
