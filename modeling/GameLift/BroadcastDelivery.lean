import GameLift.FlushVisit

/-! What one `BroadcastMessage` does to its members. A member whose ring refuses the
packet is disconnected, which may erase it from the set under the range-for. -/

namespace GameLift

def Packet.declared (p : Packet) : Nat := sizeT (PacketHeader.ofBytes p.memory).mSize

namespace Server

variable {ε : Type}

structure SendCall where
  sid : SessionId
  answer : Bool
deriving DecidableEq, Repr

/-- `broadcastMessage` with a record of the calls of `SendRequest`. -/
def broadcastCalls (E : Env ε) (pkt : List Byte) (w : Server ε) : List SendCall × Server ε :=
  (w.gameLift.mPlayerSessions.sort (· ≤ ·)).foldl
    (fun p sid => (p.1 ++ [⟨sid, (p.2.sendRequest E sid pkt).1⟩], p.2.broadcastTo E pkt sid)) ([], w)

def Room (w : Server ε) (sid : SessionId) (p : Packet) : Prop :=
  p.declared ≤ (w.sessions sid).mSendBuffer.freeSpace

instance (w : Server ε) (sid : SessionId) (p : Packet) : Decidable (w.Room sid p) :=
  inferInstanceAs (Decidable (_ ≤ _))

structure Delivers (w w' : Server ε) (p : Packet) (calls : List SendCall) : Prop where
  valid : w'.fault = none
  once : ∀ s ∈ w.gameLift.mPlayerSessions, (calls.map SendCall.sid).count s = 1
  only : ∀ call ∈ calls, call.sid ∈ w.gameLift.mPlayerSessions
  appended : ∀ s ∈ w.gameLift.mPlayerSessions, (w.sessions s).mConnected = true → w.Room s p →
    (w'.sessions s).mSendBuffer.contents = (w.sessions s).mSendBuffer.contents ++ p.bytes ∧
      (w'.sessions s).mConnected = true
  refused : ∀ s ∈ w.gameLift.mPlayerSessions, (w.sessions s).mConnected = true → ¬w.Room s p →
    (w'.sessions s).mSendBuffer.contents = (w.sessions s).mSendBuffer.contents ∧
      (w'.sessions s).mConnected = false
  others : ∀ s, (s ∈ w.gameLift.mPlayerSessions → (w.sessions s).mConnected = false) →
    w'.sessions s = w.sessions s

/-- The members that will be disconnected, in the order of the set. -/
def refusing (w : Server ε) (p : Packet) (members : List SessionId) : List SessionId :=
  members.filter fun s => (w.sessions s).mConnected && !decide (w.Room s p)

/-- The linger option is set in `SendRequest`'s `Disconnect`, and, where that
failed, once more in that of `BroadcastMessage`. -/
def lingers (E : Env ε) (sock : Socket) (e : ε) : Bool × ε :=
  if (E.setLinger sock e).1 then E.setLinger sock e else E.setLinger sock (E.setLinger sock e).2

/-- The environment after `s` has been closed and yet is still in the set: the linger
option was set, and it has no player session id or the service refuses to remove it. -/
def stays (E : Env ε) (w : Server ε) (e : ε) (s : SessionId) : Option ε :=
  let (ok, e) := lingers E (w.sessions s).mSocket e
  if ok then
    if (w.sessions s).mPlayerSessionId = [] then some e
    else if (E.removePlayerSession (w.sessions s).mPlayerSessionId e).1 then none
    else some (w.gameLift.removePlayerSession E.toSdk s (w.sessions s).mPlayerSessionId e).2
  else none

def Survives (E : Env ε) (w : Server ε) (p : Packet) : Prop :=
  ((w.refusing p (w.gameLift.mPlayerSessions.sort (· ≤ ·))).foldlM (stays E w) w.env).isSome = true

variable {E : Env ε}

theorem broadcastCalls_snd (pkt : List Byte) (w : Server ε) :
    (broadcastCalls E pkt w).2 = w.broadcastMessage E pkt := by
  have hall : ∀ (members : List SessionId) (p : List SendCall × Server ε),
      (members.foldl (fun p sid => (p.1 ++ [⟨sid, (p.2.sendRequest E sid pkt).1⟩],
        p.2.broadcastTo E pkt sid)) p).2 = members.foldl (broadcastTo E pkt) p.2 := by
    intro members
    induction members with
    | nil => exact fun _ => rfl
    | cons s members ih => exact fun p => ih _
  exact hall _ _

theorem broadcastCalls_sids (pkt : List Byte) (w : Server ε) :
    (broadcastCalls E pkt w).1.map SendCall.sid = w.gameLift.mPlayerSessions.sort (· ≤ ·) := by
  have hall : ∀ (members : List SessionId) (p : List SendCall × Server ε),
      (members.foldl (fun p sid => (p.1 ++ [⟨sid, (p.2.sendRequest E sid pkt).1⟩],
        p.2.broadcastTo E pkt sid)) p).1.map SendCall.sid = p.1.map SendCall.sid ++ members := by
    intro members
    induction members with
    | nil => simp
    | cons s members ih =>
      intro p
      rw [List.foldl_cons, ih, List.map_append, List.append_assoc]
      rfl
  exact hall _ _

/-- `Disconnect` of a connected session once the linger option is set. -/
def closing (E : Env ε) (w : Server ε) (sid : SessionId) (e : ε) : Server ε :=
  if (w.sessions sid).mPlayerSessionId = [] then w.closed sid w.gameLift e
  else w.closed sid
    (w.gameLift.removePlayerSession E.toSdk sid (w.sessions sid).mPlayerSessionId e).1
    (w.gameLift.removePlayerSession E.toSdk sid (w.sessions sid).mPlayerSessionId e).2

theorem disconnect_closing {w : Server ε} {sid : SessionId}
    (hc : (w.sessions sid).mConnected = true)
    (hl : (E.setLinger (w.sessions sid).mSocket w.env).1 = true) :
    w.disconnect E sid = w.closing E sid (E.setLinger (w.sessions sid).mSocket w.env).2 := by
  rw [closing]
  split_ifs with hid
  · exact disconnect_plain hc hl hid
  · exact disconnect_removed hc hl hid

theorem closing_sessions (w : Server ε) (sid : SessionId) (e : ε) :
    (w.closing E sid e).sessions = Function.update w.sessions sid
      { w.sessions sid with mConnected := false, mPlayerSessionId := [] } := by
  rw [closing]
  split_ifs <;> rfl

theorem disconnect_twice {w : Server ε} {sid : SessionId}
    (hc : (w.sessions sid).mConnected = true) :
    (w.disconnect E sid).disconnect E sid =
      if (lingers E (w.sessions sid).mSocket w.env).1 then
        w.closing E sid (lingers E (w.sessions sid).mSocket w.env).2
      else { w with env := (lingers E (w.sessions sid).mSocket w.env).2 } := by
  have hgone : ∀ e, ((w.closing E sid e).sessions sid).mConnected = false := by
    intro e
    rw [closing_sessions, Function.update_self]
  unfold lingers
  cases hl : (E.setLinger (w.sessions sid).mSocket w.env).1 with
  | true =>
    rw [disconnect_closing hc hl, disconnect_gone (hgone _)]
    simp [hl]
  | false =>
    rw [disconnect_linger hc hl]
    simp only [Bool.false_eq_true, if_false]
    obtain ⟨v, hv⟩ : ∃ v : Server ε, v = { w with env :=
      (E.setLinger (w.sessions sid).mSocket w.env).2 } := ⟨_, rfl⟩
    have hc' : (v.sessions sid).mConnected = true := hv ▸ hc
    rw [← hv]
    cases hl' : (E.setLinger (v.sessions sid).mSocket v.env).1 with
    | true =>
      rw [disconnect_closing hc' hl']
      subst hv
      exact (if_pos hl').symm
    | false =>
      rw [disconnect_linger hc' hl']
      subst hv
      simp [hl']

theorem disconnect_others {w : Server ε} {sid t : SessionId} (ht : t ≠ sid) :
    (w.disconnect E sid).sessions t = w.sessions t := by
  have hclosed : ∀ m e, (w.closed sid m e).sessions t = w.sessions t := fun m e =>
    Function.update_of_ne ht ..
  rcases disconnect_cases (E := E) w sid with ⟨-, he⟩ | ⟨-, he⟩ | ⟨-, -, he⟩ | ⟨-, -, he⟩ <;>
    rw [he]
  · exact hclosed _ _
  · exact hclosed _ _

theorem sendRequest_others {w : Server ε} {sid t : SessionId} (ht : t ≠ sid) (pkt : List Byte) :
    (w.sendRequest E sid pkt).2.sessions t = w.sessions t := by
  have hset : ∀ b, (w.modify sid fun s => { s with mSendBuffer := b }).sessions t =
      w.sessions t := fun b => by rw [modify_sessions, if_neg ht]
  rw [sendRequest]
  split_ifs
  · cases (w.sessions sid).mSendBuffer.write pkt (sizeT (PacketHeader.ofBytes pkt).mSize) with
    | error f => rfl
    | ok r =>
      obtain ⟨ok, b⟩ := r
      cases ok
      · exact (disconnect_others ht).trans (hset b)
      · exact hset b
  · rfl

theorem broadcastTo_others {w : Server ε} {sid t : SessionId} (ht : t ≠ sid) (pkt : List Byte) :
    (w.broadcastTo E pkt sid).sessions t = w.sessions t := by
  have hsend := sendRequest_others (E := E) (w := w) ht pkt
  have hraise : ∀ v : Server ε, (if sid ∈ v.gameLift.mPlayerSessions then v
      else v.raise .danglingIterator).sessions t = v.sessions t := by
    intro v
    split_ifs <;> rfl
  rw [broadcastTo]
  dsimp only
  rw [hraise]
  split_ifs
  · exact hsend
  · exact (disconnect_others ht).trans hsend

theorem broadcastTo_refused {w : Server ε} {sid : SessionId} {pkt : List Byte} {b : CircularBuffer}
    (hc : (w.sessions sid).mConnected = true)
    (hb : (w.sessions sid).mSendBuffer.write pkt (sizeT (PacketHeader.ofBytes pkt).mSize) =
      .ok (false, b)) :
    w.broadcastTo E pkt sid =
      let u := w.modify sid fun s => { s with mSendBuffer := b }
      let l := lingers E (w.sessions sid).mSocket w.env
      let d := if l.1 then u.closing E sid l.2 else { u with env := l.2 }
      if sid ∈ d.gameLift.mPlayerSessions then d else d.raise .danglingIterator := by
  obtain ⟨u, hu⟩ : ∃ u, u = w.modify sid fun s => { s with mSendBuffer := b } := ⟨_, rfl⟩
  have hcu : (u.sessions sid).mConnected = true := by
    rw [hu, modify_sessions, if_pos rfl]
    exact hc
  have hsock : (u.sessions sid).mSocket = (w.sessions sid).mSocket := by
    rw [hu, modify_sessions, if_pos rfl]
  have henv : u.env = w.env := by
    rw [hu]
    rfl
  have htwice := disconnect_twice (E := E) hcu
  rw [hsock, henv] at htwice
  rw [broadcastTo, sendRequest_refused hc hb, ← hu]
  simp only [Bool.false_eq_true, if_false]
  rw [htwice]

theorem broadcast_others {members : List SessionId} {t : SessionId} (ht : t ∉ members)
    (pkt : List Byte) (w : Server ε) :
    (members.foldl (broadcastTo E pkt) w).sessions t = w.sessions t := by
  induction members generalizing w with
  | nil => rfl
  | cons s members ih =>
    rw [List.mem_cons, not_or] at ht
    exact (ih ht.2 _).trans (broadcastTo_others ht.1 pkt)

theorem broadcast_fault (members : List SessionId) (pkt : List Byte) {w : Server ε}
    (hf : w.fault ≠ none) : (members.foldl (broadcastTo E pkt) w).fault ≠ none := by
  induction members generalizing w with
  | nil => exact hf
  | cons s members ih => exact ih (fault_stable.carried.broadcastTo pkt s hf)

structure Settled (w v : Server ε) (p : Packet) (s : SessionId) : Prop where
  gone : (w.sessions s).mConnected = false → v.sessions s = w.sessions s
  appended : (w.sessions s).mConnected = true → w.Room s p →
    (v.sessions s).mSendBuffer.contents = (w.sessions s).mSendBuffer.contents ++ p.bytes ∧
      (v.sessions s).mConnected = true
  refused : (w.sessions s).mConnected = true → ¬w.Room s p →
    (v.sessions s).mSendBuffer.contents = (w.sessions s).mSendBuffer.contents ∧
      (v.sessions s).mConnected = false

/-- The broadcast before the members `todo`, while all that it closed are in the set. -/
structure Underway (w v : Server ε) (e : ε) (todo : List SessionId) : Prop where
  env : v.env = e
  fault : v.fault = none
  members : v.gameLift.mPlayerSessions = w.gameLift.mPlayerSessions
  acceptedCount : v.gameLift.mAcceptedCount = w.gameLift.mAcceptedCount
  removedCount : v.gameLift.mRemovedCount = w.gameLift.mRemovedCount
  rest : ∀ s ∈ todo, v.sessions s = w.sessions s

section
variable {w v : Server ε} {e : ε} {s : SessionId} {todo : List SessionId} {p : Packet}

theorem Underway.setSend (h : Underway w v e (s :: todo)) (hnot : s ∉ todo) (b : CircularBuffer) :
    Underway w (v.modify s fun c => { c with mSendBuffer := b }) e todo where
  env := h.env
  fault := h.fault
  members := h.members
  acceptedCount := h.acceptedCount
  removedCount := h.removedCount
  rest t ht := by
    have hne : t ≠ s := fun he => hnot (he ▸ ht)
    rw [modify_sessions, if_neg hne]
    exact h.rest t (List.mem_cons_of_mem _ ht)

theorem broadcastTo_gone (hin : s ∈ v.gameLift.mPlayerSessions)
    (hc : (v.sessions s).mConnected = false) (pkt : List Byte) : v.broadcastTo E pkt s = v := by
  rw [broadcastTo, sendRequest_gone hc]
  simp only [Bool.false_eq_true, if_false, disconnect_gone hc, if_pos hin]

theorem broadcastTo_written (hin : s ∈ v.gameLift.mPlayerSessions)
    (hc : (v.sessions s).mConnected = true) {b : CircularBuffer}
    (hb : (v.sessions s).mSendBuffer.write p.memory p.declared = .ok (true, b)) :
    v.broadcastTo E p.memory s = v.modify s fun c => { c with mSendBuffer := b } := by
  rw [broadcastTo, sendRequest_accepted hc hb]
  exact if_pos hin

theorem Underway.gone (h : Underway w v e (s :: todo)) (hin : s ∈ w.gameLift.mPlayerSessions)
    (hc : (w.sessions s).mConnected = false) :
    Underway w (v.broadcastTo E p.memory s) e todo ∧ Settled w (v.broadcastTo E p.memory s) p s := by
  have hsame := h.rest s List.mem_cons_self
  have hcv : (v.sessions s).mConnected = false := hsame ▸ hc
  rw [broadcastTo_gone (h.members ▸ hin) hcv]
  refine ⟨⟨h.env, h.fault, h.members, h.acceptedCount, h.removedCount, fun t ht =>
    h.rest t (List.mem_cons_of_mem _ ht)⟩, fun _ => hsame, ?_, ?_⟩
  · intro hc'
    rw [hc] at hc'
    cases hc'
  · intro hc'
    rw [hc] at hc'
    cases hc'

theorem Underway.appended (h : Underway w v e (s :: todo)) (hnot : s ∉ todo)
    (hin : s ∈ w.gameLift.mPlayerSessions) (hs : (w.sessions s).mSendBuffer.Sized)
    (hc : (w.sessions s).mConnected = true) (hroom : w.Room s p) :
    Underway w (v.broadcastTo E p.memory s) e todo ∧ Settled w (v.broadcastTo E p.memory s) p s := by
  have hsame := h.rest s List.mem_cons_self
  have hcv : (v.sessions s).mConnected = true := hsame ▸ hc
  obtain ⟨b, hb, ha⟩ := hs.inv.write_accepted (p.declared_le hs.inv hs.size hroom) hroom
  rw [← hsame] at hb
  rw [broadcastTo_written (h.members ▸ hin) hcv hb]
  refine ⟨h.setSend hnot b, ⟨fun hc' => ?_, fun _ _ => ?_, fun _ hfull => absurd hroom hfull⟩⟩
  · rw [hc] at hc'
    cases hc'
  · rw [modify_sessions, if_pos rfl]
    exact ⟨ha.contents_eq, hcv⟩

theorem Underway.closed (h : Underway w v e todo) (hnot : s ∉ todo) {m : GameLiftManager}
    (e' : ε) (hm : m.mPlayerSessions = v.gameLift.mPlayerSessions)
    (ha : m.mAcceptedCount = v.gameLift.mAcceptedCount)
    (hr : m.mRemovedCount = v.gameLift.mRemovedCount) : Underway w (v.closed s m e') e' todo where
  env := rfl
  fault := h.fault
  members := hm.trans h.members
  acceptedCount := ha.trans h.acceptedCount
  removedCount := hr.trans h.removedCount
  rest t ht := by
    have hne : t ≠ s := fun he => hnot (he ▸ ht)
    exact (Function.update_of_ne hne ..).trans (h.rest t ht)

/-- A closed member is erased from the set exactly if the service removes its player. -/
theorem Underway.closing (h : Underway w v e todo) (hnot : s ∉ todo)
    (hin : s ∈ w.gameLift.mPlayerSessions)
    (hid : (v.sessions s).mPlayerSessionId = (w.sessions s).mPlayerSessionId)
    (hl : (lingers E (w.sessions s).mSocket e).1 = true) :
    (∃ m e', v.closing E s (lingers E (w.sessions s).mSocket e).2 = v.closed s m e' ∧
      stays E w e s = some e' ∧ s ∈ m.mPlayerSessions ∧ Underway w (v.closed s m e') e' todo) ∨
    (s ∉ (v.closing E s (lingers E (w.sessions s).mSocket e).2).gameLift.mPlayerSessions ∧
      stays E w e s = none) := by
  have hinv : s ∈ v.gameLift.mPlayerSessions := h.members ▸ hin
  rw [Server.closing, hid]
  unfold stays
  dsimp only
  rw [if_pos hl]
  by_cases hnone : (w.sessions s).mPlayerSessionId = []
  · rw [if_pos hnone, if_pos hnone]
    exact Or.inl ⟨_, _, rfl, rfl, hinv, h.closed hnot _ rfl rfl rfl⟩
  · obtain ⟨haccepted, hremoved, hmembers⟩ := GameLiftManager.removePlayerSession_counts
      (S := E.toSdk) s (w.sessions s).mPlayerSessionId v.gameLift
      (lingers E (w.sessions s).mSocket e).2
    rw [if_neg hnone, if_neg hnone]
    cases hans : (E.removePlayerSession (w.sessions s).mPlayerSessionId
        (lingers E (w.sessions s).mSocket e).2).1 with
    | true =>
      rw [hans, if_pos rfl] at hmembers
      have hout : s ∉ (v.gameLift.removePlayerSession E.toSdk s (w.sessions s).mPlayerSessionId
          (lingers E (w.sessions s).mSocket e).2).1.mPlayerSessions :=
        hmembers ▸ Finset.notMem_erase _ _
      exact Or.inr ⟨hout, if_pos rfl⟩
    | false =>
      rw [hans, if_neg Bool.false_ne_true] at hmembers hremoved
      have henv := GameLiftManager.removePlayerSession_env (S := E.toSdk) h.acceptedCount
        h.removedCount s (w.sessions s).mPlayerSessionId (lingers E (w.sessions s).mSocket e).2
      rw [henv, if_neg Bool.false_ne_true]
      exact Or.inl ⟨_, _, rfl, rfl, hmembers.symm ▸ hinv,
        h.closed hnot _ hmembers haccepted (hremoved.trans (Int.add_zero _))⟩

/-- A refused member is closed and still in the set, or the broadcast goes wrong here. -/
theorem Underway.refused (h : Underway w v e (s :: todo)) (hnot : s ∉ todo)
    (hin : s ∈ w.gameLift.mPlayerSessions) (hs : (w.sessions s).mSendBuffer.Sized)
    (hc : (w.sessions s).mConnected = true) (hfull : ¬w.Room s p) :
    (∃ e', stays E w e s = some e' ∧ Underway w (v.broadcastTo E p.memory s) e' todo ∧
      Settled w (v.broadcastTo E p.memory s) p s) ∨
    (stays E w e s = none ∧ ((v.broadcastTo E p.memory s).fault ≠ none ∨
      ((v.broadcastTo E p.memory s).sessions s).mConnected = true)) := by
  have hsame := h.rest s List.mem_cons_self
  have hcv : (v.sessions s).mConnected = true := hsame ▸ hc
  have hb := hs.inv.write_refused p.memory (Nat.lt_of_not_le hfull)
  rw [← hsame] at hb
  have hprep := hs.inv.appended_prepare.contents_eq
  rw [List.append_nil] at hprep
  obtain ⟨u, hu⟩ : ∃ u, u = v.modify s fun c => { c with
    mSendBuffer := (v.sessions s).mSendBuffer.prepare } := ⟨_, rfl⟩
  have hset : u.sessions s = { w.sessions s with
      mSendBuffer := (w.sessions s).mSendBuffer.prepare } := by
    rw [hu, modify_sessions, if_pos rfl, hsame]
  have hside : Underway w u e todo := hu ▸ h.setSend hnot _
  have hcu : (u.sessions s).mConnected = true := by rw [hset, hc]
  have hid : (u.sessions s).mPlayerSessionId = (w.sessions s).mPlayerSessionId := by rw [hset]
  have hinu : s ∈ u.gameLift.mPlayerSessions := hside.members ▸ hin
  have hto := broadcastTo_refused (E := E) hcv hb
  rw [← hu, hsame, h.env] at hto
  dsimp only at hto
  have hgame : ∀ m e', (u.closed s m e').gameLift = m := fun _ _ => rfl
  have hsettled : ∀ m e', Settled w (u.closed s m e') p s := by
    refine fun m e' => ⟨fun hc' => ?_, fun _ hroom => absurd hroom hfull, fun _ _ => ?_⟩
    · rw [hc] at hc'
      cases hc'
    · rw [closed_send, closed_connected, if_pos rfl, hset]
      exact ⟨hprep, rfl⟩
  cases hl : (lingers E (w.sessions s).mSocket e).1 with
  | false =>
    simp only [hl, Bool.false_eq_true, if_false, if_pos hinu] at hto
    rw [hto, stays]
    exact Or.inr ⟨by simp [hl], Or.inr hcu⟩
  | true =>
    rw [hl, if_pos rfl] at hto
    rcases hside.closing (E := E) hnot hin hid hl with ⟨m, e', hcl, hstay, hm, hu'⟩ | ⟨hout, hstay⟩
    · rw [hcl, hgame, if_pos hm] at hto
      rw [hto]
      exact Or.inl ⟨e', hstay, hu', hsettled m e'⟩
    · rw [if_neg hout] at hto
      rw [hto]
      exact Or.inr ⟨hstay, Or.inl (raise_fault _ _)⟩

theorem Underway.visit (h : Underway w v e (s :: todo)) (hnot : s ∉ todo)
    (hin : s ∈ w.gameLift.mPlayerSessions) (hs : (w.sessions s).mSendBuffer.Sized)
    (hstay : ((w.sessions s).mConnected && !decide (w.Room s p)) = false) :
    Underway w (v.broadcastTo E p.memory s) e todo ∧
      Settled w (v.broadcastTo E p.memory s) p s := by
  cases hc : (w.sessions s).mConnected with
  | false => exact h.gone hin hc
  | true =>
    rw [hc, Bool.true_and, Bool.not_eq_false', decide_eq_true_eq] at hstay
    exact h.appended hnot hin hs hc hstay

theorem Settled.frame {v' : Server ε} (h : Settled w v p s) (hs : v'.sessions s = v.sessions s) :
    Settled w v' p s where
  gone hc := hs.trans (h.gone hc)
  appended hc hroom := hs.symm ▸ h.appended hc hroom
  refused hc hfull := hs.symm ▸ h.refused hc hfull

/-- The whole broadcast: if every refused member stays in the set, all are settled;
otherwise it loses its place in the set or leaves a refused member connected. -/
theorem Underway.run (h : Underway w v e todo) (hnodup : todo.Nodup)
    (hin : ∀ s ∈ todo, s ∈ w.gameLift.mPlayerSessions)
    (hs : ∀ s ∈ todo, (w.sessions s).mSendBuffer.Sized) :
    (((w.refusing p todo).foldlM (stays E w) e).isSome = true →
      (todo.foldl (broadcastTo E p.memory) v).fault = none ∧
        ∀ s ∈ todo, Settled w (todo.foldl (broadcastTo E p.memory) v) p s) ∧
    (((w.refusing p todo).foldlM (stays E w) e).isSome = false →
      (todo.foldl (broadcastTo E p.memory) v).fault ≠ none ∨
        ∃ s ∈ todo, (w.sessions s).mConnected = true ∧ ¬w.Room s p ∧
          ((todo.foldl (broadcastTo E p.memory) v).sessions s).mConnected = true) := by
  induction todo generalizing v e with
  | nil => exact ⟨fun _ => ⟨h.fault, fun s hs => absurd hs List.not_mem_nil⟩, fun hf => by cases hf⟩
  | cons s todo ih =>
    obtain ⟨hnot, hnodup⟩ := List.nodup_cons.mp hnodup
    have hmem := hin s List.mem_cons_self
    have hsized := hs s List.mem_cons_self
    have hlater := broadcast_others (E := E) hnot p.memory (v.broadcastTo E p.memory s)
    have hgo : ∀ e', Underway w (v.broadcastTo E p.memory s) e' todo → _ := fun e' hv =>
      ih hv hnodup (fun t ht => hin t (List.mem_cons_of_mem _ ht))
        fun t ht => hs t (List.mem_cons_of_mem _ ht)
    have hsettle : Settled w (v.broadcastTo E p.memory s) p s →
        (∀ t ∈ todo, Settled w (todo.foldl (broadcastTo E p.memory)
          (v.broadcastTo E p.memory s)) p t) →
        ∀ t ∈ s :: todo, Settled w (todo.foldl (broadcastTo E p.memory)
          (v.broadcastTo E p.memory s)) p t := by
      intro hset hall t ht
      rcases List.mem_cons.mp ht with rfl | ht
      · exact hset.frame hlater
      · exact hall t ht
    rw [List.foldl_cons]
    cases hstay : ((w.sessions s).mConnected && !decide (w.Room s p)) with
    | false =>
      obtain ⟨hv, hset⟩ := h.visit (E := E) hnot hmem hsized hstay
      obtain ⟨hgood, hbad⟩ := hgo e hv
      rw [refusing, List.filter_cons_of_neg (by simp [hstay])]
      refine ⟨fun hsome => ⟨(hgood hsome).1, hsettle hset (hgood hsome).2⟩, fun hnone => ?_⟩
      rcases hbad hnone with hf | ⟨t, ht, hrest⟩
      · exact Or.inl hf
      · exact Or.inr ⟨t, List.mem_cons_of_mem _ ht, hrest⟩
    | true =>
      rw [refusing, List.filter_cons_of_pos (by simp [hstay]), List.foldlM_cons]
      rw [Bool.and_eq_true, Bool.not_eq_true', decide_eq_false_iff_not] at hstay
      rcases h.refused (E := E) hnot hmem hsized hstay.1 hstay.2 with
        ⟨e', he, hv, hset⟩ | ⟨he, hwrong⟩
      · obtain ⟨hgood, hbad⟩ := hgo e' hv
        rw [he, Option.bind_eq_bind, Option.bind_some]
        refine ⟨fun hsome => ⟨(hgood hsome).1, hsettle hset (hgood hsome).2⟩, fun hnone => ?_⟩
        rcases hbad hnone with hf | ⟨t, ht, hrest⟩
        · exact Or.inl hf
        · exact Or.inr ⟨t, List.mem_cons_of_mem _ ht, hrest⟩
      · rw [he, Option.bind_eq_bind, Option.bind_none]
        refine ⟨fun hsome => absurd hsome Bool.false_ne_true, fun _ => ?_⟩
        rcases hwrong with hf | hc
        · exact Or.inl (broadcast_fault todo p.memory hf)
        · exact Or.inr ⟨s, List.mem_cons_self, hstay.1, hstay.2, hlater.symm ▸ hc⟩

end

theorem broadcast_outcome {w : Server ε} {p : Packet} (hf : w.fault = none)
    (hs : ∀ s ∈ w.gameLift.mPlayerSessions, (w.sessions s).mSendBuffer.Sized) :
    (Survives E w p → (w.broadcastMessage E p.memory).fault = none ∧
      ∀ s ∈ w.gameLift.mPlayerSessions, Settled w (w.broadcastMessage E p.memory) p s) ∧
    (¬Survives E w p → (w.broadcastMessage E p.memory).fault ≠ none ∨
      ∃ s ∈ w.gameLift.mPlayerSessions, (w.sessions s).mConnected = true ∧ ¬w.Room s p ∧
        ((w.broadcastMessage E p.memory).sessions s).mConnected = true) := by
  have hstart : Underway w w w.env (w.gameLift.mPlayerSessions.sort (· ≤ ·)) :=
    ⟨rfl, hf, rfl, rfl, rfl, fun _ _ => rfl⟩
  have hrun := hstart.run (E := E) (p := p) (Finset.sort_nodup ..)
    (fun s hin => (Finset.mem_sort _).mp hin) fun s hin => hs s ((Finset.mem_sort _).mp hin)
  simp only [Finset.mem_sort] at hrun
  exact ⟨hrun.1, fun hnone => hrun.2 (Bool.eq_false_iff.mpr hnone)⟩

theorem survives_of_delivers {w : Server ε} {p : Packet} {calls : List SendCall}
    (hf : w.fault = none) (hs : ∀ s ∈ w.gameLift.mPlayerSessions, (w.sessions s).mSendBuffer.Sized)
    (hall : Delivers w (w.broadcastMessage E p.memory) p calls) : Survives E w p := by
  by_contra hnone
  rcases (broadcast_outcome (E := E) hf hs).2 hnone with hfault | ⟨s, hin, hc, hfull, hc'⟩
  · exact hfault hall.valid
  · have hgone := (hall.refused s hin hc hfull).2
    exact Bool.false_ne_true (hgone.symm.trans hc')

/-- A broadcast delivers to every member and disconnects exactly the refused ones if
and only if each of these can be closed and is not erased from the set for it. -/
theorem broadcastMessage_iff (E : Env ε) (w : Server ε) (p : Packet) (hf : w.fault = none)
    (hs : ∀ s ∈ w.gameLift.mPlayerSessions, (w.sessions s).mSendBuffer.Sized) :
    Delivers w (w.broadcastMessage E p.memory) p (broadcastCalls E p.memory w).1 ↔
      Survives E w p := by
  refine ⟨survives_of_delivers hf hs, fun hsome => ?_⟩
  obtain ⟨hfault, hset⟩ := (broadcast_outcome hf hs).1 hsome
  have hsids := broadcastCalls_sids (E := E) p.memory w
  refine ⟨hfault, fun s hin => ?_, fun call hcall => ?_, fun s hin => (hset s hin).appended,
    fun s hin => (hset s hin).refused, fun s hout => ?_⟩
  · rw [hsids]
    exact List.count_eq_one_of_mem (Finset.sort_nodup ..) ((Finset.mem_sort _).mpr hin)
  · exact (Finset.mem_sort _).mp (hsids ▸ List.mem_map_of_mem hcall)
  · by_cases hin : s ∈ w.gameLift.mPlayerSessions
    · exact (hset s hin).gone (hout hin)
    · exact broadcast_others (fun h => hin ((Finset.mem_sort _).mp h)) p.memory w

theorem upheld_members : Upheld E (fun _ => True)
    (fun w : Server ε => w.gameLift.mPlayerSessions ⊆ w.allocated) where
  stable := by
    refine .of_closed ?_ (fun _ _ h => h) ?_
    · intro w w' hq h
      rw [hq.gameLift, hq.allocated]
      exact h
    · intro w sid _ _ h s hs
      refine h ?_
      have hcount := (GameLiftManager.removePlayerSession_counts (S := E.toSdk) sid
        (w.sessions sid).mPlayerSessionId w.gameLift w.env).2.2
      change s ∈ (w.gameLift.removePlayerSession E.toSdk sid _ _).1.mPlayerSessions at hs
      rw [hcount] at hs
      split_ifs at hs
      · exact Finset.mem_of_mem_erase hs
      · exact hs
  receive h := h
  lookup := by
    intro w sock _ h
    rcases startReceive_cases w sock with ⟨sid, -, -, he⟩ | ⟨f, he⟩ | ⟨-, he⟩ <;> rw [he] <;> exact h
  create _ _ _ h := h.trans (Finset.subset_insert ..)
  accepted := by
    intro w sid id b hin _ _ h hok s hs
    change s ∈ (if (E.acceptPlayerSession id w.env).1 = true
      then insert sid w.gameLift.mPlayerSessions else w.gameLift.mPlayerSessions) at hs
    rw [if_pos hok] at hs
    rcases Finset.mem_insert.mp hs with rfl | hs
    · exact hin
    · exact h hs
  rejected := by
    intro w sid id b _ _ _ h hno s hs
    change s ∈ (if (E.acceptPlayerSession id w.env).1 = true
      then insert sid w.gameLift.mPlayerSessions else w.gameLift.mPlayerSessions) at hs
    rw [if_neg (by simp [hno])] at hs
    exact h hs
  removed := by
    intro w sid id b _ _ _ h s hs
    refine h ?_
    have hcount := (GameLiftManager.removePlayerSession_counts (S := E.toSdk) sid id w.gameLift
      w.env).2.2
    change s ∈ (w.gameLift.removePlayerSession E.toSdk sid id w.env).1.mPlayerSessions at hs
    rw [hcount] at hs
    split_ifs at hs
    · exact Finset.mem_of_mem_erase hs
    · exact hs
  started h := h
  terminated h := h
  outside _ h := h

end Server

open Server

theorem Reachable.members_sized {ε : Type} {E : Env ε} {c : Config ε} (h : Reachable E Free c) :
    ∀ s ∈ c.server.gameLift.mPlayerSessions, (c.server.sessions s).mSendBuffer.Sized := by
  have hmembers := h.invariant upheld_members
    (fun w hw => by rw [hw.gameLift]; exact Finset.empty_subset _) fun _ _ _ => trivial
  exact fun s hs => (h.buffered s (hmembers hs)).2

def chatPacket : Packet :=
  ⟨chatReply, by
    have hsize : (PacketHeader.ofBytes chatReply).mSize = 260 := by
      rw [chatReply, ofBytes_headerBytes (by decide) (by decide)]
      rfl
    rw [hsize, chatReply_length]
    decide⟩

theorem Flood.refusing {w : Server (List ReadResult)} {script : List ReadResult} {k : Nat}
    (h : Flood w script 10012 k) :
    w.refusing chatPacket (w.gameLift.mPlayerSessions.sort (· ≤ ·)) = [0] := by
  have hfree := (h.party.send 0 (by decide)).room_at_start h.party.front
  rw [h.party.waiting, h.party.sendSize, bufSize] at hfree
  have hfull : ¬w.Room 0 chatPacket := by
    intro hroom
    have hdeclared : chatPacket.declared = 260 := chatReply_size
    rw [Room, hdeclared] at hroom
    omega
  rw [h.members, Finset.sort_singleton, Server.refusing, List.filter_cons_of_pos, List.filter_nil]
  simp [hfull, h.party.connected 0 (by decide)]

/-- The service does not remove the refused player, who stays in the set. -/
theorem broadcastMessage_congested :
    ∃ w, Reachable congested Free ⟨w, .dispatching 1⟩ ∧
      Delivers w (w.broadcastMessage congested chatPacket.memory) chatPacket
        (broadcastCalls congested chatPacket.memory w).1 := by
  obtain ⟨w, hreach, hw⟩ := congested_scripted.flooded (j := 38) (k := 1) (by decide) (by decide)
  refine ⟨w, hreach, (broadcastMessage_iff congested w chatPacket hw.party.fault
    hreach.members_sized).mpr ?_⟩
  rw [Survives, hw.refusing]
  have hstay : stays congested w w.env 0 = some (w.gameLift.removePlayerSession congested.toSdk 0
      (w.sessions 0).mPlayerSessionId w.env).2 := if_neg hw.id
  rw [List.foldlM_cons, hstay]
  rfl

/-- The chat that no longer fits disconnects the player, who is erased from the set
under the loop. -/
theorem broadcastMessage_dangles :
    ∃ w b, Reachable obliging Free ⟨w, .dispatching 1⟩ ∧ w.fault = none ∧
      dispatchStep obliging 1 w =
        ⟨(w.setRecv 1 b).broadcastMessage obliging chatPacket.memory, .dispatching 1⟩ ∧
      ¬Delivers (w.setRecv 1 b) ((w.setRecv 1 b).broadcastMessage obliging chatPacket.memory)
        chatPacket (broadcastCalls obliging chatPacket.memory (w.setRecv 1 b)).1 := by
  obtain ⟨w, hreach, hw⟩ := obliging_scripted.flooded (j := 38) (k := 1) (by decide) (by decide)
  obtain ⟨b, hv, hstep⟩ := hw.chat (E := obliging)
  refine ⟨w, b, hreach, hw.party.fault, hstep, fun hall => ?_⟩
  have hsized : ∀ s ∈ (w.setRecv 1 b).gameLift.mPlayerSessions,
      ((w.setRecv 1 b).sessions s).mSendBuffer.Sized := by
    intro s hs
    rw [setRecv_send]
    exact hreach.members_sized s hs
  have hsurvives := survives_of_delivers hv.party.fault hsized hall
  rw [Survives, hv.refusing] at hsurvives
  have hstay : stays obliging (w.setRecv 1 b) (w.setRecv 1 b).env 0 = none := if_neg hv.id
  rw [List.foldlM_cons, hstay] at hsurvives
  cases hsurvives

end GameLift
