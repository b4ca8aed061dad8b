import GameLift.ReceiveWindow

/-! When `OnReceive` comes back. Only a negative answer of `read` ends its loop, so one
answer 0, for a full ring or for a peer that has closed, is repeated for ever. -/

namespace GameLift

open Server

/-- The dispatch loop stops in front of `q`. -/
def Rest (q : List Byte) : Prop := frameOf q = .wait ∨ frameOf q = .invalidType

namespace Receiver

variable {σ : Type} {R : Receiver σ}

theorem dispatchPacket_rest {fuel : Nat} {s t : σ} (h : (R.mRecvBuffer s).Inv)
    (hd : R.dispatchPacket fuel s = some t) : (R.mRecvBuffer t).Inv ∧ Rest (R.contents t) := by
  have hret : Loop.Returns R.dispatchBody s t := ⟨fuel, hd⟩
  refine hret.invariant (fun s => (R.mRecvBuffer s).Inv)
    (fun t => (R.mRecvBuffer t).Inv ∧ Rest (R.contents t)) h fun s hs => ?_
  rcases dispatchBody_cases hs with ⟨hf, hb⟩ | ⟨hf, hb⟩ | ⟨-, hb⟩ | ⟨k, -, hb⟩ |
      ⟨k, b, -, -, hdrop, hb⟩ <;>
    rw [hb]
  · exact ⟨hs, Or.inl hf⟩
  · rw [Loop.Iter.Holds, contents, R.recv_disconnect]
    exact ⟨hs, Or.inr hf⟩
  · rw [Loop.Iter.Holds, R.recv_disconnect]
    exact hs
  · rw [Loop.Iter.Holds, R.recv_parseError]
    exact hs
  · rw [Loop.Iter.Holds, R.recv_handle, R.recv_set]
    exact hdrop.inv

theorem dispatchBody_rest {s : σ} (h : (R.mRecvBuffer s).Inv) (hr : Rest (R.contents s)) :
    ∃ t, R.dispatchBody s = .done t ∧ R.mRecvBuffer t = R.mRecvBuffer s := by
  rcases dispatchBody_cases h with ⟨-, hb⟩ | ⟨-, hb⟩ | ⟨hf, -⟩ | ⟨k, hf, -⟩ | ⟨k, b, -, hf, -⟩
  · exact ⟨s, hb, rfl⟩
  · exact ⟨_, hb, R.recv_disconnect s⟩
  all_goals
    rcases hr with hr | hr <;> rw [hf] at hr <;> cases hr

end Receiver

namespace Server

variable {ε : Type} {E : Env ε}

/-- The ring of every session is at rest, but for the one that is being dispatched. -/
def Rested (c : Config ε) : Prop :=
  ∀ s ∈ c.server.allocated, c.control ≠ .dispatching s →
    Rest (c.server.sessions s).mRecvBuffer.contents

structure SameRings (w w' : Server ε) : Prop where
  recv : SameReceive w w'
  allocated : w'.allocated = w.allocated

theorem sameRings_stable (w : Server ε) : Stable E (SameRings w) := by
  have hst : Stable E fun v : Server ε => v.allocated = w.allocated :=
    .of_closed (fun hq h => hq.allocated.trans h) (fun _ _ h => h) fun _ _ h => h
  have hrecv := sameReceive_stable (E := E) w
  exact ⟨fun hq h => ⟨hrecv.quiet hq h.recv, hst.quiet hq h.allocated⟩,
    fun h => ⟨hrecv.disconnect h.recv, hst.disconnect h.allocated⟩⟩

theorem sameRings_handlePacket (w : Server ε) (sid : SessionId) (kind : Request)
    (image : List Byte) : SameRings w (Server.handlePacket E sid kind image w) :=
  (sameRings_stable w).carried.handlePacket (fun h => ⟨sameReceive_setId h.recv _ _, h.allocated⟩)
    (fun h => ⟨h.recv, h.allocated⟩) (fun h => ⟨h.recv, h.allocated⟩) sid kind image
    ⟨fun _ => rfl, rfl⟩

theorem Rested.same {w w' : Server ε} {control control' : Control} (h : Rested ⟨w, control⟩)
    (hs : SameRings w w') (hc : ∀ s, control = .dispatching s → control' = .dispatching s) :
    Rested ⟨w', control'⟩ := by
  intro s hin hne
  rw [hs.recv s]
  exact h s (hs.allocated ▸ hin) fun he => hne (hc s he)

theorem Rested.setRecv {w : Server ε} {sid : SessionId} {b : CircularBuffer} {control : Control}
    (h : ∀ s ∈ w.allocated, s ≠ sid → Rest (w.sessions s).mRecvBuffer.contents)
    (hb : control ≠ .dispatching sid → Rest b.contents) :
    Rested ⟨w.setRecv sid b, control⟩ := by
  intro s hin hne
  change Rest ((w.setRecv sid b).sessions s).mRecvBuffer.contents
  rw [Server.setRecv, modify_sessions]
  split_ifs with he
  · exact hb (he ▸ hne)
  · exact h s hin he

theorem Rested.receiveStep {w : Server ε} {sid : SessionId} (h : Rested ⟨w, .receiving sid⟩)
    (hin : sid ∈ w.allocated) (hinv : (w.sessions sid).mRecvBuffer.Inv) :
    Rested (Server.receiveStep E sid w) := by
  have hall : ∀ s ∈ w.allocated, s ≠ sid → Rest (w.sessions s).mRecvBuffer.contents :=
    fun s hs _ => h s hs fun he => by cases he
  have hread : Rested ⟨{ w.setRecv sid (w.sessions sid).mRecvBuffer.prepare with
      env := (E.read (w.sessions sid).mSocket (w.sessions sid).mRecvBuffer.freeSpace w.env).2 },
      .idle⟩ := by
    refine Rested.setRecv hall fun _ => ?_
    rw [hinv.appended_prepare.contents_eq, List.append_nil]
    exact h sid hin fun he => by cases he
  rw [Server.receiveStep, receiveBody_eq]
  dsimp only
  cases (E.read (w.sessions sid).mSocket (w.sessions sid).mRecvBuffer.freeSpace w.env).1 with
  | eagain => exact hread
  | error =>
    exact hread.same ((sameRings_stable (E := E) _).disconnect ⟨fun _ => rfl, rfl⟩) fun _ he => he
  | data bytes =>
    dsimp only
    cases (w.sessions sid).mRecvBuffer.prepare.storeAt
        (receiveWindow E.argOrder (w.sessions sid).mRecvBuffer).1 bytes bytes.length with
    | error f => exact hread
    | ok b =>
      refine Rested.setRecv (w := { w.setRecv sid _ with env := _ }) (fun s hs hne => ?_) fun hne =>
        absurd rfl hne
      change Rest ((w.setRecv sid _).sessions s).mRecvBuffer.contents
      rw [Server.setRecv, modify_sessions, if_neg hne]
      exact hall s hs hne

theorem Rested.dispatchStep {w : Server ε} {sid : SessionId} (h : Rested ⟨w, .dispatching sid⟩)
    (hinv : (w.sessions sid).mRecvBuffer.Inv) : Rested (Server.dispatchStep E sid w) := by
  have hall : ∀ s ∈ w.allocated, s ≠ sid → Rest (w.sessions s).mRecvBuffer.contents :=
    fun s hs hne => h s hs fun he => hne (Control.dispatching.inj he).symm
  have hclosed : SameRings w (w.disconnect E sid) :=
    (sameRings_stable w).disconnect ⟨fun _ => rfl, rfl⟩
  have hdone : ∀ w' : Server ε, SameRings w w' →
      Rest (w.sessions sid).mRecvBuffer.contents → Rested ⟨w', .receiving sid⟩ := by
    intro w' hs hr s hin _
    rw [hs.recv s]
    by_cases he : s = sid
    · exact he ▸ hr
    · exact hall s (hs.allocated ▸ hin) he
  rw [Server.dispatchStep]
  rcases Receiver.dispatchBody_cases (R := receiver E sid) hinv with
      ⟨hf, hb⟩ | ⟨hf, hb⟩ | ⟨-, hb⟩ | ⟨k, -, hb⟩ | ⟨k, b, -, -, -, hb⟩ <;>
    rw [hb]
  · exact hdone w ⟨fun _ => rfl, rfl⟩ (Or.inl hf)
  · exact hdone _ hclosed (Or.inr hf)
  · exact h.same hclosed fun _ he => he
  · exact h
  · have hread : Rested ⟨w.setRecv sid b, .dispatching sid⟩ :=
      Rested.setRecv hall fun hne => absurd rfl hne
    have hh := hread.same (sameRings_handlePacket (E := E) (w.setRecv sid b) sid k
      (((receiver E sid).contents w).take k.structSize)) fun _ he => he
    simpa only [receiver, Server.setRecv] using hh

end Server

open Server

variable {ε : Type} {E : Env ε}

theorem Reachable.rested {ok : Config ε → Config ε → Prop} {c : Config ε}
    (h : Reachable E ok c) : Rested c := by
  induction h with
  | init hi =>
    intro s hin
    rw [hi.allocated] at hin
    cases hin
  | step hr hf hs _ ih =>
    have hknown := hr.known.2
    have hrings := hr.buffered
    cases hs with
    | @accept w sock sid send recv hfresh hlive hsend hrecv =>
      intro s hin _
      change s ∈ insert sid w.allocated at hin
      change Rest (((w.createClient sock sid send recv).onConnect sid).sessions s).mRecvBuffer.contents
      rw [created_sessions]
      split_ifs with he
      · rw [CircularBuffer.contents_new]
        exact Or.inl rfl
      · exact ih s (Finset.mem_of_mem_insert_of_ne hin he) nofun
    | @readable w sock =>
      have hall : ∀ s ∈ w.allocated, Rest (w.sessions s).mRecvBuffer.contents :=
        fun s hs => ih s hs nofun
      rcases startReceive_cases w sock with ⟨sid, -, -, he⟩ | ⟨f, he⟩ | ⟨-, he⟩ <;> rw [he] <;>
        exact fun s hs _ => hall s hs
    | receive =>
      have hin := hknown _ (Or.inl rfl)
      exact ih.receiveStep hin (hrings _ hin).1.inv
    | dispatch =>
      have hin := hknown _ (Or.inr rfl)
      exact ih.dispatchStep (hrings _ hin).1.inv
    | flush hflush =>
      exact ih.same ((sameRings_stable _).flushClientSend hflush ⟨fun _ => rfl, rfl⟩) nofun
    | startGameSession => exact ih
    | processTerminate => exact ih
    | outside _ => exact ih

namespace CircularBuffer

theorem Inv.getBuffer_le {b : CircularBuffer} (h : b.Inv) : b.getBuffer ≤ b.mBuffer.length := by
  have hend := h.a_le
  rw [getBuffer]
  rcases h.cases with ⟨hp, -⟩ | ⟨hp, -, hb, -⟩ <;> rw [hp]
  · exact hend
  · simp only
    omega

theorem Inv.window_front_le {b : CircularBuffer} (h : b.Inv) (order : ArgOrder) :
    (receiveWindow order b).1 ≤ b.prepare.mBuffer.length := by
  have hp := h.appended_prepare
  cases order with
  | pointerFirst =>
    rw [hp.length_eq]
    exact h.getBuffer_le
  | sizeFirst => exact hp.inv.getBuffer_le

theorem storeAt_nothing {b : CircularBuffer} {p : Nat} (h : p ≤ b.mBuffer.length) :
    b.storeAt p [] 0 = .ok b := by
  rw [storeAt, if_pos ⟨Nat.le_refl 0, h⟩]
  simp [Region.store]

theorem commit_nothing (b : CircularBuffer) : b.commit 0 = b := by
  rw [commit]
  split_ifs <;> rfl

theorem Inv.freeSpace_prepare {b : CircularBuffer} (h : b.Inv) :
    b.prepare.freeSpace = b.freeSpace := by
  rcases h.prepare_cases with ⟨he, -⟩ | ⟨he, -, hi, hs, hf⟩ | ⟨he, -⟩
  · rw [he]
  · rw [he, hf]
    rcases hi.prepare_cases with ⟨-, -, hf'⟩ | ⟨-, hp, -⟩ | ⟨-, hp, -⟩
    · rw [hf']
      simp only [allocateB, hs]
      omega
    · cases hp
    · cases hp
  · rw [he]

theorem Inv.freeSpace_full {b : CircularBuffer} (h : b.Inv)
    (hfull : b.contents.length = b.mBuffer.length) : b.freeSpace = 0 := by
  have hlen := h.length_contents
  have hend := h.a_le
  rcases h.prepare_cases with ⟨-, -, hf⟩ | ⟨-, -, hi, hs, hf⟩ | ⟨-, -, hs, -, hf⟩
  · omega
  · have hg := (hi.b_start 0 rfl).2.2
    simp only [allocateB] at hg
    omega
  · omega

end CircularBuffer

/-- What the handlers do outside, `OnReceive`'s own reads apart. -/
inductive Elsewhere (E : Env ε) : ε → ε → Prop where
  | setLinger {e sock} : Elsewhere E e (E.setLinger sock e).2
  | accept {e id} : Elsewhere E e (E.acceptPlayerSession id e).2
  | remove {e id} : Elsewhere E e (E.removePlayerSession id e).2
  | terminate {e} : Elsewhere E e (E.terminateGameSession e)
  | ending {e} : Elsewhere E e (E.processEnding e)

/-- A socket on which finitely many bytes arrive: at most `left` are still to come.
Once the peer has closed and they are read it has `ended`, and answers 0. -/
structure Feed (E : Env ε) (sock : Socket) where
  left : ε → Nat
  ended : ε → Prop
  data : ∀ len e bytes, (E.read sock len e).1 = .data bytes →
    left (E.read sock len e).2 + bytes.length ≤ left e
  zero : ∀ len e, (E.read sock len e).1 = .data [] ↔ len = 0 ∨ ended e
  stays : ∀ len e, ended e → ended (E.read sock len e).2
  elsewhere : ∀ e e', Elsewhere E e e' → left e' ≤ left e ∧ (ended e → ended e')

/-- `w'` comes after `w`, with no read of the session's socket in between. -/
structure Fed {sock : Socket} (F : Feed E sock) (sid : SessionId) (w w' : Server ε) : Prop where
  socket : (w'.sessions sid).mSocket = (w.sessions sid).mSocket
  left : F.left w'.env ≤ F.left w.env
  ended : F.ended w.env → F.ended w'.env

namespace Fed

variable {sock : Socket} {F : Feed E sock} {sid : SessionId}

theorem refl (w : Server ε) : Fed F sid w w := ⟨rfl, Nat.le_refl _, fun h => h⟩

theorem elsewhere {w w' : Server ε} (h : Fed F sid w w') {v : Server ε}
    (hs : (v.sessions sid).mSocket = (w'.sessions sid).mSocket)
    (he : Relation.ReflTransGen (Elsewhere E) w'.env v.env) : Fed F sid w v := by
  have hall : ∀ e, Relation.ReflTransGen (Elsewhere E) w'.env e →
      F.left e ≤ F.left w'.env ∧ (F.ended w'.env → F.ended e) := by
    intro e he
    induction he with
    | refl => exact ⟨Nat.le_refl _, fun h => h⟩
    | tail _ hstep ih =>
      obtain ⟨hl, hend⟩ := F.elsewhere _ _ hstep
      exact ⟨hl.trans ih.1, hend ∘ ih.2⟩
  obtain ⟨hleft, hended⟩ := hall _ he
  exact ⟨hs.trans h.socket, hleft.trans h.left, hended ∘ h.ended⟩

theorem removal (m : GameLiftManager) (s : SessionId) (id : PlayerId) (e : ε) :
    Relation.ReflTransGen (Elsewhere E) e (m.removePlayerSession E.toSdk s id e).2 := by
  have hremove : Relation.ReflTransGen (Elsewhere E) e (E.removePlayerSession id e).2 :=
    .single .remove
  have hcheck : ∀ (m : GameLiftManager) (e : ε),
      Relation.ReflTransGen (Elsewhere E) e (m.checkTerminateGameSession E.toSdk e).2 := by
    intro m e
    rw [GameLiftManager.checkTerminateGameSession]
    split_ifs
    · exact (Relation.ReflTransGen.single .terminate).tail .ending
    · exact .refl
  exact hremove.trans (hcheck _ _)

theorem carried (w : Server ε) : Carried E (Fed F sid w) where
  raise h := ⟨h.socket, h.left, h.ended⟩
  queue := by
    intro v s pkt n ok b _ h
    exact h.elsewhere (modify_keeps _ _ _ fun _ => rfl) .refl
  disconnect := by
    intro v s h
    rcases disconnect_cases (E := E) v s with ⟨-, he⟩ | ⟨-, he⟩ | ⟨-, -, he⟩ | ⟨-, -, he⟩ <;> rw [he]
    · exact h
    · exact h.elsewhere rfl (.single .setLinger)
    · exact h.elsewhere (closed_socket ..) (.single .setLinger)
    · exact h.elsewhere (closed_socket ..) ((Relation.ReflTransGen.single .setLinger).trans
        (removal ..))

theorem handlePacket (w : Server ε) (s : SessionId) (kind : Request) (image : List Byte) :
    Fed F sid w (Server.handlePacket E s kind image w) := by
  refine (carried w).handlePacket (fun h => ?_) (fun h => ?_) (fun h => ?_) s kind image (refl w)
  · exact h.elsewhere (modify_keeps _ _ _ fun _ => rfl) .refl
  · exact h.elsewhere rfl (.single .accept)
  · exact h.elsewhere rfl (removal ..)

theorem trans {w w' w'' : Server ε} (h : Fed F sid w w') (h' : Fed F sid w' w'') :
    Fed F sid w w'' :=
  ⟨h'.socket.trans h.socket, h'.left.trans h.left, h'.ended ∘ h.ended⟩

theorem dispatchPacket {w w' : Server ε} {fuel : Nat}
    (hd : (receiver E sid).dispatchPacket fuel w = some w') : Fed F sid w w' := by
  have hret : Loop.Returns (receiver E sid).dispatchBody w w' := ⟨fuel, hd⟩
  refine hret.invariant (Fed F sid w) (Fed F sid w) (refl w) fun v hv => ?_
  rw [Receiver.dispatchBody]
  cases nextFrame ((receiver E sid).mRecvBuffer v) with
  | wait => exact hv
  | invalidType => exact (carried w).disconnect hv
  | unregistered => exact (carried w).disconnect hv
  | parseError k => exact hv
  | parsed k image b =>
    have hread : Fed F sid w (v.setRecv sid b) := hv.elsewhere (setRecv_socket ..) .refl
    have hh := hread.trans (handlePacket (v.setRecv sid b) sid k image)
    simpa only [Loop.Iter.Holds, receiver, Server.setRecv] using hh
  | fault f => exact (carried w).raise hv

end Fed

/-- The body of the loop in `OnReceive`. -/
def readRound (E : Env ε) (fuel : Nat) (sid : SessionId) (w : Server ε) :
    Loop.Iter (Server ε) (Server ε) :=
  match receiveBody E sid w with
  | .done w => .done w
  | .next w =>
    match (receiver E sid).dispatchPacket fuel w with
    | some w => .next w
    | none => .hang
  | .hang => .hang

theorem onReceive_eq (fuel : Nat) (sid : SessionId) (w : Server ε) :
    onReceive E fuel sid w = Loop.loop (readRound E fuel sid) fuel w := rfl

/-- One whole round: a `read` that is not negative, and a dispatch loop that ends. -/
def Round (E : Env ε) (sid : SessionId) (w v : Server ε) : Prop :=
  ∃ u fuel, receiveBody E sid w = .next u ∧ (receiver E sid).dispatchPacket fuel u = some v

/-- `OnReceive` stands before a `read` of `sock`. -/
structure Standby (sid : SessionId) (sock : Socket) (w : Server ε) : Prop where
  inv : (w.sessions sid).mRecvBuffer.Inv
  rest : Rest (w.sessions sid).mRecvBuffer.contents
  socket : (w.sessions sid).mSocket = sock

def ReadsZero {sock : Socket} (F : Feed E sock) (sid : SessionId) (w : Server ε) : Prop :=
  (w.sessions sid).mRecvBuffer.freeSpace = 0 ∨ F.ended w.env

section
variable {sock : Socket} {F : Feed E sock} {sid : SessionId} {w u v : Server ε}

theorem receiveBody_next (hn : receiveBody E sid w = .next u) :
    ∃ bytes b, (E.read (w.sessions sid).mSocket (w.sessions sid).mRecvBuffer.freeSpace w.env).1 =
        .data bytes ∧
      (w.sessions sid).mRecvBuffer.prepare.storeAt
        (receiveWindow E.argOrder (w.sessions sid).mRecvBuffer).1 bytes bytes.length = .ok b ∧
      (u.sessions sid).mRecvBuffer = b.commit bytes.length ∧
      (u.sessions sid).mSocket = (w.sessions sid).mSocket ∧
      u.env = (E.read (w.sessions sid).mSocket (w.sessions sid).mRecvBuffer.freeSpace w.env).2 := by
  rw [receiveBody_eq] at hn
  dsimp only at hn
  cases hr : (E.read (w.sessions sid).mSocket (w.sessions sid).mRecvBuffer.freeSpace w.env).1 with
  | eagain => simp [hr] at hn
  | error => simp [hr] at hn
  | data bytes =>
    cases hb : (w.sessions sid).mRecvBuffer.prepare.storeAt
        (receiveWindow E.argOrder (w.sessions sid).mRecvBuffer).1 bytes bytes.length with
    | error f => simp [hr, hb] at hn
    | ok b =>
      simp only [hr, hb, Loop.Iter.next.injEq] at hn
      subst hn
      refine ⟨bytes, b, rfl, hb, by simp [Server.setRecv], ?_, rfl⟩
      rw [setRecv_socket]
      exact setRecv_socket ..

theorem receiveBody_of_step (h : receiveStep E sid w = ⟨u, .dispatching sid⟩) :
    receiveBody E sid w = .next u := by
  rw [receiveStep] at h
  cases hb : receiveBody E sid w with
  | done v => simp [hb] at h
  | next v =>
    simp only [hb, Config.mk.injEq, and_true] at h
    rw [h]
  | hang => simp [hb] at h

theorem dispatchBody_of_step (h : dispatchStep E sid w = ⟨u, .dispatching sid⟩) :
    (receiver E sid).dispatchBody w = .next u := by
  rw [dispatchStep] at h
  cases hb : (receiver E sid).dispatchBody w with
  | done v => simp [hb] at h
  | next v =>
    simp only [hb, Config.mk.injEq, and_true] at h
    rw [h]
  | hang => exact absurd hb (Receiver.dispatchBody_ne_hang w)

theorem Round.standby (h : Standby sid sock w) (hr : Round E sid w v) :
    Standby sid sock v ∧ (F.ended w.env → F.ended v.env) ∧
      ∃ bytes, (E.read sock (w.sessions sid).mRecvBuffer.freeSpace w.env).1 = .data bytes ∧
        F.left v.env + bytes.length ≤ F.left w.env := by
  obtain ⟨u, fuel, hn, hd⟩ := hr
  obtain ⟨bytes, b, hread, hstore, hrecv, hsock, henv⟩ := receiveBody_next hn
  have hle := E.read_le _ _ _ _ hread
  have hinv : ((receiver E sid).mRecvBuffer u).Inv := by
    change (u.sessions sid).mRecvBuffer.Inv
    rw [hrecv]
    exact (h.inv.store_commit hle hstore).1
  obtain ⟨hi, hrest⟩ := Receiver.dispatchPacket_rest hinv hd
  have hfed := Fed.dispatchPacket (F := F) hd
  rw [h.socket] at hread henv
  have hleft := F.data _ _ _ hread
  rw [← henv] at hleft
  have hl := hfed.left
  refine ⟨⟨hi, hrest, hfed.socket.trans (hsock.trans h.socket)⟩, fun he => ?_, bytes, hread, by omega⟩
  exact hfed.ended (henv ▸ F.stays _ _ he)

/-- An answer 0 changes nothing, so the next `read` is answered 0 as well. -/
theorem Standby.repeats (h : Standby sid sock w) (hz : ReadsZero F sid w) (fuel : Nat) :
    (readRound E fuel sid w).Holds (fun v => Standby sid sock v ∧ ReadsZero F sid v)
      fun _ => False := by
  have hread := (F.zero (w.sessions sid).mRecvBuffer.freeSpace w.env).mpr hz
  have hstore := CircularBuffer.storeAt_nothing (h.inv.window_front_le E.argOrder)
  cases hn : receiveBody E sid w with
  | hang => simp [readRound, hn, Loop.Iter.Holds]
  | done r =>
    rw [receiveBody_eq] at hn
    dsimp only at hn
    rw [h.socket, hread] at hn
    simp only [List.length_nil, hstore] at hn
    cases hn
  | next u =>
    obtain ⟨bytes, b, hread', hstore', hrecv, -, -⟩ := receiveBody_next hn
    rw [h.socket, hread] at hread'
    cases hread'
    rw [List.length_nil, hstore] at hstore'
    cases hstore'
    rw [List.length_nil, CircularBuffer.commit_nothing] at hrecv
    cases hd : (receiver E sid).dispatchPacket fuel u with
    | none => simp [readRound, hn, hd, Loop.Iter.Holds]
    | some v =>
      have hround : Round E sid w v := ⟨u, fuel, hn, hd⟩
      obtain ⟨hv, hended, -⟩ := hround.standby (F := F) h
      have hprep := h.inv.appended_prepare
      have hinv : (u.sessions sid).mRecvBuffer.Inv := by
        rw [hrecv]
        exact hprep.inv
      have hrest : Rest ((receiver E sid).contents u) := by
        change Rest (u.sessions sid).mRecvBuffer.contents
        rw [hrecv, hprep.contents_eq, List.append_nil]
        exact h.rest
      obtain ⟨t, hbody, ht⟩ := Receiver.dispatchBody_rest (R := receiver E sid) hinv hrest
      have hback : Loop.Returns (receiver E sid).dispatchBody u v := ⟨fuel, hd⟩
      obtain rfl := hback.unique (.of_done hbody)
      have hsame : (v.sessions sid).mRecvBuffer = (w.sessions sid).mRecvBuffer.prepare :=
        ht.trans hrecv
      simp only [readRound, hn, hd, Loop.Iter.Holds]
      refine ⟨hv, hz.imp (fun hfull => ?_) hended⟩
      rw [hsame, h.inv.freeSpace_prepare, hfull]

theorem Standby.stalls (h : Standby sid sock w) (hz : ReadsZero F sid w) (fuel : Nat) :
    ¬ Loop.Terminates (readRound E fuel sid) w := by
  rintro ⟨r, hr⟩
  exact hr.invariant (fun v => Standby sid sock v ∧ ReadsZero F sid v) (fun _ => False) ⟨h, hz⟩
    fun v hv => hv.1.repeats hv.2 fuel

theorem Round.terminates {fuel : Nat} (hr : Round E sid w v)
    (ht : Loop.Terminates (readRound E fuel sid) w) :
    Loop.Terminates (readRound E fuel sid) v := by
  obtain ⟨u, fuel', hn, hd⟩ := hr
  cases hd' : (receiver E sid).dispatchPacket fuel u with
  | none =>
    obtain ⟨r, hr⟩ := ht
    refine (hr.invariant (· = w) (fun _ => False) rfl fun x hx => ?_).elim
    rw [hx, readRound, hn]
    simp only [hd']
    trivial
  | some v' =>
    have hback : Loop.Returns (receiver E sid).dispatchBody u v := ⟨fuel', hd⟩
    obtain rfl := hback.unique ⟨fuel, hd'⟩
    have hbody : readRound E fuel sid w = .next v := by simp only [readRound, hn, hd']
    exact (Loop.terminates_iff_of_next hbody).mp ht

/-- Enough fuel for both loops, when no `read` on the way is answered 0. -/
theorem Standby.returns (h : Standby sid sock w)
    (hd : ∀ v u, Relation.ReflTransGen (Round E sid) w v → receiveBody E sid v = .next u →
      ∃ fuel u', (receiver E sid).dispatchPacket fuel u = some u')
    (hz : ∀ v, Relation.ReflTransGen (Round E sid) w v → ¬ ReadsZero F sid v) :
    ∃ w' d n, ∀ d' n', d ≤ d' → n ≤ n' → Loop.loop (readRound E d' sid) n' w = some w' := by
  -- Each round takes at least one byte off what is still to come.
  induction hm : F.left w.env using Nat.strongRecOn generalizing w with
  | _ m ih =>
    cases hn : receiveBody E sid w with
    | hang =>
      rw [receiveBody_eq] at hn
      dsimp only at hn
      split at hn
      · cases hn
      · cases hn
      · split at hn <;> cases hn
    | done r =>
      refine ⟨r, 0, 1, fun d' n' _ hle => ?_⟩
      obtain ⟨n, rfl⟩ := Nat.exists_eq_add_of_le' hle
      exact Loop.loop_of_done (by simp only [readRound, hn]) n
    | next u =>
      obtain ⟨fuel, v, hv⟩ := hd w u .refl hn
      have hround : Round E sid w v := ⟨u, fuel, hn, hv⟩
      obtain ⟨hstand, -, bytes, hread, hleft⟩ := hround.standby (F := F) h
      have hne : bytes ≠ [] := by
        rintro rfl
        exact hz w .refl ((F.zero _ _).mp hread)
      have hpos := List.length_pos_iff.mpr hne
      obtain ⟨w', d, n, hloop⟩ := ih (F.left v.env) (by omega) hstand
        (fun x y hx => hd x y (.head hround hx)) (fun x hx => hz x (.head hround hx)) rfl
      refine ⟨w', max d fuel, n + 1, fun d' n' hdle hnle => ?_⟩
      obtain ⟨k, rfl⟩ := Nat.exists_eq_add_of_le' hnle
      have hdisp : (receiver E sid).dispatchPacket d' u = some v :=
        Loop.loop_mono hv (by omega)
      have hbody : readRound E d' sid w = .next v := by simp only [readRound, hn, hdisp]
      rw [show k + (n + 1) = k + n + 1 by omega, Loop.loop_of_next hbody]
      exact hloop d' (k + n) (by omega) (by omega)

end

/-- On a socket on which finitely many bytes arrive, `OnReceive` returns exactly when
no `read` on the way finds the ring full or the peer closed. -/
theorem onReceive_returns_iff (E : Env ε) (w : Server ε) (sid : SessionId)
    (h : Reachable E Free ⟨w, .receiving sid⟩) (F : Feed E (w.sessions sid).mSocket)
    (hd : ∀ v u, Relation.ReflTransGen (Round E sid) w v → receiveBody E sid v = .next u →
      ∃ fuel u', (receiver E sid).dispatchPacket fuel u = some u') :
    (∃ fuel w', onReceive E fuel sid w = some w') ↔
      ∀ v, Relation.ReflTransGen (Round E sid) w v →
        0 < (v.sessions sid).mRecvBuffer.freeSpace ∧ ¬ F.ended v.env := by
  have hin := h.known.2 sid (Or.inl rfl)
  have hstand : Standby sid (w.sessions sid).mSocket w :=
    ⟨(h.buffered sid hin).1.inv, h.rested sid hin nofun, rfl⟩
  have hzero : ∀ v : Server ε, ¬ ReadsZero F sid v ↔
      0 < (v.sessions sid).mRecvBuffer.freeSpace ∧ ¬ F.ended v.env := by
    intro v
    rw [ReadsZero, not_or, Nat.pos_iff_ne_zero]
  constructor
  · rintro ⟨fuel, w', hret⟩ v hv
    rw [← hzero]
    intro hz
    have hterm : Loop.Terminates (readRound E fuel sid) w := ⟨w', fuel, onReceive_eq fuel sid w ▸ hret⟩
    have hback : Standby sid (w.sessions sid).mSocket v ∧
        Loop.Terminates (readRound E fuel sid) v := by
      clear hz
      induction hv with
      | refl => exact ⟨hstand, hterm⟩
      | tail _ hr ih => exact ⟨(hr.standby (F := F) ih.1).1, hr.terminates ih.2⟩
    exact hback.1.stalls hz fuel hback.2
  · intro hall
    obtain ⟨w', d, n, hloop⟩ := hstand.returns hd fun v hv => (hzero v).mpr (hall v hv)
    exact ⟨max d n, w', hloop _ _ (Nat.le_max_left ..) (Nat.le_max_right ..)⟩

/-- A `read` that asks for nothing answers 0, and so does one at an empty chunk of the
script: there the peer has closed. -/
def streamed : Env Playback :=
  { playback with
    read := fun _ len e =>
      if len = 0 then (.data [], e)
      else
        match e.reads with
        | [] => (.eagain, e)
        | .data [] :: _ => (.data [], e)
        | r :: rs => (clip len r, { e with reads := rs })
    read_le := by
      intro sock len e bytes h
      split_ifs at h with hz
      · cases h
        exact Nat.zero_le _
      · split at h
        · cases h
        · cases h
          exact Nat.zero_le _
        · next r rs _ _ =>
          cases r with
          | data xs =>
            cases h
            rw [List.length_take]
            exact Nat.min_le_left ..
          | eagain => cases h
          | error => cases h }

def chunkLength : ReadResult → Nat
  | .data bytes => bytes.length
  | _ => 0

def streamedFeed (sock : Socket) : Feed streamed sock where
  left e := (e.reads.map chunkLength).sum
  ended e := e.reads.head? = some (.data [])
  data := by
    intro len e bytes h
    simp only [streamed] at h ⊢
    split_ifs at h ⊢ with hz
    · cases h
      simp
    · split at h
      · cases h
      · next hr =>
        cases h
        simp [hr]
      · next r rs _ hr =>
        cases r with
        | data xs =>
          cases h
          simp [hr, chunkLength]
          omega
        | eagain => cases h
        | error => cases h
  zero := by
    intro len e
    simp only [streamed]
    split_ifs with hz
    · simp [hz]
    · split
      · next hr => simp [hr, hz]
      · next hr => simp [hr]
      · next r rs hne hr =>
        cases r with
        | data xs =>
          cases xs with
          | nil => exact (hne rfl).elim
          | cons x xs => simp [clip, hr, hz]
        | eagain => simp [clip, hr, hz]
        | error => simp [clip, hr, hz]
  stays := by
    intro len e h
    simp only [streamed]
    split_ifs
    · exact h
    · cases hr : e.reads with
      | nil => simp [hr] at h
      | cons r rs =>
        rw [hr, List.head?_cons, Option.some.injEq] at h
        subst h
        simp [hr]
  elsewhere := by
    intro e e' h
    have hsame : e'.reads = e.reads := by
      cases h with
      | setLinger => rfl
      | accept =>
        simp only [streamed, playback, ledger]
        split_ifs <;> rfl
      | remove =>
        simp only [streamed, playback, ledger]
        split_ifs <;> rfl
      | terminate => rfl
      | ending => rfl
    rw [hsame]
    exact ⟨Nat.le_refl _, fun h => h⟩

theorem joined_standby (ids : List PlayerId) (reads : List ReadResult) :
    Standby 0 5 (joined ids reads) where
  inv := CircularBuffer.inv_new zeroBlock
  rest := by
    have hempty : ((joined ids reads).sessions 0).mRecvBuffer.contents = [] :=
      CircularBuffer.contents_new zeroBlock
    rw [hempty]
    exact Or.inl rfl
  socket := rfl

theorem streamed_receive :
    ∃ b : CircularBuffer, b.Inv ∧ b.contents = moveRequest.toBytes ∧
      receiveStep streamed 0 (joined [] [.data moveRequest.toBytes]) =
        ⟨(joined [] []).setRecv 0 b, .dispatching 0⟩ := by
  have hrecv : ((joined [] [.data moveRequest.toBytes]).sessions 0).mRecvBuffer =
      .new zeroBlock := rfl
  have hsock : ((joined [] [.data moveRequest.toBytes]).sessions 0).mSocket = 5 := rfl
  have hnew := CircularBuffer.inv_new zeroBlock
  have hroom : (CircularBuffer.new zeroBlock).freeSpace = bufSize :=
    (new_freeSpace zeroBlock).trans zeroBlock_length
  have hlen : moveRequest.toBytes.length = 16 := moveRequest.length_toBytes
  have hread : streamed.read 5 (CircularBuffer.new zeroBlock).freeSpace
      (joined [] [.data moveRequest.toBytes]).env =
        (.data moveRequest.toBytes, (joined [] []).env) := by
    rw [hroom]
    rfl
  have hfit : moveRequest.toBytes.length ≤ (CircularBuffer.new zeroBlock).freeSpace := by
    rw [hlen, hroom]
    decide
  rw [← hsock] at hread
  rw [← hrecv] at hnew hfit hread
  obtain ⟨b, ha, hreceive⟩ := receiveStep_data rfl hread hnew hfit
  refine ⟨b, ha.inv, ?_, hreceive⟩
  rw [ha.contents_eq, hrecv, CircularBuffer.contents_new, List.nil_append]

/-- The client's move comes in and is handled, and the next `read` finds nothing. -/
theorem streamed_move :
    ∃ u v, receiveBody streamed 0 (joined [] [.data moveRequest.toBytes]) = .next u ∧
      (receiver streamed 0).dispatchPacket 2 u = some v ∧
      0 < (v.sessions 0).mRecvBuffer.freeSpace ∧ v.env.reads = [] := by
  obtain ⟨b, hinv, hcontents, hcame⟩ := streamed_receive
  obtain ⟨u, hu⟩ : ∃ u, u = (joined [] []).setRecv 0 b := ⟨_, rfl⟩
  have hub : (u.sessions 0).mRecvBuffer = b := hu ▸ rfl
  rw [← hu] at hcame
  have hframe : frameOf (u.sessions 0).mRecvBuffer.contents =
      .parsed .move moveRequest.toBytes [] := by
    have hmove := moveRequest.frameOf_toBytes []
    rw [List.append_nil] at hmove
    rw [hub, hcontents]
    exact hmove
  obtain ⟨b', hb', hrest, -, hstep⟩ :=
    dispatchStep_parsed (E := streamed) (hub.symm ▸ hinv) hframe
  have hnobody : handlePacket streamed 0 .move moveRequest.toBytes (u.setRecv 0 b') =
      u.setRecv 0 b' := broadcastMessage_nobody (hu ▸ rfl) _
  rw [hnobody] at hstep
  obtain ⟨v, hend, -⟩ := Receiver.dispatchBody_rest (R := receiver streamed 0)
    (s := u.setRecv 0 b') hb' (Or.inl ((congrArg frameOf hrest).trans rfl))
  obtain rfl : v = u.setRecv 0 b' := by
    have hwaits : dispatchStep streamed 0 (u.setRecv 0 b') = ⟨u.setRecv 0 b', .receiving 0⟩ :=
      dispatchStep_waits hb' (congrArg frameOf hrest)
    rw [dispatchStep, hend] at hwaits
    exact congrArg Config.server hwaits
  have hjoin : Reachable streamed Free ⟨joined [] [.data moveRequest.toBytes], .receiving 0⟩ :=
    joined_reachable_of (fun _ _ _ _ => trivial) (playback_starts _ _)
  have hmoved := (hjoin.later (onward_receive rfl hcame)).later (onward_dispatch (hu ▸ rfl) hstep)
  have hsized := (hmoved.buffered 0 (hmoved.known.2 0 (Or.inr rfl))).1
  have hhalf := hsized.inv.half_free hsized.size
  refine ⟨u, u.setRecv 0 b', receiveBody_of_step hcame, ?_, ?_, hu ▸ rfl⟩
  · exact (Loop.loop_of_next (dispatchBody_of_step hstep) 1).trans (Loop.loop_of_done hend 0)
  · rw [show ((u.setRecv 0 b').sessions 0).mRecvBuffer = b' from rfl, hrest,
      List.length_nil] at hhalf
    change 0 < b'.freeSpace
    omega

theorem onReceive_returns_move :
    ∃ v fuel w', Round streamed 0 (joined [] [.data moveRequest.toBytes]) v ∧
      onReceive streamed fuel 0 (joined [] [.data moveRequest.toBytes]) = some w' := by
  have hjoin : Reachable streamed Free ⟨joined [] [.data moveRequest.toBytes], .receiving 0⟩ :=
    joined_reachable_of (fun _ _ _ _ => trivial) (playback_starts _ _)
  obtain ⟨u, v, hbody, hdispatch, hroom, hdrained⟩ := streamed_move
  have hround : Round streamed 0 (joined [] [.data moveRequest.toBytes]) v :=
    ⟨u, 2, hbody, hdispatch⟩
  have honly : ∀ x, Round streamed 0 (joined [] [.data moveRequest.toBytes]) x → x = v := by
    rintro x ⟨y, fuel, hy, hx⟩
    obtain rfl := Loop.Iter.next.inj (hy.symm.trans hbody)
    exact Loop.Returns.unique ⟨fuel, hx⟩ ⟨2, hdispatch⟩
  have hlast : ∀ y, receiveBody streamed 0 v ≠ .next y := by
    intro y hy
    obtain ⟨bytes, b, hdata, -⟩ := receiveBody_next hy
    simp only [streamed, hdrained, if_neg (Nat.ne_of_gt hroom)] at hdata
    cases hdata
  have hreach : ∀ x, Relation.ReflTransGen (Round streamed 0)
      (joined [] [.data moveRequest.toBytes]) x →
        x = joined [] [.data moveRequest.toBytes] ∨ x = v := by
    intro x hx
    induction hx with
    | refl => exact Or.inl rfl
    | @tail y z _ hstep ih =>
      rcases ih with rfl | rfl
      · exact Or.inr (honly z hstep)
      · obtain ⟨y', -, hy', -⟩ := hstep
        exact absurd hy' (hlast y')
  refine ⟨v, ?_⟩
  have hreturns := (onReceive_returns_iff streamed _ 0 hjoin (streamedFeed _) ?_).mpr ?_
  · obtain ⟨fuel, w', hret⟩ := hreturns
    exact ⟨fuel, w', hround, hret⟩
  · intro x y hx hy
    rcases hreach x hx with rfl | rfl
    · obtain rfl := Loop.Iter.next.inj (hy.symm.trans hbody)
      exact ⟨2, v, hdispatch⟩
    · exact absurd hy (hlast y)
  · intro x hx
    rcases hreach x hx with rfl | rfl
    · refine ⟨?_, fun hended => by cases hended⟩
      change 0 < (CircularBuffer.new zeroBlock).freeSpace
      rw [new_freeSpace, zeroBlock_length]
      decide
    · refine ⟨hroom, fun hended => ?_⟩
      change _ = some _ at hended
      rw [hdrained] at hended
      cases hended

theorem onReceive_none {fuel : Nat} {sid : SessionId} {w : Server ε}
    (h : ¬ Loop.Terminates (readRound E fuel sid) w) : onReceive E fuel sid w = none := by
  rw [onReceive_eq]
  cases hr : Loop.loop (readRound E fuel sid) fuel w with
  | none => rfl
  | some r => exact absurd ⟨r, fuel, hr⟩ h

def stalled : List Byte := [255, 255, 1, 0] ++ List.replicate 10236 0

theorem stalled_length : stalled.length = bufSize := by
  rw [stalled, List.length_append, List.length_replicate]
  rfl

theorem frameOf_stalled : frameOf stalled = .wait := by
  have hsize : sizeT (PacketHeader.ofBytes stalled).mSize = 0xffffffffffffffff := rfl
  rw [frameOf, if_neg (by rw [stalled_length]; decide)]
  dsimp only
  rw [if_pos]
  rw [hsize, stalled_length]
  decide

/-- The peer closes, or fills the ring with a packet that never completes. In both cases
every further `read` answers 0, and `OnReceive` never returns. -/
theorem onReceive_hangs :
    (Reachable streamed Free ⟨joined [] [.data []], .receiving 0⟩ ∧
      ∀ fuel, onReceive streamed fuel 0 (joined [] [.data []]) = none) ∧
    Reachable streamed Free ⟨joined [] [.data stalled], .receiving 0⟩ ∧
      ∀ fuel, onReceive streamed fuel 0 (joined [] [.data stalled]) = none := by
  have hjoin : ∀ reads, Reachable streamed Free ⟨joined [] reads, .receiving 0⟩ := fun _ =>
    joined_reachable_of (fun _ _ _ _ => trivial) (playback_starts _ _)
  refine ⟨⟨hjoin _, fun fuel => onReceive_none ?_⟩, hjoin _, fun fuel => onReceive_none ?_⟩
  · exact (joined_standby [] [.data []]).stalls (F := streamedFeed 5) (Or.inr rfl) fuel
  · have hread : streamed.read 5 bufSize (joined [] [.data stalled]).env =
        (.data stalled, (joined [] []).env) := by
      change (ReadResult.data (stalled.take bufSize), _) = _
      rw [List.take_of_length_le (Nat.le_of_eq stalled_length)]
      rfl
    obtain ⟨b, hb, hsize, -, hcontents, hstep⟩ := joined_fills stalled_length hread
    have hfull : b.freeSpace = 0 := by
      refine hb.freeSpace_full ?_
      rw [hcontents, stalled_length, hsize]
    have hrest : Rest b.contents := by
      rw [hcontents]
      exact Or.inl frameOf_stalled
    have hbody := receiveBody_of_step hstep
    obtain ⟨v, hend, hrecv⟩ := Receiver.dispatchBody_rest (R := receiver streamed 0)
      (s := (joined [] []).setRecv 0 b) hb hrest
    have hround : Round streamed 0 (joined [] [.data stalled]) v :=
      ⟨_, 1, hbody, Loop.loop_of_done hend 0⟩
    have hzero : ReadsZero (streamedFeed 5) 0 v := by
      refine Or.inl ?_
      change ((receiver streamed 0).mRecvBuffer v).freeSpace = 0
      rw [hrecv]
      exact hfull
    obtain ⟨hstand, -⟩ := hround.standby (F := streamedFeed 5) (joined_standby _ _)
    exact fun hterm => hstand.stalls hzero fuel (hround.terminates hterm)

end GameLift
