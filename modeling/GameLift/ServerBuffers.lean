import GameLift.ServerInvariant

/-! The rings of the sessions in every reachable state. A ring keeps its shape in
whatever order `read`'s arguments are evaluated; only its contents may come out wrong. -/

namespace GameLift

namespace CircularBuffer

structure Sized (b : CircularBuffer) : Prop where
  inv : b.Inv
  size : b.mBuffer.length = bufSize

theorem Sized.new {block : Block} (h : block.cells.length = bufSize) :
    (CircularBuffer.new block).Sized := ⟨inv_new block, h⟩

theorem Sized.appended {b b' : CircularBuffer} (h : b.Sized) {data : List Byte}
    (ha : b.Appended data b') : b'.Sized := ⟨ha.inv, ha.length_eq.trans h.size⟩

theorem Sized.dropped {b b' : CircularBuffer} (h : b.Sized) {n : Nat} (hd : b.Dropped n b') :
    b'.Sized := ⟨hd.inv, hd.length_eq.trans h.size⟩

theorem Inv.store_commit {b b' : CircularBuffer} (h : b.Inv) {p : Nat} {bytes : List Byte}
    (hle : bytes.length ≤ b.freeSpace)
    (hs : b.prepare.storeAt p bytes bytes.length = .ok b') :
    (b'.commit bytes.length).Inv ∧ (b'.commit bytes.length).mBuffer.length = b.mBuffer.length := by
  rw [storeAt] at hs
  split_ifs at hs with hfit
  cases hs
  rw [List.take_length]
  have hlen := Region.length_store hfit.2
  have hend := h.a_le
  rcases h.prepare_cases with ⟨he, hp, hf⟩ | ⟨he, hp, hi, hs, hf⟩ | ⟨he, hp, hs, -, hf⟩ <;>
    rw [he] at hlen ⊢
  · obtain ⟨-, hb, hg⟩ := h.b_start 0 hp
    simp only [commit, hp, Option.isSome_some, if_true]
    refine ⟨⟨hlen ▸ h.size_lt, hlen ▸ hend, (fun hn => by cases hn), fun q hq => ?_, fun hz => ?_⟩, hlen⟩
    · cases hq
      simp only [hlen]
      exact ⟨trivial, by omega, hg⟩
    · have hnone := (h.a_empty hz).2
      rw [hp] at hnone
      cases hnone
  · have hg := (hi.b_start 0 rfl).2.2
    simp only [allocateB] at hlen hg
    simp only [commit, allocateB, Option.isSome_some, if_true]
    refine ⟨⟨hlen ▸ h.size_lt, hlen ▸ hend, (fun hn => by cases hn), fun q hq => ?_, fun hz => ?_⟩, hlen⟩
    · cases hq
      simp only [hlen]
      exact ⟨trivial, by omega, hg⟩
    · have hnone := (hi.a_empty hz).2
      cases hnone
  · simp only [commit, hp, Option.isSome_none, Bool.false_eq_true, if_false]
    refine ⟨⟨hlen ▸ h.size_lt, ?_, fun _ => hs, (fun q hq => by cases hq), fun hz => ?_⟩, hlen⟩
    · simp only [hlen]
      omega
    · change b.mARegionSize + bytes.length = 0 at hz
      exact ⟨(h.a_empty (by omega)).1, rfl⟩

end CircularBuffer

namespace Server

variable {ε : Type} {E : Env ε}

theorem receiveWindow_snd (order : ArgOrder) (b : CircularBuffer) :
    (receiveWindow order b).2 = (b.freeSpace, b.prepare) := by cases order <;> rfl

theorem receiveBody_eq (w : Server ε) (sid : SessionId) :
    receiveBody E sid w =
      let b := (w.sessions sid).mRecvBuffer
      let r := E.read (w.sessions sid).mSocket b.freeSpace w.env
      let v : Server ε := { w.setRecv sid b.prepare with env := r.2 }
      match r.1 with
      | .eagain => .done v
      | .error => .done (v.disconnect E sid)
      | .data bytes =>
        match b.prepare.storeAt (receiveWindow E.argOrder b).1 bytes bytes.length with
        | .error f => .done (v.raise f)
        | .ok b => .next (v.setRecv sid (b.commit bytes.length)) := by
  have hwindow : receiveWindow E.argOrder (w.sessions sid).mRecvBuffer =
      ((receiveWindow E.argOrder (w.sessions sid).mRecvBuffer).1,
        (w.sessions sid).mRecvBuffer.freeSpace, (w.sessions sid).mRecvBuffer.prepare) :=
    Prod.ext rfl (receiveWindow_snd ..)
  rw [receiveBody, hwindow]
  rfl

/-- Both rings of every session that `CreateClient` made have kept their shape. -/
def Buffered (w : Server ε) : Prop :=
  ∀ s ∈ w.allocated, (w.sessions s).mRecvBuffer.Sized ∧ (w.sessions s).mSendBuffer.Sized

theorem Buffered.of_eq {w w' : Server ε} (h : w.Buffered) (ha : w'.allocated = w.allocated)
    (hr : ∀ s, (w'.sessions s).mRecvBuffer = (w.sessions s).mRecvBuffer)
    (hs : ∀ s, (w'.sessions s).mSendBuffer = (w.sessions s).mSendBuffer) : w'.Buffered := by
  intro s hin
  rw [hr, hs]
  exact h s (ha ▸ hin)

theorem Buffered.setSend {w : Server ε} (h : w.Buffered) (sid : SessionId) {b : CircularBuffer}
    (hb : (w.sessions sid).mSendBuffer.Sized → b.Sized) :
    (w.modify sid fun s => { s with mSendBuffer := b }).Buffered := by
  intro s hin
  rw [modify_sessions]
  split_ifs with he
  · subst he
    exact ⟨(h s hin).1, hb (h s hin).2⟩
  · exact h s hin

theorem Buffered.setRecv {w : Server ε} (h : w.Buffered) (sid : SessionId) {b : CircularBuffer}
    (hb : (w.sessions sid).mRecvBuffer.Sized → b.Sized) : (w.setRecv sid b).Buffered := by
  intro s hin
  rw [Server.setRecv, modify_sessions]
  split_ifs with he
  · subst he
    exact ⟨hb (h s hin).1, (h s hin).2⟩
  · exact h s hin

theorem Buffered.sendFlush {w w' : Server ε} {fuel : Nat} {sid : SessionId} {r : FlushEnd}
    (hf : w.sendFlush E fuel sid = some (r, w')) (h : w.Buffered) : w'.Buffered := by
  rw [Server.sendFlush] at hf
  split_ifs at hf
  · cases hf
    exact h
  · have hret : Loop.Returns (sendBody E sid) w (r, w') := ⟨fuel, hf⟩
    refine hret.invariant Buffered (fun p => p.2.Buffered) h fun v hv => ?_
    rw [sendBody]
    dsimp only
    split_ifs
    · cases (v.sessions sid).mSendBuffer.loadAt (v.sessions sid).mSendBuffer.getBufferStart
          (v.sessions sid).mSendBuffer.getContiguiousBytes with
      | error f => exact hv
      | ok data =>
        dsimp only
        cases (E.write (v.sessions sid).mSocket data v.env).1 with
        | eagain => exact hv
        | error => exact hv
        | sent n =>
          dsimp only
          cases hb : (v.sessions sid).mSendBuffer.remove n with
          | error f => exact hv
          | ok b =>
            refine Buffered.setSend (w := Server.accept { v with env := _ } sid _) hv sid fun hs => ?_
            obtain ⟨c, hc, hd⟩ := hs.inv.remove_eq n
            change (v.sessions sid).mSendBuffer.remove n = _ at hc
            rw [hc] at hb
            cases hb
            exact hs.dropped hd
    · exact hv
  · cases hf
    exact h

theorem buffered_carried : Carried E (Buffered : Server ε → Prop) where
  raise h := h
  queue := by
    intro w sid pkt n ok b hb h
    exact h.setSend sid fun hs => hs.appended (hs.inv.write_appended hb)
  disconnect := by
    intro w sid h
    have hclosed : ∀ m e, (w.closed sid m e).Buffered := by
      intro m e s hin
      by_cases hs : s = sid
      · subst hs
        simpa [closed] using h s hin
      · simpa [closed, hs] using h s hin
    rcases disconnect_cases (E := E) w sid with ⟨-, he⟩ | ⟨-, he⟩ | ⟨-, -, he⟩ | ⟨-, -, he⟩ <;>
      rw [he]
    · exact h
    · exact h
    · exact hclosed _ _
    · exact hclosed _ _

theorem Buffered.handlePacket {w : Server ε} (h : w.Buffered) (sid : SessionId) (kind : Request)
    (image : List Byte) : (Server.handlePacket E sid kind image w).Buffered := by
  refine buffered_carried.handlePacket ?_ (fun h => h) (fun h => h) sid kind image h
  intro w sid id h
  exact h.of_eq rfl (fun s => modify_keeps _ _ _ fun _ => rfl) fun s =>
    modify_keeps _ _ _ fun _ => rfl

theorem Buffered.receiveStep {w : Server ε} (h : w.Buffered) {sid : SessionId}
    (hin : sid ∈ w.allocated) : (Server.receiveStep E sid w).server.Buffered := by
  have hprepared : ((w.setRecv sid (w.sessions sid).mRecvBuffer.prepare)).Buffered :=
    h.setRecv sid fun hs => hs.appended hs.inv.appended_prepare
  rw [Server.receiveStep, receiveBody_eq]
  dsimp only
  have hle := E.read_le (w.sessions sid).mSocket (w.sessions sid).mRecvBuffer.freeSpace w.env
  cases hr : (E.read (w.sessions sid).mSocket (w.sessions sid).mRecvBuffer.freeSpace w.env).1 with
  | eagain => exact hprepared
  | error => exact buffered_carried.disconnect (E := E) hprepared
  | data bytes =>
    dsimp only
    cases hs : (w.sessions sid).mRecvBuffer.prepare.storeAt
        (receiveWindow E.argOrder (w.sessions sid).mRecvBuffer).1 bytes bytes.length with
    | error f => exact hprepared
    | ok b =>
      refine Buffered.setRecv (w := { w.setRecv sid _ with env := _ }) hprepared sid fun _ => ?_
      have hold := (h sid hin).1
      obtain ⟨hi, hlen⟩ := hold.inv.store_commit (hle bytes hr) hs
      exact ⟨hi, hlen.trans hold.size⟩

theorem Buffered.dispatchStep {w : Server ε} (h : w.Buffered) (sid : SessionId) :
    (Server.dispatchStep E sid w).server.Buffered := by
  have hbody : ((receiver E sid).dispatchBody w).Holds Buffered Buffered := by
    rw [Receiver.dispatchBody]
    cases hf : nextFrame ((receiver E sid).mRecvBuffer w) with
    | wait => exact h
    | invalidType => exact buffered_carried.disconnect (E := E) h
    | unregistered => exact buffered_carried.disconnect (E := E) h
    | parseError k => exact h
    | parsed k image b =>
      have hparsed : (w.setRecv sid b).Buffered :=
        h.setRecv sid fun hs => hs.dropped (hs.inv.nextFrame_spec.2 k image b hf)
      have hh := hparsed.handlePacket (E := E) sid k image
      simpa only [Loop.Iter.Holds, receiver, Server.setRecv] using hh
    | fault f => exact h
  exact dispatchStep_of_body h hbody

end Server

open Server

variable {ε : Type} {E : Env ε}

theorem Step.buffered {c c' : Config ε} (hs : Step E c c') (hk : c.control.Known c.server)
    (h : c.server.Buffered) : c'.server.Buffered := by
  cases hs with
  | @accept w sock sid send recv hfresh hlive hsend hrecv =>
    intro s hin
    change s ∈ insert sid w.allocated at hin
    change ((w.createClient sock sid send recv).onConnect sid |>.sessions s).mRecvBuffer.Sized ∧ _
    rw [created_sessions]
    split_ifs with he
    · exact ⟨.new hrecv, .new hsend⟩
    · exact h s (Finset.mem_of_mem_insert_of_ne hin he)
  | @readable w sock =>
    rcases startReceive_cases w sock with ⟨sid, -, -, he⟩ | ⟨f, he⟩ | ⟨-, he⟩ <;> rw [he] <;> exact h
  | receive => exact h.receiveStep (hk _ (Or.inl rfl))
  | dispatch => exact h.dispatchStep _
  | flush hflush => exact buffered_carried.flushClientSend Buffered.sendFlush hflush h
  | startGameSession => exact h
  | processTerminate => exact h
  | outside _ => exact h

theorem Reachable.buffered {ok : Config ε → Config ε → Prop} {c : Config ε}
    (h : Reachable E ok c) : c.server.Buffered := by
  induction h with
  | init hi =>
    intro s hin
    rw [hi.allocated] at hin
    cases hin
  | step hr _ hs _ ih => exact hs.buffered hr.known.2 ih

end GameLift
