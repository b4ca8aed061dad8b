import GameLift.ChatOrder
import GameLift.FlushVisit

/-! What a flush brings out. A round of `FlushClientSend` whose writes are all taken leaves
nothing behind in the send buffers, and what has been said is then on its way to every member. -/

namespace GameLift

open Framing (stream)
open ServerPacket (relayed)
open Server
open scoped List

variable {ε : Type}

namespace Server

/-- What the calls of `write` answer that the loop of `SendFlush` makes from here on. -/
inductive SendAnswer (E : Env ε) (sid : SessionId) : Server ε → WriteResult → Prop where
  | write {w data} : 0 < (w.sessions sid).mSendBuffer.getContiguiousBytes →
      (w.sessions sid).mSendBuffer.loadAt (w.sessions sid).mSendBuffer.getBufferStart
        (w.sessions sid).mSendBuffer.getContiguiousBytes = .ok data →
      SendAnswer E sid w (E.write (w.sessions sid).mSocket data w.env).1
  | later {w v r} : sendBody E sid w = .next v → SendAnswer E sid v r → SendAnswer E sid w r

/-- What the calls of `write` answer that a round over these clients makes. -/
inductive RoundAnswer (E : Env ε) : Server ε → List Socket → WriteResult → Prop where
  | here {w k keys sid r} : w.mClientList.value k = some sid →
      (w.sessions sid).mConnected = true → SendAnswer E sid w r → RoundAnswer E w (k :: keys) r
  | later {w v fuel k keys r} : w.flushClient E fuel k = some v → RoundAnswer E v keys r →
      RoundAnswer E w (k :: keys) r

/-- No write that a round over these clients makes is refused. -/
def AllTaken (E : Env ε) (w : Server ε) (keys : List Socket) : Prop :=
  ∀ r, RoundAnswer E w keys r → ∃ n, r = .sent n

variable {E : Env ε} {w w' u : Server ε} {sid : SessionId}

theorem SendAnswer.taken (hsent : ∀ sock data e, ∃ n, (E.write sock data e).1 = .sent n)
    {r : WriteResult} (h : SendAnswer E sid w r) : ∃ n, r = .sent n := by
  induction h with
  | write _ _ => exact hsent _ _ _
  | later _ _ ih => exact ih

/-- Sockets that never refuse a write refuse none of a round. -/
theorem allTaken_of_sent (hsent : ∀ sock data e, ∃ n, (E.write sock data e).1 = .sent n)
    (w : Server ε) (keys : List Socket) : AllTaken E w keys := by
  intro r hr
  induction hr with
  | here _ _ hsend => exact hsend.taken hsent
  | later _ _ ih => exact ih

/-- Every connected session is in the client list under its socket. -/
def Enrolled (w : Server ε) : Prop :=
  ∀ s, (w.sessions s).mConnected = true → s ∈ w.allocated ∧
    (w.sessions s).mSocket ∈ w.mClientList.keys ∧
      w.mClientList.value (w.sessions s).mSocket = some s

structure Table (w : Server ε) : Prop where
  sound : w.TableSound
  enrolled : w.Enrolled

theorem Table.of_eq (h : w.Table) (ha : w'.allocated = w.allocated)
    (hl : w'.mClientList = w.mClientList)
    (hc : ∀ s, (w'.sessions s).mConnected = (w.sessions s).mConnected)
    (hs : ∀ s, (w'.sessions s).mSocket = (w.sessions s).mSocket) : w'.Table := by
  refine ⟨h.sound.of_eq ha hl hc hs, fun s hconn => ?_⟩
  rw [ha, hl, hs]
  exact h.enrolled s (hc s ▸ hconn)

theorem Table.closed (h : w.Table) (hc : (w.sessions sid).mConnected = true)
    (m : GameLiftManager) (e : ε) : (w.closed sid m e).Table := by
  refine ⟨h.sound.closed sid m e, fun s hs => ?_⟩
  rw [closed_connected] at hs
  split_ifs at hs with hne
  obtain ⟨ha, hk, hv⟩ := h.enrolled s hs
  rw [closed_socket]
  refine ⟨ha, Finset.mem_erase.mpr ⟨fun he => ?_, hk⟩, hv⟩
  have hown := (h.enrolled sid hc).2.2
  rw [← he, hv, Option.some.injEq] at hown
  exact hne hown

theorem Table.created (h : w.Table) {sock : Socket} (hfresh : sid ∉ w.allocated)
    (hlive : ∀ s, w.Live s → (w.sessions s).mSocket ≠ sock) (send recv : Block) :
    ((w.createClient sock sid send recv).onConnect sid).Table := by
  have hnew : sock ∉ w.mClientList.keys := by
    intro hin
    obtain ⟨s, hv, hown⟩ := h.sound sock hin
    exact hlive s (Or.inr ⟨sock, hin, hv⟩) hown.socket
  have hlist : ((w.createClient sock sid send recv).onConnect sid).mClientList =
      ⟨insert sock w.mClientList.keys, Function.update w.mClientList.value sock (some sid)⟩ :=
    if_neg hnew
  refine ⟨h.sound.created hlive hfresh send recv, fun s hs => ?_⟩
  change s ∈ insert sid w.allocated ∧ _
  rw [hlist]
  by_cases hne : s = sid
  · subst hne
    simp [created_sessions]
  · rw [created_sessions, if_neg hne] at hs ⊢
    obtain ⟨ha, hk, hv⟩ := h.enrolled s hs
    have hother : (w.sessions s).mSocket ≠ sock := fun he => hnew (he ▸ hk)
    exact ⟨Finset.mem_insert_of_mem ha, Finset.mem_insert_of_mem hk,
      (Function.update_of_ne hother ..).trans hv⟩

theorem upheld_table :
    Upheld E (fun _ => True) (fun w : Server ε => w.fault = none → w.Table) where
  stable := by
    refine .of_closed ?_ ?_ ?_
    · intro w w' hq h hf
      exact (h (hq.fault hf)).of_eq hq.allocated hq.clients hq.connected hq.socket
    · intro w sid hc _ h hf
      exact (h hf).closed hc _ _
    · intro w sid hc _ h hf
      exact (h hf).closed hc _ _
  receive := by
    intro w sid b h hf
    exact (h hf).of_eq rfl rfl (fun s => setRecv_connected ..) fun s => setRecv_socket ..
  lookup := by
    intro w sock _ h
    rcases startReceive_cases w sock with ⟨sid, -, -, he⟩ | ⟨f, he⟩ | ⟨-, he⟩ <;> rw [he]
    · exact h
    · exact fun hf => absurd hf (raise_fault w f)
    · exact fun hf => absurd hf (raise_fault _ _)
  create hf hfresh hlive h _ := (h hf).created hfresh hlive _ _
  accepted := by
    intro w sid id b _ _ _ h _ hf
    refine (h hf).of_eq rfl rfl (fun s => ?_) fun s => ?_
    · rw [setId_connected]
      exact setRecv_connected ..
    · rw [setId_socket]
      exact setRecv_socket ..
  rejected := by
    intro w sid id b _ _ _ h _ hf
    exact (h hf).of_eq rfl rfl (fun s => setRecv_connected ..) fun s => setRecv_socket ..
  removed := by
    intro w sid id b _ _ _ h hf
    refine (h hf).of_eq rfl rfl (fun s => ?_) fun s => ?_
    · rw [setId_connected]
      exact setRecv_connected ..
    · rw [setId_socket]
      exact setRecv_socket ..
  started h hf := (h hf).of_eq rfl rfl (fun _ => rfl) fun _ => rfl
  terminated h hf := (h hf).of_eq rfl rfl (fun _ => rfl) fun _ => rfl
  outside _ h hf := (h hf).of_eq rfl rfl (fun _ => rfl) fun _ => rfl

theorem Table.of_reachable {c : Config ε} (h : Reachable E Free c) (hf : c.server.fault = none) :
    c.server.Table := by
  refine h.invariant upheld_table (fun w hw _ => ?_) (fun _ _ _ => trivial) hf
  refine ⟨fun k hk => ?_, fun s hs => ?_⟩
  · simp [hw.clients] at hk
  · simp [hw.connected] at hs

theorem sendBody_sessions (w : Server ε) (sid : SessionId) :
    (sendBody E sid w).Holds (fun v => ∀ t ≠ sid, v.sessions t = w.sessions t)
      fun p => ∀ t ≠ sid, p.2.sessions t = w.sessions t := by
  rw [sendBody]
  dsimp only
  split_ifs
  · cases (w.sessions sid).mSendBuffer.loadAt (w.sessions sid).mSendBuffer.getBufferStart
        (w.sessions sid).mSendBuffer.getContiguiousBytes with
    | error f => exact fun _ _ => rfl
    | ok data =>
      dsimp only
      cases (E.write (w.sessions sid).mSocket data w.env).1 with
      | eagain => exact fun _ _ => rfl
      | error => exact fun _ _ => rfl
      | sent n =>
        dsimp only
        cases (w.sessions sid).mSendBuffer.remove n with
        | error f => exact fun _ _ => rfl
        | ok b =>
          intro t ht
          rw [modify_sessions, if_neg ht]
          rfl
  · exact fun _ _ => rfl

/-- A socket that refuses nothing is written to until the buffer is empty. -/
theorem sendBody_taken (h : ∀ r, SendAnswer E sid w r → ∃ n, r = .sent n)
    (hs : (w.sessions sid).mSendBuffer.Sized) :
    (sendBody E sid w).Holds (fun _ => True) fun p => p.1 = .drained := by
  have hwin := hs.inv.window_eq
  unfold sendBody
  dsimp only
  split_ifs with hpos
  · rw [CircularBuffer.window, if_pos hpos] at hwin
    obtain ⟨n, hn⟩ := h _ (.write hpos hwin)
    rw [hwin]
    dsimp only
    rw [hn]
    dsimp only
    obtain ⟨b, hb, -⟩ := hs.inv.remove_eq n
    rw [hb]
    trivial
  · rfl

theorem sendFlush_drains {fuel : Nat} {r : FlushEnd}
    (h : ∀ r, SendAnswer E sid w r → ∃ n, r = .sent n) (hb : w.Buffered) (hin : sid ∈ w.allocated)
    (hc : (w.sessions sid).mConnected = true) (hsend : w.sendFlush E fuel sid = some (r, w')) :
    r = .drained ∧ ∀ t ≠ sid, w'.sessions t = w.sessions t := by
  rw [sendFlush, if_pos hc] at hsend
  split_ifs at hsend
  · cases hsend
    exact ⟨rfl, fun _ _ => rfl⟩
  · have hret : Loop.Returns (sendBody E sid) w (r, w') := ⟨fuel, hsend⟩
    refine hret.invariant
      (fun v => (∀ r, SendAnswer E sid v r → ∃ n, r = .sent n) ∧
        (v.sessions sid).mSendBuffer.Sized ∧ ∀ t ≠ sid, v.sessions t = w.sessions t)
      (fun p => p.1 = .drained ∧ ∀ t ≠ sid, p.2.sessions t = w.sessions t)
      ⟨h, (hb sid hin).2, fun _ _ => rfl⟩ fun v hv => ?_
    obtain ⟨htaken, hsized, hothers⟩ := hv
    have hends := sendBody_taken htaken hsized
    have hapart := sendBody_sessions (E := E) v sid
    have hring := sendBody_fault (E := E) hsized
    cases hbody : sendBody E sid v with
    | done p =>
      rw [hbody] at hends hapart
      exact ⟨hends, fun t ht => (hapart t ht).trans (hothers t ht)⟩
    | next v' =>
      rw [hbody] at hapart hring
      exact ⟨fun r hr => htaken r (.later hbody hr), hring.1,
        fun t ht => (hapart t ht).trans (hothers t ht)⟩
    | hang => trivial

/-- What a flush that no socket refuses leaves as it was. -/
structure Brought (w w' : Server ε) : Prop where
  flushable : w'.Flushable
  clients : w'.mClientList = w.mClientList
  gameLift : w'.gameLift = w.gameLift
  allocated : w'.allocated = w.allocated
  connected : ∀ s, (w'.sessions s).mConnected = (w.sessions s).mConnected
  outgoing : ∀ s ∈ w.allocated, w'.outgoing s = w.outgoing s
  emptied : ∀ s, (w.sessions s).mSendBuffer.contents = [] →
    (w'.sessions s).mSendBuffer.contents = []

theorem Brought.trans (h : Brought w u) (h' : Brought u w') : Brought w w' where
  flushable := h'.flushable
  clients := h'.clients.trans h.clients
  gameLift := h'.gameLift.trans h.gameLift
  allocated := h'.allocated.trans h.allocated
  connected s := (h'.connected s).trans (h.connected s)
  outgoing s hs := (h'.outgoing s (h.allocated.symm ▸ hs)).trans (h.outgoing s hs)
  emptied s hs := h'.emptied s (h.emptied s hs)

theorem Flushable.drain (h : w.Flushable) {k : Socket} {keys : List Socket}
    (htaken : AllTaken E w (k :: keys)) (hk : k ∈ w.mClientList.keys) :
    ∃ sid fuel u, w.mClientList.value k = some sid ∧
      (∀ fuel', fuel ≤ fuel' → flushClient E fuel' w k = some u) ∧ Brought w u ∧
      AllTaken E u keys ∧ (u.sessions sid).mSendBuffer.contents = [] := by
  obtain ⟨sid, fuel, r, u, hv, hsend, hu⟩ := h.visit (E := E) hk
  obtain ⟨s, hv', hown⟩ := h.table k hk
  obtain rfl := Option.some.inj (hv.symm.trans hv')
  have hsized := (h.buffered sid hown.allocated).2
  have hstream : Streams sid [w.outgoing sid] w := ⟨hsized.inv, hsized.size, by simp, h.fault⟩
  have hquiet := sendFlush_quiet hsend
  obtain ⟨rfl, hothers⟩ := sendFlush_drains
    (fun r hr => htaken r (.here hv hown.connected hr)) h.buffered hown.allocated hown.connected hsend
  have hempty := (hstream.sendFlush hsend).2 rfl
  have hflush : ∀ fuel', fuel ≤ fuel' → flushClient E fuel' w k = some u := by
    intro fuel' hle
    have hin : k ∈ u.mClientList.keys := hu.clients ▸ hk
    simp [flushClient, hv, sendFlush_mono hsend hle, FlushEnd.answer, hin]
  refine ⟨sid, fuel, u, hv, hflush, ?_,
    fun r hr => htaken r (.later (hflush fuel (Nat.le_refl _)) hr), hempty⟩
  · refine ⟨hu.flushable, hu.clients, hquiet.gameLift, hquiet.allocated, hu.connected,
      fun s hs => sendFlush_outgoing h.fault h.buffered hsend hs, fun s hs => ?_⟩
    by_cases he : s = sid
    · rw [he, hempty]
    · rw [hothers s he, hs]

theorem Flushable.drains {keys : List Socket} (h : w.Flushable) (htaken : AllTaken E w keys)
    (hsub : ∀ k ∈ keys, k ∈ w.mClientList.keys) :
    ∃ least w', (∀ fuel, least ≤ fuel → keys.foldlM (flushClient E fuel) w = some w') ∧
      Brought w w' ∧ ∀ k ∈ keys, ∀ s, w.mClientList.value k = some s →
        (w'.sessions s).mSendBuffer.contents = [] := by
  induction keys generalizing w with
  | nil =>
    have hsame : Brought w w :=
      ⟨h, rfl, rfl, rfl, fun _ => rfl, fun _ _ => rfl, fun _ hs => hs⟩
    exact ⟨0, w, fun fuel _ => by simp, hsame, by simp⟩
  | cons k keys ih =>
    obtain ⟨sid, fuel, u, hv, hflush, hbrought, hlater, hempty⟩ :=
      h.drain htaken (hsub k List.mem_cons_self)
    obtain ⟨least, w', hfold, hrest, hemptied⟩ := ih hbrought.flushable hlater fun j hj => by
      rw [hbrought.clients]
      exact hsub j (List.mem_cons_of_mem k hj)
    refine ⟨max fuel least, w', fun fuel' hle => ?_, hbrought.trans hrest, fun j hj s hs => ?_⟩
    · rw [List.foldlM_cons, hflush fuel' ((Nat.le_max_left fuel least).trans hle)]
      exact hfold fuel' ((Nat.le_max_right fuel least).trans hle)
    · rcases List.mem_cons.mp hj with rfl | hj
      · obtain rfl := Option.some.inj (hv.symm.trans hs)
        exact hrest.emptied sid hempty
      · rw [← hbrought.clients] at hs
        exact hemptied j hj s hs

/-- All that was queued to a connected session is with its socket. -/
theorem Flushable.delivers (h : w.Flushable) (htable : w.Table)
    (htaken : AllTaken E w (w.mClientList.keys.sort (· ≤ ·))) :
    ∃ fuel w', flushClientSend E fuel w = some w' ∧ Brought w w' ∧
      ∀ s, (w.sessions s).mConnected = true → w'.accepted s = w.outgoing s := by
  obtain ⟨least, w', hfold, hbrought, hemptied⟩ := h.drains htaken
    fun k hk => (Finset.mem_sort (· ≤ ·)).mp hk
  refine ⟨least, w', hfold least (Nat.le_refl _), hbrought, fun s hs => ?_⟩
  obtain ⟨hin, hkey, hv⟩ := htable.enrolled s hs
  have hempty := hemptied _ ((Finset.mem_sort (· ≤ ·)).mpr hkey) s hv
  rw [← hbrought.outgoing s hin, outgoing, hempty, List.append_nil]

end Server

open Server

/-- A flush none of whose writes is refused ends. It closes nobody, and afterwards the socket
of a connected session has taken all that was queued to it: for a member, packets whose
broadcasts are the last of all that was said. -/
theorem flush_delivers (E : Env ε) (hlingers : E.Lingers) (said : List (List Byte))
    (w : Server ε) (h : Relaying E said ⟨w, .idle⟩) (hf : w.fault = none)
    (htaken : AllTaken E w (w.mClientList.keys.sort (· ≤ ·))) :
    ∃ fuel w', flushClientSend E fuel w = some w' ∧ Relaying E said ⟨w', .idle⟩ ∧
      w'.fault = none ∧ (∀ s, Listening w' s ↔ Listening w s) ∧
      (∀ s, (w.sessions s).mConnected = true → w'.accepted s = w.outgoing s) ∧
      ∀ s, Listening w s → ∃ packets, w'.accepted s = stream ServerPacket.toBytes packets ∧
        packets ≠ [] ∧ relayed packets <:+ said := by
  have hreach := h.reachable
  obtain ⟨fuel, w', hflush, hbrought, haccepted⟩ := (Flushable.of_reachable hreach hf).delivers
    (Table.of_reachable hreach hf) htaken
  have hrun : Relaying E said ⟨w', .idle⟩ := by
    have hstep := h.step hf (.flush hflush)
    rwa [show Config.broadcasts ⟨w, .idle⟩ = [] from rfl, List.append_nil] at hstep
  refine ⟨fuel, w', hflush, hrun, hbrought.flushable.fault, fun s => ?_, haccepted, fun s hs => ?_⟩
  · rw [Listening, Listening, hbrought.gameLift, hbrought.connected]
  · obtain ⟨hall, hsteps, rfl, hshows⟩ := hall_of_run h hf
    obtain ⟨packets, hspeaks, hheard, hsome⟩ := hshows.heard s (hshows.members hs.1)
    refine ⟨packets, (haccepted s hs.2).trans hspeaks.bytes, hsome hs, ?_⟩
    have hordered := OrderedBroadcast.ordered_empty.steps hsteps
    rw [hheard]
    exact hordered.current hlingers s ((hshows.present s).mpr hs)

theorem generous_write_sent (_ : Socket) (data : List Byte) (e : List ReadResult) (n : Nat)
    (hne : data ≠ []) (h : (WriteResult.sent data.length, e).1 = .sent n) :
    0 < n ∧ n ≤ data.length := by
  obtain rfl := WriteResult.sent.inj h
  exact ⟨List.length_pos_iff.mpr hne, Nat.le_refl _⟩

/-- `congested`, but the sockets take all bytes. -/
def generous : Env (List ReadResult) :=
  { congested with
    write := fun _ data e => (.sent data.length, e)
    read_le := congested_read_le
    write_sent := generous_write_sent }

theorem generous_scripted : Scripted generous :=
  ⟨fun _ _ => rfl, fun _ _ => rfl, rfl, rfl, fun _ => trivial⟩

/-- The player's LoginResult waits in its send buffer. -/
theorem greeting_waits :
    ∃ said w, Relaying generous said ⟨w, .idle⟩ ∧ w.fault = none ∧ Listening w 0 := by
  obtain ⟨w, hreach, hw⟩ := generous_scripted.seated_reachable []
  obtain ⟨said, hrun⟩ := hreach.relaying
  have hin : 0 ∈ w.gameLift.mPlayerSessions := by
    rw [hw.members]
    exact Finset.mem_singleton_self 0
  exact ⟨said, w, hrun, hw.party.fault, hin, hw.party.connected 0 (by decide)⟩

theorem flush_delivers_login :
    ∃ said w w' packets, Relaying generous said ⟨w, .idle⟩ ∧ Relaying generous said ⟨w', .idle⟩ ∧
      Listening w' 0 ∧ w'.accepted 0 = stream ServerPacket.toBytes packets ∧ packets ≠ [] := by
  obtain ⟨said, w, hrun, hf, hl⟩ := greeting_waits
  obtain ⟨-, w', -, hrun', -, hsame, -, hmembers⟩ :=
    flush_delivers generous (fun _ _ => rfl) said w hrun hf
      (allTaken_of_sent (fun _ data _ => ⟨data.length, rfl⟩) w _)
  obtain ⟨packets, hpackets, hsome, -⟩ := hmembers 0 hl
  exact ⟨said, w, w', packets, hrun, hrun', (hsame 0).mpr hl, hpackets, hsome⟩

end GameLift
