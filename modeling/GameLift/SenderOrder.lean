import GameLift.Delivery
import GameLift.HeardPlayers
import GameLift.LoginAnswers

/-! Who said what. The bytes that came in from a session are the packets handled for it
and what waits in its receive buffer. What was broadcast for it comes from these packets
in their order, and so do the LoginResults it was sent. -/

namespace GameLift

open Framing (stream)
open OrderedBroadcast (Steps)
open Server
open ServerPacket (relayed)
open scoped List

/-- The packet that the server broadcasts for this one. -/
def ClientPacket.broadcast (p : ClientPacket) : Option (List Byte) := broadcastOf p.kind p.toBytes

variable {ε : Type}

/-- The bytes that the next step of the machine reads from the socket of `s`. -/
def Config.arrives (E : Env ε) (c : Config ε) (s : SessionId) : List Byte :=
  match c.control with
  | .receiving sid =>
    if s = sid then
      match (E.read (c.server.sessions sid).mSocket
        (c.server.sessions sid).mRecvBuffer.getFreeSpaceSize.1 c.server.env).1 with
      | .data bytes => bytes
      | _ => []
    else []
  | _ => []

/-- What the next step gives to `BroadcastMessage`, and for whom. -/
def Config.speaks (c : Config ε) : List (SessionId × List Byte) :=
  match c.control with
  | .dispatching sid => (c.server.nextBroadcast sid).toList.map (sid, ·)
  | _ => []

theorem Config.speaks_messages (c : Config ε) : c.speaks.map Prod.snd = c.broadcasts := by
  rw [speaks, broadcasts]
  cases c.control with
  | dispatching sid =>
    dsimp only
    rw [List.map_map]
    exact List.map_id _
  | _ => rfl

/-- What has come in from every session, and what was broadcast for which session. -/
structure Traffic where
  received : SessionId → List Byte
  said : List (SessionId × List Byte)

namespace Traffic

def none : Traffic := ⟨fun _ => [], []⟩

def after (E : Env ε) (t : Traffic) (c : Config ε) : Traffic :=
  ⟨fun s => t.received s ++ c.arrives E s, t.said ++ c.speaks⟩

def saidBy (t : Traffic) (s : SessionId) : List (List Byte) :=
  (t.said.filter fun m => m.1 = s).map Prod.snd

end Traffic

/-- Runs of the server with their traffic. -/
inductive Conversing (E : Env ε) : Traffic → Config ε → Prop where
  | init {w} : Initial E w → Conversing E .none ⟨w, .idle⟩
  | step {t c c'} : Conversing E t c → c.server.fault = .none → Step E c c' →
      Conversing E (t.after E c) c'

/-- The first `handled` of the packets from `s` have been handled, and no others begun. -/
structure Heeded (sent : List ClientPacket) (t : Traffic) (w : Server ε) (s : SessionId)
    (handled : List ClientPacket) : Prop where
  first : handled <+: sent
  bytes : t.received s = stream ClientPacket.toBytes handled ++ (w.sessions s).mRecvBuffer.contents
  said : t.saidBy s = handled.filterMap ClientPacket.broadcast

structure AllHeeded (sent : SessionId → List ClientPacket) (t : Traffic) (w : Server ε) : Prop where
  heeded : ∀ s ∈ w.allocated, ∃ handled, Heeded (sent s) t w s handled ∧ Answered w s handled
  unmade : ∀ s ∉ w.allocated, t.received s = [] ∧ t.saidBy s = []

/-- The same sessions, with the same bytes in their receive buffers. -/
structure Unread (w w' : Server ε) : Prop where
  allocated : w'.allocated = w.allocated
  recv : SameReceive w w'

variable {E : Env ε} {w w' : Server ε} {t : Traffic} {sid : SessionId}

theorem unread_stable (w : Server ε) : Stable E (Unread w) where
  quiet := fun hq h => ⟨hq.allocated.trans h.allocated, (sameReceive_stable w).quiet hq h.recv⟩
  disconnect := fun h => ⟨((Mute.refl (E := E) _).disconnect _).allocated.trans h.allocated,
    (sameReceive_stable w).disconnect h.recv⟩

theorem Unread.handlePacket (w : Server ε) (sid : SessionId) (kind : Request)
    (image : List Byte) : Unread w (Server.handlePacket E sid kind image w) :=
  (unread_stable w).carried.handlePacket
    (fun h => ⟨h.allocated, sameReceive_setId h.recv _ _⟩) (fun h => ⟨h.allocated, h.recv⟩)
    (fun h => ⟨h.allocated, h.recv⟩) sid kind image ⟨rfl, fun _ => rfl⟩

namespace Traffic

theorem saidBy_append (t : Traffic) (more : List (SessionId × List Byte)) (s : SessionId) :
    saidBy ⟨t.received, t.said ++ more⟩ s =
      t.saidBy s ++ (more.filter fun m => m.1 = s).map Prod.snd := by
  rw [saidBy, List.filter_append, List.map_append]
  rfl

theorem filter_speaks (m : Option (List Byte)) (sid s : SessionId) :
    (((m.toList.map (sid, ·)).filter fun m => m.1 = s).map Prod.snd) =
      if s = sid then m.toList else [] := by
  cases m with
  | none => exact (ite_self []).symm
  | some bytes =>
    by_cases hs : s = sid
    · subst hs
      rw [if_pos rfl, Option.toList_some, List.map_singleton, List.filter_cons_of_pos (by simp)]
      rfl
    · rw [if_neg hs, Option.toList_some, List.map_singleton,
        List.filter_cons_of_neg (by simp [Ne.symm hs])]
      rfl

end Traffic

/-- A step that reads nothing and queues nothing. -/
theorem AllHeeded.unread {sent : SessionId → List ClientPacket} (h : AllHeeded sent t w)
    (hu : Unread w w') (ho : ∀ s ∈ w.allocated, w'.outgoing s = w.outgoing s) :
    AllHeeded sent t w' := by
  refine ⟨fun s hs => ?_, fun s hs => ?_⟩
  · rw [hu.allocated] at hs
    obtain ⟨handled, hh, hanswered⟩ := h.heeded s hs
    exact ⟨handled, ⟨hh.first, (hu.recv s).symm ▸ hh.bytes, hh.said⟩, hanswered.congr (ho s hs)⟩
  · rw [hu.allocated] at hs
    exact h.unmade s hs

theorem Traffic.after_idle (t : Traffic) (w : Server ε) : t.after E ⟨w, .idle⟩ = t := by
  rw [after, Config.speaks, List.append_nil]
  simp only [Config.arrives, List.append_nil]

/-- What is in front of the receive buffer of a session that sends whole packets. -/
theorem Heeded.front {sent handled : List ClientPacket} {s : SessionId}
    (h : Heeded sent t w s handled) (hsent : t.received s <+: stream ClientPacket.toBytes sent) :
    frameOf (w.sessions s).mRecvBuffer.contents = .wait ∨
      ∃ p tail, handled ++ [p] <+: sent ∧
        (w.sessions s).mRecvBuffer.contents = p.toBytes ++ tail := by
  obtain ⟨pending, hpending⟩ := h.first
  obtain ⟨more, hmore⟩ := hsent
  rw [h.bytes, ← hpending, Framing.stream_append, List.append_assoc,
    List.append_cancel_left_eq] at hmore
  cases pending with
  | nil =>
    have hnil : (w.sessions s).mRecvBuffer.contents = [] := (List.append_eq_nil_iff.mp hmore).1
    exact Or.inl (by rw [hnil]; rfl)
  | cons p ps =>
    rcases Framing.front_cases (Framing.stream_cons p ps ▸ hmore) with hlt | ⟨tail, htail, -⟩
    · exact Or.inl (ClientPacket.frameOf_incomplete hmore hlt)
    · exact Or.inr ⟨p, tail, ⟨ps, by rw [← hpending, List.append_assoc]; rfl⟩, htail⟩

theorem nextBroadcast_waits (h : (w.sessions sid).mRecvBuffer.Inv)
    (hf : frameOf (w.sessions sid).mRecvBuffer.contents = .wait) : w.nextBroadcast sid = none := by
  obtain ⟨hmap, -⟩ := h.nextFrame_spec
  rw [hf] at hmap
  rw [nextBroadcast]
  cases hn : nextFrame (w.sessions sid).mRecvBuffer with
  | wait => rfl
  | _ => simp [hn, Frame.map] at hmap

/-- A step of `sid` that takes the packet in front, if it is whole, and leaves the rest. -/
theorem AllHeeded.dispatch {sent : SessionId → List ClientPacket} (h : AllHeeded sent t w)
    (hw : w.fault = none) (hb : w.Buffered) (hin : sid ∈ w.allocated)
    (hm : ∀ s ∈ w.gameLift.mPlayerSessions, (w.sessions s).mSendBuffer.Sized)
    (hf : (dispatchStep E sid w).server.fault = none)
    (hsent : t.received sid <+: stream ClientPacket.toBytes (sent sid)) :
    AllHeeded sent (t.after E ⟨w, .dispatching sid⟩) (dispatchStep E sid w).server := by
  have hinv := (hb sid hin).1.inv
  have hreceived : (t.after E ⟨w, .dispatching sid⟩).received = t.received := by
    funext s
    exact List.append_nil _
  have hsaid : ∀ s, (t.after E ⟨w, .dispatching sid⟩).saidBy s =
      t.saidBy s ++ if s = sid then (w.nextBroadcast sid).toList else [] := by
    intro s
    rw [← Traffic.filter_speaks]
    exact Traffic.saidBy_append t _ s
  obtain ⟨handled, hh, hanswered⟩ := h.heeded sid hin
  rcases hh.front hsent with hfront | ⟨p, tail, hfirst, htail⟩
  · have hsame : ∀ s, (t.after E ⟨w, .dispatching sid⟩).saidBy s = t.saidBy s := by
      intro s
      rw [hsaid, nextBroadcast_waits hinv hfront, Option.toList_none, ite_self, List.append_nil]
    rw [dispatchStep_waits hinv hfront]
    refine ⟨fun s hs => ?_, fun s hs => ?_⟩
    · obtain ⟨handled, hh, hanswered⟩ := h.heeded s hs
      exact ⟨handled, ⟨hh.first, hreceived ▸ hh.bytes, (hsame s).trans hh.said⟩, hanswered⟩
    · rw [hreceived, hsame]
      exact h.unmade s hs
  · have hframe := ClientPacket.frameOf_toBytes p tail
    rw [← htail] at hframe
    obtain ⟨b, -, hrest, hnext, hstep⟩ := dispatchStep_parsed (E := E) hinv hframe
    have hmessage : w.nextBroadcast sid = p.broadcast := by
      rw [nextBroadcast, hnext]
      rfl
    have hunread : Unread (w.setRecv sid b) (dispatchStep E sid w).server := by
      rw [hstep]
      exact .handlePacket _ _ _ _
    have hqueues : Queues sid p.login.toList w (dispatchStep E sid w).server := by
      rw [hstep] at hf ⊢
      exact (handlePacket_handled hw (hb sid hin).2 hm (parsed_length hinv hnext) hf).queues hf
    have hrecv : ∀ s, ((dispatchStep E sid w).server.sessions s).mRecvBuffer =
        if s = sid then b else (w.sessions s).mRecvBuffer := by
      intro s
      rw [hunread.recv s, setRecv, modify_sessions]
      split_ifs <;> rfl
    refine ⟨fun s hs => ?_, fun s hs => ?_⟩
    · rw [hunread.allocated] at hs
      obtain ⟨others, ho, hothers⟩ := h.heeded s hs
      by_cases he : s = sid
      · subst he
        refine ⟨handled ++ [p], ⟨hfirst, ?_, ?_⟩, ?_⟩
        · rw [hreceived, hrecv, if_pos rfl, hrest, hh.bytes, htail, Framing.stream_append,
            List.append_assoc, List.append_cancel_left_eq, Framing.stream_cons]
          exact congrArg (· ++ tail) (List.append_nil _).symm
        · rw [hsaid, if_pos rfl, hh.said, hmessage, List.filterMap_append,
            List.append_cancel_left_eq]
          cases hp : p.broadcast <;> simp [hp]
        · have hmore := hanswered.queued hs hqueues
          rw [if_pos rfl] at hmore
          rw [Answered, List.filterMap_append]
          cases hp : p.login <;> simpa [hp] using hmore
      · refine ⟨others, ⟨ho.first, ?_, ?_⟩, ?_⟩
        · rw [hreceived, hrecv, if_neg he]
          exact ho.bytes
        · rw [hsaid, if_neg he, List.append_nil]
          exact ho.said
        · have hmore := hothers.queued hs hqueues
          rwa [if_neg he, List.append_nil] at hmore
    · rw [hunread.allocated] at hs
      have hne : s ≠ sid := fun he => hs (he ▸ hin)
      rw [hreceived, hsaid, if_neg hne, List.append_nil]
      exact h.unmade s hs

/-- A reception puts what arrives behind what waits. -/
theorem receiveStep_contents (hinv : (w.sessions sid).mRecvBuffer.Inv)
    (horder : E.argOrder = .sizeFirst) (s : SessionId) :
    ((receiveStep E sid w).server.sessions s).mRecvBuffer.contents =
      (w.sessions s).mRecvBuffer.contents ++ Config.arrives E ⟨w, .receiving sid⟩ s := by
  obtain ⟨r, hr⟩ : ∃ r, r = E.read (w.sessions sid).mSocket
      (w.sessions sid).mRecvBuffer.freeSpace w.env := ⟨_, rfl⟩
  have harrives : Config.arrives E ⟨w, .receiving sid⟩ s =
      if s = sid then (match r.1 with | .data bytes => bytes | _ => []) else [] := by
    rw [hr]
    rfl
  have hprepared : ((w.setRecv sid (w.sessions sid).mRecvBuffer.prepare).sessions
      s).mRecvBuffer.contents = (w.sessions s).mRecvBuffer.contents := by
    rw [setRecv, modify_sessions]
    split_ifs with he
    · subst he
      exact hinv.appended_prepare.contents_eq.trans (List.append_nil _)
    · rfl
  rw [harrives]
  cases hdata : r.1 with
  | eagain =>
    rw [receiveStep, receiveBody_eq, ite_self, List.append_nil]
    dsimp only
    rw [← hr, hdata]
    exact hprepared
  | error =>
    rw [receiveStep, receiveBody_eq, ite_self, List.append_nil]
    dsimp only
    rw [← hr, hdata]
    obtain ⟨v, hv⟩ : ∃ v, v = { w.setRecv sid (w.sessions sid).mRecvBuffer.prepare with
      env := r.2 } := ⟨_, rfl⟩
    have hclosed : Unread v (v.disconnect E sid) := (unread_stable v).disconnect ⟨rfl, fun _ => rfl⟩
    have hsame := hclosed.recv s
    rw [hv] at hsame
    exact (congrArg CircularBuffer.contents hsame).trans hprepared
  | data bytes =>
    have hread : E.read (w.sessions sid).mSocket (w.sessions sid).mRecvBuffer.freeSpace w.env =
        (.data bytes, r.2) := by rw [← hr, ← hdata]
    obtain ⟨b, ha, hstep⟩ := receiveStep_data (by rw [horder]) hread hinv
      (E.read_le _ _ _ _ (by rw [hread]))
    rw [hstep]
    change ((w.setRecv sid b).sessions s).mRecvBuffer.contents = _
    rw [setRecv, modify_sessions]
    split_ifs with he
    · rw [he]
      exact ha.contents_eq
    · exact (List.append_nil _).symm

theorem AllHeeded.receive {sent : SessionId → List ClientPacket} (h : AllHeeded sent t w)
    (hb : w.Buffered) (hin : sid ∈ w.allocated) (horder : E.argOrder = .sizeFirst) :
    AllHeeded sent (t.after E ⟨w, .receiving sid⟩) (receiveStep E sid w).server := by
  have hmute : Mute E w (receiveStep E sid w).server := .receiveStep w sid
  have hsaid : ∀ s, (t.after E ⟨w, .receiving sid⟩).saidBy s = t.saidBy s := by
    intro s
    exact (Traffic.saidBy_append t [] s).trans (List.append_nil _)
  refine ⟨fun s hs => ?_, fun s hs => ?_⟩
  · rw [hmute.allocated] at hs
    obtain ⟨handled, hh, hanswered⟩ := h.heeded s hs
    refine ⟨handled, ⟨hh.first, ?_, (hsaid s).trans hh.said⟩,
      hanswered.congr (hmute.outgoing s hs)⟩
    rw [receiveStep_contents (hb sid hin).1.inv horder, ← List.append_assoc, ← hh.bytes]
    rfl
  · rw [hmute.allocated] at hs
    have hne : s ≠ sid := fun he => hs (he ▸ hin)
    obtain ⟨hreceived, hsilent⟩ := h.unmade s hs
    refine ⟨?_, (hsaid s).trans hsilent⟩
    change t.received s ++ (if s = sid then _ else []) = []
    rw [if_neg hne, List.append_nil, hreceived]

theorem AllHeeded.create {sent : SessionId → List ClientPacket} (h : AllHeeded sent t w)
    {sock : Socket} {send recv : Block} (hfresh : sid ∉ w.allocated) :
    AllHeeded sent t ((w.createClient sock sid send recv).onConnect sid) := by
  obtain ⟨v, hv⟩ : ∃ v, v = (w.createClient sock sid send recv).onConnect sid := ⟨_, rfl⟩
  have hallocated : v.allocated = insert sid w.allocated := hv ▸ rfl
  rw [← hv]
  refine ⟨fun s hs => ?_, fun s hs => ?_⟩
  · by_cases he : s = sid
    · subst he
      obtain ⟨hreceived, hsaid⟩ := h.unmade s hfresh
      refine ⟨[], ⟨List.nil_prefix, ?_, hsaid⟩, [], ?_, List.nil_sublist _⟩
      · rw [hreceived, hv, created_sessions, if_pos rfl]
        exact (CircularBuffer.contents_new recv).symm
      · rw [hv, created_outgoing, if_pos rfl]
        rfl
    · rw [hallocated, Finset.mem_insert] at hs
      obtain ⟨handled, hh, hanswered⟩ := h.heeded s (hs.resolve_left he)
      refine ⟨handled, ⟨hh.first, ?_, hh.said⟩, hanswered.congr ?_⟩
      · rw [hv, created_sessions, if_neg he]
        exact hh.bytes
      · rw [hv, created_outgoing, if_neg he]
  · rw [hallocated, Finset.mem_insert, not_or] at hs
    exact h.unmade s hs.2

theorem Step.allHeeded {sent : SessionId → List ClientPacket} {c c' : Config ε} (hs : Step E c c')
    (hr : Reachable E Free c) (horder : E.argOrder = .sizeFirst) (hf : c.server.fault = none)
    (hf' : c'.server.fault = none)
    (hsent : ∀ s, t.received s <+: stream ClientPacket.toBytes (sent s))
    (h : AllHeeded sent t c.server) : AllHeeded sent (t.after E c) c'.server := by
  have hidle : ∀ {v v' : Server ε}, AllHeeded sent t v → Unread v v' →
      (∀ s ∈ v.allocated, v'.outgoing s = v.outgoing s) →
      AllHeeded sent (t.after E ⟨v, .idle⟩) v' := by
    intro v v' hv hu ho
    rw [Traffic.after_idle]
    exact hv.unread hu ho
  cases hs with
  | accept hfresh _ _ _ =>
    rw [Traffic.after_idle]
    exact h.create hfresh
  | @readable w sock =>
    rcases startReceive_cases w sock with ⟨sid, -, -, he⟩ | ⟨f, he⟩ | ⟨-, he⟩ <;>
      rw [he] <;>
      exact hidle h ⟨rfl, fun _ => rfl⟩ fun _ _ => rfl
  | receive => exact h.receive hr.buffered (hr.known.2 _ (Or.inl rfl)) horder
  | dispatch =>
    exact h.dispatch hf hr.buffered (hr.known.2 _ (Or.inr rfl)) hr.members_sized hf' (hsent _)
  | flush hflush =>
    exact hidle h ((unread_stable _).flushClientSend hflush ⟨rfl, fun _ => rfl⟩)
      (Mute.flushClientSend hr.buffered hflush hf').outgoing
  | startGameSession => exact hidle h ⟨rfl, fun _ => rfl⟩ fun _ _ => rfl
  | processTerminate => exact hidle h ⟨rfl, fun _ => rfl⟩ fun _ _ => rfl
  | outside _ => exact hidle h ⟨rfl, fun _ => rfl⟩ fun _ _ => rfl

/-- What was queued to a session stays queued. -/
theorem Step.outgoing_prefix {c c' : Config ε} (hs : Step E c c') (hr : Reachable E Free c)
    (hf : c.server.fault = none) (hf' : c'.server.fault = none) {s : SessionId}
    (hin : s ∈ c.server.allocated) :
    s ∈ c'.server.allocated ∧ c.server.outgoing s <+: c'.server.outgoing s := by
  have hmute : ∀ {v v' : Server ε}, Mute E v v' → s ∈ v.allocated →
      s ∈ v'.allocated ∧ v.outgoing s <+: v'.outgoing s := by
    intro v v' hm hin
    exact ⟨hm.allocated.symm ▸ hin, (hm.outgoing s hin).symm ▸ List.prefix_refl _⟩
  have hsame : s ∈ c.server.allocated ∧ c.server.outgoing s <+: c.server.outgoing s :=
    ⟨hin, List.prefix_refl _⟩
  cases hs with
  | @accept w sock sid send recv hfresh _ _ _ =>
    refine ⟨Finset.mem_insert_of_mem hin, ?_⟩
    have hne : s ≠ sid := fun he => hfresh (he ▸ hin)
    rw [created_outgoing, if_neg hne]
  | @readable w sock =>
    rcases startReceive_cases w sock with ⟨sid, -, -, he⟩ | ⟨f, he⟩ | ⟨-, he⟩ <;>
      rw [he] <;>
      exact hsame
  | receive => exact hmute (.receiveStep _ _) hin
  | @dispatch w sid =>
    have hrings := hr.buffered sid (hr.known.2 _ (Or.inr rfl))
    cases hn : nextFrame (w.sessions sid).mRecvBuffer with
    | parsed kind image b =>
      rw [dispatchStep_handles hn] at hf' ⊢
      dsimp only at hf' ⊢
      have hqueues := (handlePacket_handled hf hrings.2 hr.members_sized
        (parsed_length hrings.1.inv hn) hf').queues hf'
      obtain ⟨new, hnew, -⟩ := hqueues.outgoing s hin
      refine ⟨?_, ?_⟩
      · rw [hqueues.allocated]
        exact hin
      · rw [hnew]
        exact List.prefix_append _ _
    | _ => exact hmute (.unparsed fun kind image b => by simp [hn]) hin
  | flush hflush => exact hmute (.flushClientSend hr.buffered hflush hf') hin
  | startGameSession => exact hsame
  | processTerminate => exact hsame
  | outside _ => exact hsame

theorem Conversing.relaying {c : Config ε} (h : Conversing E t c) :
    Relaying E (t.said.map Prod.snd) c := by
  induction h with
  | init hw => exact .init hw
  | @step t c c' _ hf hs ih =>
    have hsaid : (t.after E c).said.map Prod.snd = t.said.map Prod.snd ++ c.broadcasts := by
      rw [← c.speaks_messages, ← List.map_append]
      rfl
    rw [hsaid]
    exact ih.step hf hs

theorem Reachable.conversing {c : Config ε} (h : Reachable E Free c) : ∃ t, Conversing E t c := by
  induction h with
  | init hw => exact ⟨_, .init hw⟩
  | step _ hf hs _ ih =>
    obtain ⟨t, hrun⟩ := ih
    exact ⟨_, hrun.step hf hs⟩

theorem allHeeded_of_run {c : Config ε} (h : Conversing E t c) (horder : E.argOrder = .sizeFirst)
    (hf : c.server.fault = none) {sent : SessionId → List ClientPacket}
    (hsent : ∀ s, t.received s <+: stream ClientPacket.toBytes (sent s)) :
    AllHeeded sent t c.server := by
  induction h with
  | init hw => exact ⟨fun s hs => absurd (hw.allocated ▸ hs) (Finset.notMem_empty s),
      fun _ _ => ⟨rfl, rfl⟩⟩
  | @step t c c' hrun hbefore hs ih =>
    have hsent' : ∀ s, t.received s <+: stream ClientPacket.toBytes (sent s) := fun s =>
      (List.prefix_append _ _).trans (hsent s)
    exact hs.allHeeded hrun.relaying.reachable horder hbefore hf hsent' (ih hbefore hsent')

theorem heard_of_run {c : Config ε} (h : Conversing E t c) (horder : E.argOrder = .sizeFirst)
    (hf : c.server.fault = none) {sent : SessionId → List ClientPacket}
    (hsent : ∀ s, t.received s <+: stream ClientPacket.toBytes (sent s)) :
    ∃ handled : SessionId → List ClientPacket,
      (∀ s ∈ c.server.allocated, Heeded (sent s) t c.server s (handled s)) ∧
      (∀ s ∉ c.server.allocated, handled s = []) ∧
      ∀ u ∈ c.server.allocated, ∃ packets heard, Speaks c.server u packets ∧ heard <+ t.said ∧
        relayed packets = heard.map Prod.snd ∧ ∀ s, (heard.filter fun m => m.1 = s).map Prod.snd <+
          (handled s).filterMap ClientPacket.broadcast := by
  have hall := allHeeded_of_run h horder hf hsent
  obtain ⟨hall', hsteps, hsaid, hshows⟩ := hall_of_run h.relaying hf
  have hhandled : ∀ s, ∃ handled, (s ∈ c.server.allocated → Heeded (sent s) t c.server s handled) ∧
      (s ∉ c.server.allocated → handled = []) ∧
      t.saidBy s = handled.filterMap ClientPacket.broadcast := by
    intro s
    by_cases hs : s ∈ c.server.allocated
    · obtain ⟨handled, hh, -⟩ := hall.heeded s hs
      exact ⟨handled, fun _ => hh, fun hout => absurd hs hout, hh.said⟩
    · exact ⟨[], fun hin => absurd hin hs, fun _ => rfl, (hall.unmade s hs).2⟩
  choose handled hheeded hnone hspoken using hhandled
  refine ⟨handled, hheeded, hnone, fun u hu => ?_⟩
  obtain ⟨packets, hspeaks, hheard, -⟩ := hshows.heard u hu
  have hordered := (OrderedBroadcast.ordered_empty.steps hsteps).sublist u
  rw [hsaid, ← hheard] at hordered
  obtain ⟨heard, hsub, he⟩ := List.sublist_map_iff.mp hordered
  refine ⟨packets, heard, hspeaks, hsub, he, fun s => ?_⟩
  rw [← hspoken s]
  exact (hsub.filter _).map _

theorem answered_of_run {c : Config ε} (h : Conversing E t c) (horder : E.argOrder = .sizeFirst)
    (hf : c.server.fault = none) {sent : SessionId → List ClientPacket}
    (hsent : ∀ s, t.received s <+: stream ClientPacket.toBytes (sent s)) {s : SessionId}
    (hs : s ∈ c.server.allocated) :
    ∃ handled packets, Heeded (sent s) t c.server s handled ∧ Speaks c.server s packets ∧
      packets.filterMap ServerPacket.greeting <+ handled.filterMap ClientPacket.login := by
  obtain ⟨handled, hheeded, packets, hbytes, hnames⟩ :=
    (allHeeded_of_run h horder hf hsent).heeded s hs
  obtain ⟨hall, -, -, hshows⟩ := hall_of_run h.relaying hf
  obtain ⟨others, hspeaks, -, -⟩ := hshows.heard s hs
  obtain rfl : packets = others :=
    ServerPacket.stream_unique (hbytes.symm.trans hspeaks.bytes)
  exact ⟨handled, packets, hheeded, hspeaks, hnames⟩

theorem joined_arrives (ids : List PlayerId) {bytes : List Byte} (hlen : bytes.length ≤ 4096)
    (s : SessionId) :
    Config.arrives playback ⟨joined ids [.data bytes], .receiving 0⟩ s =
      if s = 0 then bytes else [] := by
  have hroom := (CircularBuffer.inv_new zeroBlock).half_free zeroBlock_length
  rw [CircularBuffer.contents_new, List.length_nil] at hroom
  have hfit : bytes.length ≤ (CircularBuffer.new zeroBlock).getFreeSpaceSize.1 := by
    change _ ≤ (CircularBuffer.new zeroBlock).freeSpace
    omega
  rw [Config.arrives]
  change (if s = 0 then (match clip (CircularBuffer.new zeroBlock).getFreeSpaceSize.1
    (.data bytes) with | .data bytes => bytes | _ => []) else []) = _
  rw [clip, List.take_of_length_le hfit]

/-- One client connects, logs in, and has sent more together with its LOGIN. -/
theorem joined_conversing {c : Byte} (hc : c ≠ 0) (more : List Byte) (hmore : more.length ≤ 3000) :
    ∃ t w, Conversing playback t ⟨w, .dispatching 0⟩ ∧
      Seat w (Seat.loggedIn .initialized c) (Seat.activated (launched [[c]] []).env c) true [c] more
        132 ∧
      w.accepted 0 = [] ∧
      ∀ s, t.received s = if s = 0 then (loginRequest c).toBytes ++ more else [] := by
  obtain ⟨bytes, hbytes⟩ : ∃ bytes, bytes = (loginRequest c).toBytes ++ more := ⟨_, rfl⟩
  have hlen : bytes.length ≤ 4096 := by
    rw [hbytes, List.length_append, loginRequest_length]
    omega
  have hinit : Conversing playback .none ⟨launched [[c]] [.data bytes], .idle⟩ :=
    .init (launched_initial (playback_starts _ _))
  have haccept : Step playback ⟨launched [[c]] [.data bytes], .idle⟩
      ⟨joined [[c]] [.data bytes], .idle⟩ := by
    refine .accept (Finset.notMem_empty 0) ?_ zeroBlock_length zeroBlock_length
    rintro s (h | ⟨k, h, -⟩) <;> cases h
  have hready : (joined [[c]] [.data bytes]).startReceive 5 =
      ⟨joined [[c]] [.data bytes], .receiving 0⟩ := rfl
  have hreadable : Step playback ⟨joined [[c]] [.data bytes], .idle⟩
      ⟨joined [[c]] [.data bytes], .receiving 0⟩ := hready ▸ .readable
  obtain ⟨v, hrecv, hv⟩ := joined_receive [[c]] hlen
  have hreserved : (launched [[c]] []).env.status [c] = .reserved :=
    if_pos (List.mem_singleton_self _)
  have hfront := hv
  rw [hbytes] at hfront
  obtain ⟨w, hstep, hw⟩ := hfront.login_live hc hreserved (Nat.zero_le _)
  have hread : Step playback ⟨joined [[c]] [.data bytes], .receiving 0⟩ ⟨v, .dispatching 0⟩ :=
    hrecv ▸ .receive
  have hhandle : Step playback ⟨v, .dispatching 0⟩ ⟨w, .dispatching 0⟩ := hstep ▸ .dispatch
  have hopen := (hinit.step rfl haccept).step rfl hreadable
  refine ⟨_, w, (hopen.step rfl hread).step hv.fault hhandle, hw, ?_, fun s => ?_⟩
  · have hreceived := (Apart.receiveStep (E := playback) (joined [[c]] [.data bytes]) 0).accepted
    have hhandled := dispatchStep_accepted (E := playback) v 0
    rw [hrecv] at hreceived
    rw [hstep] at hhandled
    exact congrFun (hhandled.trans hreceived) 0
  · rw [Traffic.after_idle, Traffic.after_idle, ← hbytes]
    change ([] ++ Config.arrives playback ⟨joined [[c]] _, .receiving 0⟩ s) ++ [] = _
    rw [List.append_nil, List.nil_append, joined_arrives _ hlen]

/-- The server has handled the client's LOGIN and the move behind it. -/
theorem moved_conversing {c : Byte} (hc : c ≠ 0) {p : ClientPacket} (hp : p.kind = .move) :
    ∃ t w, Conversing playback t ⟨w, .dispatching 0⟩ ∧
      Seat w (Seat.loggedIn .initialized c) (Seat.activated (launched [[c]] []).env c) true [c] []
        148 ∧
      w.accepted 0 = [] ∧
      ∀ s, t.received s = if s = 0 then (loginRequest c).toBytes ++ p.toBytes else [] := by
  have hshort : (p.toBytes ++ []).length ≤ 3000 := by
    rw [List.append_nil, p.length_toBytes, hp]
    decide
  obtain ⟨t, w, hrun, hw, hnone, hreceived⟩ := joined_conversing hc _ hshort
  obtain ⟨w', hstep, hw'⟩ := hw.move_live hp rfl (by omega)
  have hhandle : Step playback ⟨w, .dispatching 0⟩ ⟨w', .dispatching 0⟩ := hstep ▸ .dispatch
  refine ⟨_, w', hrun.step hw.fault hhandle, hw', ?_, fun s => ?_⟩
  · have hhandled := dispatchStep_accepted (E := playback) w 0
    rw [hstep] at hhandled
    exact (congrFun hhandled 0).trans hnone
  · rw [List.append_nil] at hreceived
    exact (List.append_nil _).trans (hreceived s)

/-- The client has nothing more to say, and what waits for it is flushed. -/
theorem Conversing.flushed {w : Server Playback} {m : GameLiftManager} {e : Playback}
    {id : PlayerId} {n : Nat} (h : Conversing playback t ⟨w, .dispatching 0⟩)
    (hw : Seat w m e true id [] n) (hreads : e.reads = []) (hnone : w.accepted 0 = []) :
    ∃ t' w', Conversing playback t' ⟨w', .idle⟩ ∧ t'.received = t.received ∧ w'.fault = none ∧
      0 ∈ w'.allocated ∧ w'.accepted 0 = w'.outgoing 0 ∧ (w'.accepted 0).length = n := by
  have hwaits : Step playback ⟨w, .dispatching 0⟩ ⟨w, .receiving 0⟩ := hw.waits ▸ .dispatch
  obtain ⟨v, hdrained, hv⟩ := hw.drained hreads
  have hidle : Step playback ⟨w, .receiving 0⟩ ⟨v, .idle⟩ := hdrained ▸ .receive
  have hrun := (h.step hw.fault hwaits).step hw.fault hidle
  have hreach := hrun.relaying.reachable
  obtain ⟨fuel, w', hflush, hbrought, htook⟩ :=
    (Flushable.of_reachable hreach hv.fault).delivers (Table.of_reachable hreach hv.fault)
      (allTaken_of_sent (E := playback) (fun _ data _ => ⟨data.length, rfl⟩) v _)
  have hin : 0 ∈ v.allocated := (Table.of_reachable hreach hv.fault).enrolled 0 hv.connected |>.1
  have haccepted := (Apart.receiveStep (E := playback) w 0).accepted
  rw [hdrained] at haccepted
  have hquiet : ∀ s, Config.arrives playback ⟨w, .receiving 0⟩ s = [] := by
    intro s
    rw [Config.arrives]
    dsimp only
    simp only [playback, hw.env, hreads, ite_self]
  have houtgoing : (v.outgoing 0).length = n := by
    rw [outgoing, haccepted, hnone, List.nil_append, hv.waiting]
  refine ⟨_, w', hrun.step hv.fault (.flush hflush), ?_, hbrought.flushable.fault,
    hbrought.allocated ▸ hin, ?_, ?_⟩
  · funext s
    rw [Traffic.after_idle]
    change (t.received s ++ []) ++ Config.arrives playback ⟨w, .receiving 0⟩ s = _
    rw [hquiet, List.append_nil, List.append_nil]
  · rw [htook 0 hv.connected, hbrought.outgoing 0 hin]
  · rw [htook 0 hv.connected, houtgoing]

theorem ServerPacket.dvd_length_logins {packets : List ServerPacket} (h : relayed packets = []) :
    132 ∣ (stream toBytes packets).length := by
  induction packets with
  | nil => exact Nat.dvd_zero 132
  | cons p packets ih =>
    have hsplit : relayed (p :: packets) = relayed [p] ++ relayed packets :=
      relayed_append [p] packets
    rw [hsplit, List.append_eq_nil_iff] at h
    by_cases hp : p.kind = .login
    · have hlen := p.length_toBytes
      rw [hp] at hlen
      rw [Framing.stream_cons, List.length_append, hlen]
      exact Nat.dvd_add (Nat.dvd_refl 132) (ih h.2)
    · rw [relayed_broadcast hp] at h
      exact absurd h.1 (List.cons_ne_nil _ _)

/-- Whom the server has sent anything, it has greeted. -/
theorem Server.Speaks.greeted {packets : List ServerPacket} {s : SessionId}
    (h : Speaks w s packets) (hsome : w.outgoing s ≠ []) :
    packets.filterMap ServerPacket.greeting ≠ [] := by
  cases packets with
  | nil => exact absurd h.bytes hsome
  | cons p packets =>
    have hkind := h.login p rfl
    have hterm := h.terminated p List.mem_cons_self
    rw [ServerPacket.Terminated, hkind] at hterm
    obtain ⟨name, hname⟩ := Option.isSome_iff_exists.mp hterm
    have hgreeting : p.greeting = some name := by
      rw [ServerPacket.greeting, if_pos hkind, hname]
    rw [List.filterMap_cons_some hgreeting]
    exact List.cons_ne_nil _ _

/-- Where the sockets deliver whole packets and parts of one, the server has handled the
first packets of every session and broadcast its CHATs and MOVEs among them in order.
Besides LoginResults a session is queued some of these broadcasts, those of each sender
in the order in which it sent them. -/
theorem broadcast_in_sender_order (E : Env ε) (horder : E.argOrder = .sizeFirst) (t : Traffic)
    (c : Config ε) (h : Conversing E t c) (hf : c.server.fault = none)
    (sent : SessionId → List ClientPacket)
    (hsent : ∀ s, t.received s <+: stream ClientPacket.toBytes (sent s)) :
    ∃ handled : SessionId → List ClientPacket,
      (∀ s ∈ c.server.allocated, Heeded (sent s) t c.server s (handled s)) ∧
      ∀ u ∈ c.server.allocated, ∃ packets heard, Speaks c.server u packets ∧ heard <+ t.said ∧
        relayed packets = heard.map Prod.snd ∧ ∀ s, (heard.filter fun m => m.1 = s).map Prod.snd <+
          (handled s).filterMap ClientPacket.broadcast := by
  obtain ⟨handled, hheeded, -, hheard⟩ := heard_of_run h horder hf hsent
  exact ⟨handled, hheeded, hheard⟩

theorem broadcast_in_sender_order_move :
    ∃ t w handled packets heard, Conversing playback t ⟨w, .dispatching 0⟩ ∧
      Heeded [loginRequest 7, moveRequest] t w 0 handled ∧ Speaks w 0 packets ∧
      relayed packets = heard.map Prod.snd ∧ heard ≠ [] ∧
      (heard.filter fun m => m.1 = 0).map Prod.snd <+ handled.filterMap ClientPacket.broadcast := by
  obtain ⟨t, w, hrun, hw, hnone, hreceived⟩ :=
    moved_conversing (c := 7) (by decide) (p := moveRequest) rfl
  have hin : 0 ∈ w.allocated := hrun.relaying.reachable.known.2 0 (Or.inr rfl)
  obtain ⟨handled, hheeded, hheard⟩ := broadcast_in_sender_order playback rfl t _ hrun hw.fault
    (fun s => if s = 0 then [loginRequest 7, moveRequest] else []) fun s => by
      rw [hreceived]
      split_ifs
      · exact ⟨[], rfl⟩
      · exact List.nil_prefix
  obtain ⟨packets, heard, hspeaks, -, hrelayed, hsenders⟩ := hheard 0 hin
  refine ⟨t, w, handled 0, packets, heard, hrun, hheeded 0 hin, hspeaks, hrelayed, ?_, hsenders 0⟩
  rintro rfl
  have hdvd := ServerPacket.dvd_length_logins hrelayed
  rw [← hspeaks.bytes, outgoing, hnone, List.nil_append, hw.waiting] at hdvd
  exact absurd hdvd (by decide)

/-- The LoginResults queued to a session answer LOGINs that it sent and the server has
handled: each answers one of them, in their order and with the name given there. -/
theorem logins_answered_in_order (E : Env ε) (horder : E.argOrder = .sizeFirst) (t : Traffic)
    (c : Config ε) (h : Conversing E t c) (hf : c.server.fault = none)
    (sent : SessionId → List ClientPacket)
    (hsent : ∀ s, t.received s <+: stream ClientPacket.toBytes (sent s))
    (s : SessionId) (hs : s ∈ c.server.allocated) :
    ∃ handled packets, Heeded (sent s) t c.server s handled ∧ Speaks c.server s packets ∧
      packets.filterMap ServerPacket.greeting <+ handled.filterMap ClientPacket.login :=
  answered_of_run h horder hf hsent hs

theorem logins_answered_in_order_login :
    ∃ t w handled packets, Conversing playback t ⟨w, .dispatching 0⟩ ∧
      Heeded [loginRequest 7] t w 0 handled ∧ Speaks w 0 packets ∧
      packets.filterMap ServerPacket.greeting ≠ [] ∧
      packets.filterMap ServerPacket.greeting <+ handled.filterMap ClientPacket.login := by
  obtain ⟨t, w, hrun, hw, hnone, hreceived⟩ :=
    joined_conversing (c := 7) (by decide) [] (Nat.zero_le _)
  have hin : 0 ∈ w.allocated := hrun.relaying.reachable.known.2 0 (Or.inr rfl)
  have hsent : ∀ s, t.received s <+:
      stream ClientPacket.toBytes (if s = 0 then [loginRequest 7] else []) := by
    intro s
    rw [hreceived]
    split_ifs
    · exact ⟨[], rfl⟩
    · exact List.nil_prefix
  obtain ⟨handled, packets, hheeded, hspeaks, hnames⟩ := logins_answered_in_order playback rfl t _
    hrun hw.fault (fun s => if s = 0 then [loginRequest 7] else []) hsent 0 hin
  refine ⟨t, w, handled, packets, hrun, hheeded, hspeaks, hspeaks.greeted fun hnil => ?_, hnames⟩
  have hlen := congrArg List.length hnil
  rw [outgoing, hnone, List.nil_append, hw.waiting] at hlen
  cases hlen

end GameLift
