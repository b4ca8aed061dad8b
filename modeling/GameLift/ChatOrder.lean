import GameLift.ServerStream

/-! The Linux server as a hall: its connected members are those present, and what a
session hears is what the server has queued to it besides LoginResults. -/

namespace GameLift

open Framing (stream)
open OrderedBroadcast (Hall Steps)
open ServerPacket (relayed)
open scoped List

namespace Server

variable {ε : Type}

/-- The stream of `s` consists of these packets, all readable and a LoginResult first. -/
structure Speaks (w : Server ε) (s : SessionId) (packets : List ServerPacket) : Prop where
  bytes : w.outgoing s = stream ServerPacket.toBytes packets
  terminated : ∀ p ∈ packets, p.Terminated
  login : ∀ p ∈ packets.head?, p.kind = .login

structure Shows (E : Env ε) (w : Server ε) (h : Hall SessionId (List Byte)) : Prop where
  present : ∀ s, s ∈ h.present ↔ Listening w s
  heard : ∀ s ∈ w.allocated, ∃ packets, Speaks w s packets ∧ relayed packets = h.heard s ∧
    (Listening w s → packets ≠ [])
  members : w.gameLift.mPlayerSessions ⊆ w.allocated
  unmade : ∀ s ∉ w.allocated, h.heard s = []
  fresh : E.Lingers → ∀ s, (w.sessions s).mConnected = true →
    s ∉ w.gameLift.mPlayerSessions → h.heard s = []

/-- Whatever hall `w` shows, some way of running it leads to one that `w'` shows, and
`messages` is what was said on it. -/
def Simulates (E : Env ε) (messages : List (List Byte)) (w w' : Server ε) : Prop :=
  ∀ h, Shows E w h → ∃ h', Steps E.Lingers h h' ∧ h'.said = h.said ++ messages ∧ Shows E w' h'

variable {E : Env ε} {u v w w' : Server ε} {sid : SessionId} {p : ServerPacket}

theorem Simulates.trans {said said' : List (List Byte)} (h : Simulates E said w v)
    (h' : Simulates E said' v u) : Simulates E (said ++ said') w u := by
  intro hall hshows
  obtain ⟨hall₁, hsteps₁, hsaid₁, hshows₁⟩ := h hall hshows
  obtain ⟨hall₂, hsteps₂, hsaid₂, hshows₂⟩ := h' hall₁ hshows₁
  refine ⟨hall₂, hsteps₁.trans hsteps₂, ?_, hshows₂⟩
  rw [hsaid₂, hsaid₁, List.append_assoc]

theorem Speaks.congr {packets : List ServerPacket} {s : SessionId} (h : Speaks w s packets)
    (ho : w'.outgoing s = w.outgoing s) : Speaks w' s packets :=
  ⟨ho.trans h.bytes, h.terminated, h.login⟩

theorem Speaks.append {packets : List ServerPacket} {s : SessionId} (h : Speaks w s packets)
    (ho : w'.outgoing s = w.outgoing s ++ p.toBytes) (hterm : p.Terminated)
    (hfirst : packets = [] → p.kind = .login) : Speaks w' s (packets ++ [p]) where
  bytes := by
    rw [ho, h.bytes, Framing.stream_append, Framing.stream_cons]
    exact congrArg _ (List.append_nil _).symm
  terminated q hq := by
    rcases List.mem_append.mp hq with hq | hq
    · exact h.terminated q hq
    · exact List.mem_singleton.mp hq ▸ hterm
  login q hq := by
    cases packets with
    | nil =>
      cases hq
      exact hfirst rfl
    | cons r rs => exact h.login q hq

theorem Mute.listening (h : Mute E w w') {s : SessionId} (hs : Listening w' s) : Listening w s :=
  ⟨h.members hs.1, h.connected s hs.2⟩

theorem Mute.simulates (h : Mute E w w') : Simulates E [] w w' := by
  intro hall hshows
  refine ⟨{ hall with present := fun s => Listening w' s }, .single (.leave ?_),
    (List.append_nil _).symm, ⟨fun s => Iff.rfl, ?_, ?_, ?_, ?_⟩⟩
  · intro s hs
    exact (hshows.present s).mpr (h.listening hs)
  · intro s hs
    rw [h.allocated] at hs
    obtain ⟨packets, hspeaks, hheard, hgreeted⟩ := hshows.heard s hs
    exact ⟨packets, hspeaks.congr (h.outgoing s hs), hheard, fun hl => hgreeted (h.listening hl)⟩
  · rw [h.allocated]
    exact h.members.trans hshows.members
  · rw [h.allocated]
    exact hshows.unmade
  · intro hl s hopen hout
    by_cases hin : s ∈ w.gameLift.mPlayerSessions
    · rw [h.gone hl s hin hout] at hopen
      cases hopen
    · exact hshows.fresh hl s (h.connected s hopen) hin

theorem Greets.simulates (h : Greets w w' sid p) : Simulates E [] w w' := by
  intro hall hshows
  have hlistening : ∀ s, Listening w' s ↔ Listening w s := by
    intro s
    rw [Listening, Listening, h.members, h.connected]
  refine ⟨hall, .refl, (List.append_nil _).symm, fun s => ?_, fun s hs => ?_, ?_, ?_, ?_⟩
  · rw [hlistening]
    exact hshows.present s
  · rw [h.allocated] at hs
    obtain ⟨packets, hspeaks, hheard, hgreeted⟩ := hshows.heard s hs
    have hout := h.outgoing s
    split_ifs at hout with he
    · refine ⟨packets ++ [p], hspeaks.append hout h.terminated fun _ => h.kind, ?_, fun _ => ?_⟩
      · rw [ServerPacket.relayed_append, ServerPacket.relayed_login h.kind, List.append_nil, hheard]
      · exact List.append_ne_nil_of_right_ne_nil _ (List.cons_ne_nil _ _)
    · exact ⟨packets, hspeaks.congr hout, hheard, fun hl => hgreeted ((hlistening s).mp hl)⟩
  · rw [h.members, h.allocated]
    exact hshows.members
  · rw [h.allocated]
    exact hshows.unmade
  · intro hl s hopen hout
    rw [h.connected] at hopen
    rw [h.members] at hout
    exact hshows.fresh hl s hopen hout

theorem Enters.simulates (h : Enters w w' sid) (hin : sid ∈ w.allocated)
    (hgreeted : (w.sessions sid).mConnected = true → w.outgoing sid ≠ []) :
    Simulates E [] w w' := by
  intro hall hshows
  have hlistening : ∀ s, Listening w' s ↔
      Listening w s ∨ s = sid ∧ (w.sessions sid).mConnected = true := by
    intro s
    rw [Listening, Listening, h.members, h.connected, Finset.mem_insert]
    constructor
    · rintro ⟨rfl | hs, hc⟩
      · exact Or.inr ⟨rfl, hc⟩
      · exact Or.inl ⟨hs, hc⟩
    · rintro (⟨hs, hc⟩ | ⟨rfl, hc⟩)
      · exact ⟨Or.inr hs, hc⟩
      · exact ⟨Or.inl rfl, hc⟩
  have hrest : ∀ hall' : Hall SessionId (List Byte), hall'.heard = hall.heard →
      (∀ s, s ∈ hall'.present ↔ Listening w' s) → Shows E w' hall' := by
    intro hall' hheard' hpresent
    refine ⟨hpresent, fun s hs => ?_, ?_, ?_, ?_⟩
    · rw [h.allocated] at hs
      obtain ⟨packets, hspeaks, hheard, hnonempty⟩ := hshows.heard s hs
      refine ⟨packets, hspeaks.congr (h.outgoing s), hheard.trans (hheard' ▸ rfl), fun hl => ?_⟩
      rcases (hlistening s).mp hl with hl | ⟨rfl, hc⟩
      · exact hnonempty hl
      · rintro rfl
        exact hgreeted hc hspeaks.bytes
    · rw [h.members, h.allocated]
      exact Finset.insert_subset hin hshows.members
    · rw [h.allocated, hheard']
      exact hshows.unmade
    · intro hl s hopen hout
      rw [h.connected] at hopen
      rw [h.members, Finset.mem_insert, not_or] at hout
      rw [hheard']
      exact hshows.fresh hl s hopen hout.2
  by_cases hnew : (w.sessions sid).mConnected = true ∧ sid ∉ w.gameLift.mPlayerSessions
  · refine ⟨{ hall with present := insert sid hall.present }, .single (.enter fun hl => ?_),
      (List.append_nil _).symm, hrest _ rfl fun s => ?_⟩
    · exact hshows.fresh hl sid hnew.1 hnew.2
    · rw [hlistening, Set.mem_insert_iff, hshows.present]
      constructor
      · rintro (rfl | hl)
        · exact Or.inr ⟨rfl, hnew.1⟩
        · exact Or.inl hl
      · rintro (hl | ⟨rfl, -⟩)
        · exact Or.inr hl
        · exact Or.inl rfl
  · refine ⟨hall, .refl, (List.append_nil _).symm, hrest _ rfl fun s => ?_⟩
    rw [hlistening, hshows.present]
    constructor
    · exact Or.inl
    · rintro (hl | ⟨rfl, hc⟩)
      · exact hl
      · exact ⟨by_contra fun hout => hnew ⟨hc, hout⟩, hc⟩

theorem Spreads.simulates (h : Spreads E w w' p) : Simulates E [p.toBytes] w w' := by
  intro hall hshows
  have hlistening : ∀ s, Listening w' s → Listening w s := by
    intro s hs
    exact ⟨h.members ▸ hs.1, h.connected s hs.2⟩
  have hunlike : ∀ s, w.outgoing s ++ p.toBytes ≠ w.outgoing s := by
    intro s he
    exact p.toBytes_ne_nil (List.append_right_eq_self.mp he)
  obtain ⟨hall', he⟩ : ∃ hall' : Hall SessionId (List Byte), hall' =
      ⟨hall.said ++ [p.toBytes], fun s => if w'.outgoing s = w.outgoing s then hall.heard s
        else hall.heard s ++ [p.toBytes], fun s => Listening w' s⟩ := ⟨_, rfl⟩
  have hsame : ∀ s, w'.outgoing s = w.outgoing s → hall'.heard s = hall.heard s := by
    intro s hs
    rw [he]
    exact if_pos hs
  have hmore : ∀ s, w'.outgoing s = w.outgoing s ++ p.toBytes →
      hall'.heard s = hall.heard s ++ [p.toBytes] := by
    intro s hs
    rw [he]
    exact if_neg (by rw [hs]; exact hunlike s)
  have hpresent : ∀ s, s ∈ hall'.present ↔ Listening w' s := by
    intro s
    rw [he]
    rfl
  refine ⟨hall', .single (.say (m := p.toBytes) (by rw [he]) (fun s hs => ?_) (fun s => ?_)
    fun hl s hs => ?_), by rw [he], hpresent, fun s hs => ?_, ?_, fun s hs => ?_, ?_⟩
  · exact (hshows.present s).mpr (hlistening s ((hpresent s).mp hs))
  · rcases h.outgoing s with hs | ⟨hl, hs⟩
    · exact Or.inl (hsame s hs)
    · exact Or.inr ⟨(hshows.present s).mpr hl, hmore s hs⟩
  · exact hmore s (h.missed hl s ((hpresent s).mp hs))
  · rw [h.allocated] at hs
    obtain ⟨packets, hspeaks, hheard, hgreeted⟩ := hshows.heard s hs
    rcases h.outgoing s with ho | ⟨hl, ho⟩
    · exact ⟨packets, hspeaks.congr ho, hheard.trans (hsame s ho).symm,
        fun hl => hgreeted (hlistening s hl)⟩
    · refine ⟨packets ++ [p], hspeaks.append ho h.terminated fun hnil => absurd hnil (hgreeted hl),
        ?_, fun _ => List.append_ne_nil_of_right_ne_nil _ (List.cons_ne_nil _ _)⟩
      rw [ServerPacket.relayed_append, ServerPacket.relayed_broadcast h.kind, hheard, hmore s ho]
  · rw [h.members, h.allocated]
    exact hshows.members
  · rw [h.allocated] at hs
    rcases h.outgoing s with ho | ⟨hl, -⟩
    · exact (hsame s ho).trans (hshows.unmade s hs)
    · exact absurd (hshows.members hl.1) hs
  · intro hl s hopen hout
    rw [h.members] at hout
    rcases h.outgoing s with ho | ⟨hlisten, -⟩
    · exact (hsame s ho).trans (hshows.fresh hl s (h.connected s hopen) hout)
    · exact absurd hlisten.1 hout

theorem created_simulates {sock : Socket} {send recv : Block} (hfresh : sid ∉ w.allocated) :
    Simulates E [] w ((w.createClient sock sid send recv).onConnect sid) := by
  intro hall hshows
  obtain ⟨v, hv⟩ : ∃ v, v = (w.createClient sock sid send recv).onConnect sid := ⟨_, rfl⟩
  have hmembers : v.gameLift.mPlayerSessions = w.gameLift.mPlayerSessions := hv ▸ rfl
  have hallocated : v.allocated = insert sid w.allocated := hv ▸ rfl
  have hout : sid ∉ w.gameLift.mPlayerSessions := fun h => hfresh (hshows.members h)
  have hold : ∀ s ≠ sid, v.sessions s = w.sessions s ∧ v.outgoing s = w.outgoing s := by
    intro s hs
    exact ⟨by rw [hv, created_sessions, if_neg hs], by rw [hv, created_outgoing, if_neg hs]⟩
  have hlistening : ∀ s, Listening v s ↔ Listening w s := by
    intro s
    rw [Listening, Listening, hmembers]
    by_cases hs : s = sid
    · subst hs
      exact ⟨fun h => absurd h.1 hout, fun h => absurd h.1 hout⟩
    · rw [(hold s hs).1]
  rw [← hv]
  refine ⟨hall, .refl, (List.append_nil _).symm, fun s => ?_, fun s hs => ?_, ?_, fun s hs => ?_,
    fun hl s hopen hnot => ?_⟩
  · rw [hlistening]
    exact hshows.present s
  · rw [hallocated, Finset.mem_insert] at hs
    by_cases he : s = sid
    · subst he
      have hempty : v.outgoing s = [] := by rw [hv, created_outgoing, if_pos rfl]
      refine ⟨[], ⟨hempty, fun q hq => absurd hq List.not_mem_nil, fun q hq => by cases hq⟩,
        (hshows.unmade s hfresh).symm, fun hl => absurd hl.1 (hmembers ▸ hout)⟩
    · obtain ⟨packets, hspeaks, hheard, hgreeted⟩ := hshows.heard s (hs.resolve_left he)
      exact ⟨packets, hspeaks.congr (hold s he).2, hheard, fun hl => hgreeted ((hlistening s).mp hl)⟩
  · rw [hmembers, hallocated]
    exact hshows.members.trans (Finset.subset_insert ..)
  · rw [hallocated, Finset.mem_insert, not_or] at hs
    exact hshows.unmade s hs.2
  · by_cases he : s = sid
    · exact hshows.unmade s (he ▸ hfresh)
    · rw [(hold s he).1] at hopen
      exact hshows.fresh hl s hopen (hmembers ▸ hnot)

theorem playerLogin_simulates {id : PlayerId} (hw : w.fault = none) (hin : sid ∈ w.allocated)
    (hs : (w.sessions sid).mSendBuffer.Sized) (hid : 0 ∉ id)
    (hf : (w.playerLogin E sid id).fault = none) : Simulates E [] w (w.playerLogin E sid id) := by
  rcases playerLogin_effect hw hs hid hf with
    hmute | ⟨v, p, -, hgreets, henters⟩ | ⟨v, hgreeted, henters, hmute⟩
  · exact hmute.simulates
  · have hnonempty : v.outgoing sid ≠ [] := by
      rw [hgreets.outgoing, if_pos rfl]
      exact List.append_ne_nil_of_right_ne_nil _ p.toBytes_ne_nil
    exact hgreets.simulates.trans
      (henters.simulates (hgreets.allocated.symm ▸ hin) fun _ => hnonempty)
  · exact (henters.simulates hin hgreeted).trans hmute.simulates

/-- A handler that broadcasts nothing either logs its session in or only lets go. -/
theorem handlePacket_quiet {kind : Request} {image : List Byte}
    (hnone : broadcastOf kind image = none)
    (hf : (handlePacket E sid kind image w).fault = none) :
    (∃ id, kind = .login ∧ cString (imagePlayerId image) = some id ∧
      handlePacket E sid kind image w = w.playerLogin E sid id) ∨
    Mute E w (handlePacket E sid kind image w) := by
  have hraise : (w.raise .outOfBounds).fault ≠ none := raise_fault w _
  unfold handlePacket at hf ⊢
  cases kind with
  | login =>
    dsimp only at hf ⊢
    cases hid : cString (imagePlayerId image) with
    | none =>
      rw [hid] at hf
      exact absurd hf hraise
    | some id => exact Or.inl ⟨id, rfl, rfl, rfl⟩
  | exit =>
    dsimp only at hf ⊢
    cases hid : cString (imagePlayerId image) with
    | none =>
      rw [hid] at hf
      exact absurd hf hraise
    | some id => exact Or.inr (Mute.playerLogout w sid id)
  | move => cases hnone
  | chat =>
    rw [broadcastOf] at hnone
    dsimp only at hf ⊢
    cases hid : cString (imagePlayerId image) with
    | none =>
      simp only [hid] at hf
      exact absurd hf hraise
    | some id =>
      cases hchat : cString (imageChat image) with
      | none =>
        simp only [hid, hchat] at hf
        exact absurd hf hraise
      | some chat =>
        simp only [hid, hchat] at hnone hf ⊢
        cases hc : chatBroadcastResult id chat with
        | error f =>
          rw [hc] at hf
          exact absurd hf (raise_fault w f)
        | ok pkt =>
          rw [hc] at hnone
          cases hnone

theorem Mute.unparsed
    (hn : ∀ kind image b, nextFrame (w.sessions sid).mRecvBuffer ≠ .parsed kind image b) :
    Mute E w (Server.dispatchStep E sid w).server := by
  have hrefl : Mute E w w := .refl w
  refine dispatchStep_of_body hrefl ?_
  rw [Receiver.dispatchBody]
  cases hf : nextFrame ((receiver E sid).mRecvBuffer w) with
  | wait => exact hrefl
  | invalidType => exact hrefl.disconnect sid
  | unregistered => exact hrefl.disconnect sid
  | parseError k => exact hrefl
  | parsed kind image b => exact absurd hf (hn kind image b)
  | fault f => exact hrefl.raise f

/-- What a packet of `sid` that was whole has done. -/
inductive Handled (E : Env ε) (sid : SessionId) (w w' : Server ε) (kind : Request)
    (image : List Byte) : Prop where
  | quiet : broadcastOf kind image = none → Mute E w w' → Handled E sid w w' kind image
  | login {v : Server ε} {id : PlayerId} : kind = .login →
      cString (imagePlayerId image) = some id → Mute E w v → v.fault = none →
      (v.sessions sid).mSendBuffer.Sized → w' = v.playerLogin E sid id →
      Handled E sid w w' kind image
  | broadcast {v : Server ε} {p : ServerPacket} : broadcastOf kind image = some p.toBytes →
      Mute E w v → Spreads E v w' p → Handled E sid w w' kind image

theorem handlePacket_handled {kind : Request} {image : List Byte} {b : CircularBuffer}
    (hw : w.fault = none) (hs : (w.sessions sid).mSendBuffer.Sized)
    (hm : ∀ s ∈ w.gameLift.mPlayerSessions, (w.sessions s).mSendBuffer.Sized)
    (hlen : image.length = kind.structSize)
    (hf : (handlePacket E sid kind image (w.setRecv sid b)).fault = none) :
    Handled E sid w (handlePacket E sid kind image (w.setRecv sid b)) kind image := by
  have hrecv : Mute E w (w.setRecv sid b) := .setRecv ..
  cases hof : broadcastOf kind image with
  | none =>
    rcases handlePacket_quiet hof hf with ⟨id, hkind, hid, he⟩ | hmute
    · refine .login hkind hid hrecv hw ?_ he
      rw [setRecv_send]
      exact hs
    · exact .quiet hof (hrecv.trans hmute)
  | some pkt =>
    obtain ⟨p, rfl, hkind, hterm⟩ := broadcastOf_server hlen hof
    rw [handlePacket_broadcast hof] at hf ⊢
    refine .broadcast hof hrecv (broadcastMessage_spreads hkind hterm (fun s hin => ?_) hf)
    rw [setRecv_send]
    exact hm s hin

theorem Handled.simulates {kind : Request} {image : List Byte}
    (h : Handled E sid w w' kind image) (hin : sid ∈ w.allocated) (hf : w'.fault = none) :
    Simulates E (broadcastOf kind image).toList w w' := by
  cases h with
  | quiet hnone hmute =>
    rw [hnone]
    exact hmute.simulates
  | login hkind hid hmute hv hs he =>
    subst hkind he
    exact hmute.simulates.trans
      (playerLogin_simulates hv (hmute.allocated.symm ▸ hin) hs (cString_nonzero hid) hf)
  | broadcast hof hmute hspreads =>
    rw [hof]
    exact hmute.simulates.trans hspreads.simulates

theorem parsed_length {kind : Request} {image : List Byte} {b : CircularBuffer}
    (h : (w.sessions sid).mRecvBuffer.Inv)
    (hn : nextFrame (w.sessions sid).mRecvBuffer = .parsed kind image b) :
    image.length = kind.structSize := by
  have hframe : frameOf (w.sessions sid).mRecvBuffer.contents = .parsed kind image b.contents := by
    rw [← h.nextFrame_spec.1, hn]
    rfl
  obtain ⟨hle, himage, -⟩ := frameOf_parsed hframe
  rw [himage, List.length_take, Nat.min_eq_left hle]

theorem dispatchStep_simulates (hw : w.fault = none) (hb : w.Buffered) (hin : sid ∈ w.allocated)
    (hm : ∀ s ∈ w.gameLift.mPlayerSessions, (w.sessions s).mSendBuffer.Sized)
    (hf : (dispatchStep E sid w).server.fault = none) :
    Simulates E (w.nextBroadcast sid).toList w (dispatchStep E sid w).server := by
  rw [nextBroadcast]
  cases hn : nextFrame (w.sessions sid).mRecvBuffer with
  | parsed kind image b =>
    rw [dispatchStep_handles hn] at hf ⊢
    exact (handlePacket_handled hw (hb sid hin).2 hm (parsed_length (hb sid hin).1.inv hn) hf).simulates
      hin hf
  | _ => exact (Mute.unparsed fun kind image b => by simp [hn]).simulates

end Server

open Server

variable {ε : Type} {E : Env ε}

/-- What the next step of the machine gives to `BroadcastMessage`. -/
def Config.broadcasts (c : Config ε) : List (List Byte) :=
  match c.control with
  | .dispatching sid => (c.server.nextBroadcast sid).toList
  | _ => []

/-- Runs of the server with the packets broadcast on them. -/
inductive Relaying (E : Env ε) : List (List Byte) → Config ε → Prop where
  | init {w} : Initial E w → Relaying E [] ⟨w, .idle⟩
  | step {said c c'} : Relaying E said c → c.server.fault = none → Step E c c' →
      Relaying E (said ++ c.broadcasts) c'

theorem Relaying.reachable {said : List (List Byte)} {c : Config ε} (h : Relaying E said c) :
    Reachable E Free c := by
  induction h with
  | init hw => exact .init hw
  | step _ hf hs ih => exact ih.step hf hs trivial

theorem Reachable.relaying {c : Config ε} (h : Reachable E Free c) :
    ∃ said, Relaying E said c := by
  induction h with
  | init hw => exact ⟨[], .init hw⟩
  | step _ hf hs _ ih =>
    obtain ⟨said, hrun⟩ := ih
    exact ⟨_, hrun.step hf hs⟩

theorem Step.simulates {c c' : Config ε} (hs : Step E c c') (hr : Reachable E Free c)
    (hf : c.server.fault = none) (hf' : c'.server.fault = none) :
    Simulates E c.broadcasts c.server c'.server := by
  have hsame : ∀ {w w' : Server ε}, w'.sessions = w.sessions → w'.accepted = w.accepted →
      w'.allocated = w.allocated →
      w'.gameLift.mPlayerSessions = w.gameLift.mPlayerSessions → Simulates E [] w w' := by
    intro w w' hsessions haccepted hallocated hmembers
    refine Mute.simulates (.of_same hallocated (fun s _ => ?_) (fun s hc => ?_) hmembers)
    · rw [outgoing, outgoing, hsessions, haccepted]
    · rwa [hsessions] at hc
  cases hs with
  | accept hfresh _ _ _ => exact created_simulates hfresh
  | @readable w sock =>
    rcases startReceive_cases w sock with ⟨sid, -, -, he⟩ | ⟨f, he⟩ | ⟨-, he⟩ <;>
      rw [he] at hf' ⊢
    · exact hsame rfl rfl rfl rfl
    · exact absurd hf' (raise_fault _ _)
    · exact absurd hf' (raise_fault _ _)
  | receive => exact (Mute.receiveStep _ _).simulates
  | dispatch =>
    exact dispatchStep_simulates hf hr.buffered (hr.known.2 _ (Or.inr rfl)) hr.members_sized hf'
  | flush hflush => exact (Mute.flushClientSend hr.buffered hflush hf').simulates
  | startGameSession => exact hsame rfl rfl rfl rfl
  | processTerminate => exact hsame rfl rfl rfl rfl
  | outside _ => exact hsame rfl rfl rfl rfl

theorem shows_initial {w : Server ε} (h : Initial E w) : Shows E w .empty := by
  have hnobody : ∀ s, s ∉ w.gameLift.mPlayerSessions := by
    intro s
    rw [h.gameLift]
    exact Finset.notMem_empty s
  refine ⟨fun s => ⟨False.elim, fun hl => hnobody s hl.1⟩, fun s hs => ?_, fun s hs => ?_,
    fun _ _ => rfl, fun _ _ _ _ => rfl⟩
  · rw [h.allocated] at hs
    exact absurd hs (Finset.notMem_empty s)
  · exact absurd hs (hnobody s)

theorem hall_of_run {said : List (List Byte)} {c : Config ε} (h : Relaying E said c)
    (hf : c.server.fault = none) :
    ∃ hall, Steps E.Lingers .empty hall ∧ hall.said = said ∧ Shows E c.server hall := by
  induction h with
  | init hw => exact ⟨.empty, .refl, rfl, shows_initial hw⟩
  | step hrun hbefore hs ih =>
    obtain ⟨hall, hsteps, hsaid, hshows⟩ := ih hbefore
    obtain ⟨hall', hsteps', hsaid', hshows'⟩ :=
      hs.simulates hrun.reachable hbefore hf hall hshows
    exact ⟨hall', hsteps.trans hsteps', hsaid' ▸ hsaid ▸ rfl, hshows'⟩

/-- Every run of the server runs a hall in which the broadcasts of the run are said. The
hall is firm if the linger option can always be set. -/
theorem server_refines_hall (E : Env ε) (said : List (List Byte)) (c : Config ε)
    (h : Relaying E said c) (hf : c.server.fault = none) :
    ∃ hall, Steps E.Lingers .empty hall ∧ hall.said = said ∧ Shows E c.server hall :=
  hall_of_run h hf

/-- What is queued to a session can be read in one way only: packets that the client
reads safely, a LoginResult first, and besides LoginResults broadcasts of the run, each
once and in the order of the run. -/
theorem streams_in_order (E : Env ε) (said : List (List Byte)) (c : Config ε)
    (h : Relaying E said c) (hf : c.server.fault = none) (s : SessionId)
    (hs : s ∈ c.server.allocated) :
    ∃ packets, Speaks c.server s packets ∧ relayed packets <+ said ∧
      (∀ others, c.server.outgoing s = stream ServerPacket.toBytes others → others = packets) ∧
      (Listening c.server s → packets ≠ []) := by
  obtain ⟨hall, hsteps, rfl, hshows⟩ := hall_of_run h hf
  obtain ⟨packets, hspeaks, hheard, hnonempty⟩ := hshows.heard s hs
  have hordered := OrderedBroadcast.ordered_empty.steps hsteps
  refine ⟨packets, hspeaks, ?_, fun others hothers => ?_, hnonempty⟩
  · rw [hheard]
    exact hordered.sublist s
  · exact ServerPacket.stream_unique (hothers.symm.trans hspeaks.bytes)

/-- Where the linger option can always be set, a session misses nothing between two
broadcasts it gets, and two connected members have got the same broadcasts, the one that
came later only the last of them. -/
theorem members_agree (E : Env ε) (hlingers : E.Lingers) (said : List (List Byte)) (c : Config ε)
    (h : Relaying E said c) (hf : c.server.fault = none) :
    ∃ packets : SessionId → List ServerPacket,
      (∀ s ∈ c.server.allocated, Speaks c.server s (packets s) ∧ relayed (packets s) <:+: said) ∧
      (∀ s, Listening c.server s → relayed (packets s) <:+ said) ∧
      ∀ s t, Listening c.server s → Listening c.server t →
        relayed (packets s) <:+ relayed (packets t) ∨
          relayed (packets t) <:+ relayed (packets s) := by
  obtain ⟨hall, hsteps, rfl, hshows⟩ := hall_of_run h hf
  have hordered := OrderedBroadcast.ordered_empty.steps hsteps
  have hheard : ∀ s, ∃ packets, s ∈ c.server.allocated →
      Speaks c.server s packets ∧ relayed packets = hall.heard s := by
    intro s
    by_cases hs : s ∈ c.server.allocated
    · obtain ⟨packets, hspeaks, hrelayed, -⟩ := hshows.heard s hs
      exact ⟨packets, fun _ => ⟨hspeaks, hrelayed⟩⟩
    · exact ⟨[], fun hin => absurd hin hs⟩
  choose packets hpackets using hheard
  have hmember : ∀ s, Listening c.server s → relayed (packets s) = hall.heard s :=
    fun s hl => (hpackets s (hshows.members hl.1)).2
  refine ⟨packets, fun s hs => ⟨(hpackets s hs).1, ?_⟩, fun s hl => ?_, fun s t hs ht => ?_⟩
  · rw [(hpackets s hs).2]
    exact hordered.part hlingers s
  · rw [hmember s hl]
    exact hordered.current hlingers s ((hshows.present s).mpr hl)
  · rw [hmember s hs, hmember t ht]
    exact hordered.agree hlingers ((hshows.present s).mpr hs) ((hshows.present t).mpr ht)

/-- Two chats of a stranger have been queued to the player. -/
theorem chats_relayed :
    ∃ said w, Relaying congested said ⟨w, .dispatching 1⟩ ∧ w.fault = none ∧ Listening w 0 ∧
      0 ∈ w.allocated := by
  obtain ⟨w, hreach, hw⟩ := congested_scripted.flooded (j := 2) (k := 0) (by decide) (by decide)
  obtain ⟨said, hrun⟩ := hreach.relaying
  have hin : 0 ∈ w.gameLift.mPlayerSessions := by
    rw [hw.members]
    exact Finset.mem_singleton_self 0
  obtain ⟨_, -, -, hshows⟩ := hall_of_run hrun hw.party.fault
  exact ⟨said, w, hrun, hw.party.fault, ⟨hin, hw.party.connected 0 (by decide)⟩,
    hshows.members hin⟩

theorem server_refines_hall_chats :
    ∃ said w, Relaying congested said ⟨w, .dispatching 1⟩ ∧ Listening w 0 ∧
      ∃ hall, Steps congested.Lingers .empty hall ∧ hall.said = said ∧ Shows congested w hall := by
  obtain ⟨said, w, hrun, hf, hl, -⟩ := chats_relayed
  exact ⟨said, w, hrun, hl, server_refines_hall congested said _ hrun hf⟩

theorem streams_in_order_chats :
    ∃ said w packets, Relaying congested said ⟨w, .dispatching 1⟩ ∧ Listening w 0 ∧
      Speaks w 0 packets ∧ relayed packets <+ said ∧ packets ≠ [] := by
  obtain ⟨said, w, hrun, hf, hl, hin⟩ := chats_relayed
  obtain ⟨packets, hspeaks, hsub, -, hnonempty⟩ := streams_in_order congested said _ hrun hf 0 hin
  exact ⟨said, w, packets, hrun, hl, hspeaks, hsub, hnonempty hl⟩

theorem members_agree_chats :
    ∃ said w, ∃ packets : SessionId → List ServerPacket,
      Relaying congested said ⟨w, .dispatching 1⟩ ∧ Listening w 0 ∧ Speaks w 0 (packets 0) ∧
        relayed (packets 0) <:+ said := by
  obtain ⟨said, w, hrun, hf, hl, hin⟩ := chats_relayed
  obtain ⟨packets, hspeaks, hmembers, -⟩ :=
    members_agree congested (fun _ _ => rfl) said _ hrun hf
  exact ⟨said, w, packets, hrun, hl, (hspeaks 0 hin).1, hmembers 0 hl⟩

end GameLift
