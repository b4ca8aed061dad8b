import GameLift.DummyGame
import GameLift.TextFields

/-! Where the server can overrun a buffer: only with the strings of the packet it handles and
of the line it logs, whatever it reads, flushes, broadcasts or closes. Going on from an erased
iterator is another fault, and not counted here. -/

namespace GameLift

open DummyClients (Dummy Floats Player)
open Framing (stream)
open Server
open scoped List

variable {ε : Type}

/-- The packet that is handled next has a string without end, or what is logged of it is too
long for the log line. -/
def Config.Overruns (E : Env ε) (c : Config ε) : Prop :=
  match c.control with
  | .dispatching sid => ∃ kind image b,
      nextFrame (c.server.sessions sid).mRecvBuffer = .parsed kind image b ∧
        ¬TextFits E c.server kind image
  | _ => False

namespace Server

variable {E : Env ε} {w v w' : Server ε} {sid : SessionId}

def InBounds (w : Server ε) : Prop := w.fault ≠ some .outOfBounds

theorem InBounds.raise (h : w.InBounds) {f : Fault} (hf : f ≠ .outOfBounds) :
    (w.raise f).InBounds := by
  rw [InBounds, Server.raise]
  cases hw : w.fault with
  | none => simpa using hf
  | some g => rwa [Option.some_or, ← hw]

theorem InBounds.congr (h : w.InBounds) (hf : w'.fault = w.fault) : w'.InBounds := by
  rwa [InBounds, hf]

theorem InBounds.disconnect (h : w.InBounds) (sid : SessionId) :
    (w.disconnect E sid).InBounds := h.congr (disconnect_send ..).2.2

/-- What a flush of the client list keeps, element for element. -/
structure Intact (w v : Server ε) : Prop where
  inBounds : v.InBounds
  buffered : v.Buffered
  value : v.mClientList.value = w.mClientList.value
  allocated : v.allocated = w.allocated

theorem Intact.disconnect (h : Intact w v) (sid : SessionId) : Intact w (v.disconnect E sid) := by
  refine ⟨h.inBounds.disconnect sid, buffered_carried.disconnect h.buffered, ?_, ?_⟩
  · rw [← h.value]
    rcases disconnect_cases (E := E) v sid with ⟨-, he⟩ | ⟨-, he⟩ | ⟨-, -, he⟩ | ⟨-, -, he⟩ <;>
      rw [he] <;>
      rfl
  · exact ((Mute.refl (E := E) v).disconnect sid).allocated.trans h.allocated

theorem Intact.raise (h : Intact w v) {f : Fault} (hf : f ≠ .outOfBounds) :
    Intact w (v.raise f) := ⟨h.inBounds.raise hf, h.buffered, h.value, h.allocated⟩

theorem Intact.flushClient (h : Intact w v) {k : Socket} {fuel : Nat}
    (hk : ∀ s, w.mClientList.value k = some s → s ∈ w.allocated)
    (hflush : v.flushClient E fuel k = some w') : Intact w w' := by
  rw [Server.flushClient, h.value] at hflush
  cases hv : w.mClientList.value k with
  | none =>
    simp only [hv, Option.some.injEq] at hflush
    exact hflush ▸ h.raise (by simp)
  | some sid =>
    simp only [hv, Option.bind_eq_bind, Option.bind_eq_some_iff] at hflush
    obtain ⟨⟨r, u⟩, hsend, hend⟩ := hflush
    have hsized := (h.buffered sid (h.allocated ▸ hk sid hv)).2
    have hquiet := sendFlush_quiet hsend
    have hu : Intact w u := ⟨h.inBounds.congr (sendFlush_fault hsized hsend),
      h.buffered.sendFlush hsend, by rw [hquiet.clients, h.value], hquiet.allocated.trans h.allocated⟩
    have hclosed : Intact w (if r.answer then u else u.disconnect E sid) := by
      split_ifs
      · exact hu
      · exact hu.disconnect sid
    simp only [Option.pure_def, Option.some.injEq] at hend
    rw [← hend]
    generalize (if r.answer then u else u.disconnect E sid) = v' at hclosed
    split_ifs
    · exact hclosed
    · exact hclosed.raise (by simp)

theorem Intact.flushClients {keys : List Socket} {fuel : Nat} (h : Intact w v)
    (hk : ∀ k ∈ keys, ∀ s, w.mClientList.value k = some s → s ∈ w.allocated)
    (hflush : keys.foldlM (Server.flushClient E fuel) v = some w') : Intact w w' := by
  induction keys generalizing v with
  | nil =>
    simp only [List.foldlM_nil, Option.pure_def, Option.some.injEq] at hflush
    exact hflush ▸ h
  | cons k keys ih =>
    rw [List.foldlM_cons, Option.bind_eq_bind, Option.bind_eq_some_iff] at hflush
    obtain ⟨u, hu, hflush⟩ := hflush
    exact ih (h.flushClient (hk k List.mem_cons_self) hu)
      (fun j hj => hk j (List.mem_cons_of_mem _ hj)) hflush

theorem startReceive_inBounds (h : w.InBounds) (sock : Socket) :
    (w.startReceive sock).server.InBounds := by
  rw [startReceive]
  dsimp only
  cases (w.mClientList.subscript sock).1 with
  | none => exact InBounds.raise (w := { w with mClientList := _ }) h (by simp)
  | some sid =>
    dsimp only
    split_ifs
    · exact h
    · exact InBounds.raise (w := { w with mClientList := _ }) h (by simp)

theorem receiveStep_inBounds (h : w.InBounds) (hs : (w.sessions sid).mRecvBuffer.Inv)
    (horder : E.argOrder = .sizeFirst) : (receiveStep E sid w).server.InBounds := by
  cases hread : (E.read (w.sessions sid).mSocket (w.sessions sid).mRecvBuffer.freeSpace w.env).1 with
  | eagain =>
    rw [receiveStep, receiveBody_eq]
    dsimp only
    rw [hread]
    exact h
  | error =>
    rw [receiveStep, receiveBody_eq]
    dsimp only
    rw [hread]
    exact InBounds.disconnect (w := { w.setRecv sid _ with env := _ }) h sid
  | data bytes =>
    obtain ⟨b, -, hstep⟩ := receiveStep_data (by rw [horder]) (Prod.ext hread rfl) hs
      (E.read_le _ _ _ _ hread)
    rw [hstep]
    exact h

theorem unparsed_inBounds (h : w.InBounds) (hs : (w.sessions sid).mRecvBuffer.Inv)
    (hn : ∀ kind image b, nextFrame (w.sessions sid).mRecvBuffer ≠ .parsed kind image b) :
    (dispatchStep E sid w).server.InBounds := by
  refine dispatchStep_of_body h ?_
  rcases (receiver E sid).dispatchBody_cases hs with ⟨-, he⟩ | ⟨-, he⟩ | ⟨-, he⟩ | ⟨k, -, he⟩ |
    ⟨k, b, -, hframe, -⟩
  · rw [he]
    exact h
  · rw [he]
    exact h.disconnect sid
  · rw [he]
    exact h.disconnect sid
  · rw [he]
    exact h
  · have hmap := hs.nextFrame_spec.1
    change _ = frameOf ((receiver E sid).contents w) at hmap
    rw [hframe] at hmap
    cases hf : nextFrame (w.sessions sid).mRecvBuffer with
    | parsed kind image b => exact absurd hf (hn kind image b)
    | _ => simp [hf, Frame.map] at hmap

theorem handlePacket_overruns {kind : Request} {image : List Byte}
    (hlen : image.length = kind.structSize) (hf : w.fault = none)
    (hs : (w.sessions sid).mSendBuffer.Sized)
    (hm : ∀ s ∈ w.gameLift.mPlayerSessions, (w.sessions s).mSendBuffer.Sized) :
    (handlePacket E sid kind image w).fault = some .outOfBounds ↔ ¬TextFits E w kind image := by
  rw [← not_iff_not, not_not, ← handlePacket_textSafe hlen hf hs hm]
  by_cases hkind : kind = .chat
  · subst hkind
    refine ⟨fun h => ?_, fun h => h.inBounds⟩
    have hraised : ¬(w.raise .outOfBounds).fault ≠ some .outOfBounds :=
      fun hne => hne (raise_first hf _)
    cases hid : cString (imagePlayerId image) with
    | none =>
      rw [handlePacket, hid] at h
      exact absurd h hraised
    | some id =>
      cases hchat : cString (imageChat image) with
      | none =>
        rw [handlePacket, hid, hchat] at h
        exact absurd h hraised
      | some chat => exact chat_textSafe hlen hf hm hid hchat
  · exact (textSafe_of_ne_chat hkind).symm

end Server

variable {E : Env ε} {c c' : Config ε}

theorem Step.overruns (hs : Step E c c') (hr : Reachable E Free c)
    (horder : E.argOrder = .sizeFirst) (hf : c.server.fault = none) :
    c'.server.fault = some .outOfBounds ↔ c.Overruns E := by
  have hbefore : c.server.InBounds := inBounds_of_none hf
  have hidle : ∀ {w' : Server ε}, w'.InBounds → (w'.fault = some .outOfBounds ↔ False) :=
    fun h => iff_of_false h id
  cases hs with
  | accept => exact hidle hbefore
  | @readable w sock => exact hidle (startReceive_inBounds hbefore sock)
  | @receive w sid =>
    exact hidle (receiveStep_inBounds hbefore (hr.buffered sid (hr.known.2 sid (Or.inl rfl))).1.inv
      horder)
  | @dispatch w sid =>
    have hrings := hr.buffered sid (hr.known.2 sid (Or.inr rfl))
    cases hn : nextFrame (w.sessions sid).mRecvBuffer with
    | parsed kind image b =>
      have hparsed : Config.Overruns E ⟨w, .dispatching sid⟩ ↔ ¬TextFits E w kind image := by
        constructor
        · rintro ⟨kind', image', b', hn', hfits⟩
          obtain ⟨rfl, rfl, -⟩ := Frame.parsed.inj (hn.symm.trans hn')
          exact hfits
        · exact fun hfits => ⟨kind, image, b, hn, hfits⟩
      have hsame : TextFits E (w.setRecv sid b) kind image ↔ TextFits E w kind image := by
        cases kind <;> exact Iff.rfl
      rw [hparsed, ← hsame, dispatchStep_handles hn]
      refine handlePacket_overruns (parsed_length hrings.1.inv hn) hf ?_ ?_
      · rw [setRecv_send]
        exact hrings.2
      · intro s hin
        rw [setRecv_send]
        exact hr.members_sized s hin
    | _ =>
      refine iff_of_false (unparsed_inBounds hbefore hrings.1.inv ?_) ?_
      · intro kind image b
        simp [hn]
      · rintro ⟨kind, image, b, hn', -⟩
        simp [hn] at hn'
  | flush hflush =>
    refine hidle (Intact.flushClients ⟨hbefore, hr.buffered, rfl, rfl⟩ ?_ hflush).inBounds
    intro k hk s hv
    exact hr.known.1.clients k ((Finset.mem_sort _).mp hk) s hv
  | startGameSession => exact hidle hbefore
  | processTerminate => exact hidle hbefore
  | outside _ => exact hidle hbefore

/-- A step of the server overruns a buffer exactly when it handles a packet with a string that
has no end in its field, or one for which the line that is logged has no room. -/
theorem overrun_iff (E : Env ε) (horder : E.argOrder = .sizeFirst) (c c' : Config ε)
    (hr : Reachable E Free c) (hf : c.server.fault = none) (hs : Step E c c') :
    c'.server.fault = some .outOfBounds ↔ c.Overruns E := hs.overruns hr horder hf

theorem overrun_iff_unterminated :
    ∃ c c', Reachable playback Free c ∧ Step playback c c' ∧
      c'.server.fault = some .outOfBounds := by
  obtain ⟨w, b, hreach, hf, hnext⟩ := joined_handles [] unterminated
  refine ⟨_, _, hreach, .dispatch, (overrun_iff playback rfl _ _ hreach hf .dispatch).mpr ?_⟩
  refine ⟨_, _, b, hnext, ?_⟩
  rintro ⟨id, hid, -⟩
  rw [cString_unterminated] at hid
  cases hid

/-- What the SDK says of a refused player session has room in the log line. -/
def Env.ShortRefusals (E : Env ε) : Prop :=
  ∀ id e, (E.acceptPlayerSession id e).1 = false → (E.acceptErrorMessage id e).length ≤ 89

theorem playback_shortRefusals : playback.ShortRefusals := by
  intro id e _
  have hline := playback_refusalLine id e
  omega

namespace ClientPacket

/-- The strings end, and soon enough for the lines they are logged in. -/
def Fits (p : ClientPacket) : Prop :=
  match p.kind with
  | .login => ∃ id, cString (imagePlayerId p.toBytes) = some id ∧ 24 + id.length < 128
  | .exit => ∃ id, cString (imagePlayerId p.toBytes) = some id ∧ 25 + id.length < 128
  | .chat => (cString (imagePlayerId p.toBytes)).isSome ∧ (cString (imageChat p.toBytes)).isSome
  | .move => True

theorem Fits.textFits {p : ClientPacket} (h : p.Fits) (hmessage : E.ShortRefusals)
    (w : Server ε) : TextFits E w p.kind p.toBytes := by
  rw [Fits] at h
  generalize p.toBytes = image at h ⊢
  generalize p.kind = kind at h ⊢
  cases kind with
  | login =>
    obtain ⟨id, hid, hlen⟩ := h
    refine ⟨id, hid, ?_⟩
    split_ifs with hok
    · exact hlen
    · have hshort := hmessage id w.env (Bool.eq_false_of_not_eq_true hok)
      omega
  | exit => exact h
  | chat => exact h
  | move => trivial

/-- A packet that would be broadcast has whole strings. -/
theorem fits_of_broadcast {p : ClientPacket} (h : p.broadcast ≠ none) : p.Fits := by
  rw [broadcast] at h
  rw [Fits]
  generalize p.toBytes = image at h ⊢
  generalize p.kind = kind at h ⊢
  cases kind with
  | login => exact absurd rfl h
  | exit => exact absurd rfl h
  | chat =>
    rw [broadcastOf] at h
    cases hid : cString (imagePlayerId image) with
    | none => simp [hid] at h
    | some id =>
      cases hchat : cString (imageChat image) with
      | none => simp [hid, hchat] at h
      | some chat => exact ⟨rfl, rfl⟩
  | move => trivial

end ClientPacket

variable {t : Traffic}

/-- Where only such packets are sent, the server overruns no buffer. -/
theorem Conversing.inBounds (h : Conversing E t c) (horder : E.argOrder = .sizeFirst)
    (hmessage : E.ShortRefusals) (sent : SessionId → List ClientPacket)
    (hsent : ∀ s, t.received s <+: stream ClientPacket.toBytes (sent s))
    (hfits : ∀ s, ∀ p ∈ sent s, p.Fits) :
    c.server.InBounds := by
  cases h with
  | init hw => exact inBounds_of_none hw.fault
  | @step t c c' hrun hf hs =>
    have hbefore : ∀ s, t.received s <+: stream ClientPacket.toBytes (sent s) :=
      fun s => (t.received_after c s).trans (hsent s)
    have hreach := hrun.relaying.reachable
    have hheeded := allHeeded_of_run hrun horder hf hbefore
    intro hfault
    have hover := (hs.overruns hreach horder hf).mp hfault
    rw [Config.Overruns] at hover
    cases hc : c.control with
    | dispatching sid =>
      rw [hc] at hover
      obtain ⟨kind, image, b, hnext, hnot⟩ := hover
      have hin := hreach.known.2 sid (Or.inr hc)
      have hinv := (hreach.buffered sid hin).1.inv
      obtain ⟨handled, hh, -⟩ := hheeded.heeded sid hin
      rcases hh.front (hbefore sid) with hwait | ⟨p, tail, hfirst, htail⟩
      · have hmap := hinv.nextFrame_spec.1
        rw [hwait, hnext] at hmap
        cases hmap
      · have hframe := p.frameOf_toBytes tail
        rw [← htail] at hframe
        obtain ⟨b', -, -, hnext', -⟩ := dispatchStep_parsed (E := E) hinv hframe
        obtain ⟨rfl, rfl, -⟩ := Frame.parsed.inj (hnext.symm.trans hnext')
        have hp : p ∈ sent sid := hfirst.subset (List.mem_append_right _ (List.mem_singleton_self p))
        exact hnot ((hfits sid p hp).textFits hmessage c.server)
    | idle =>
      rw [hc] at hover
      exact hover
    | receiving sid =>
      rw [hc] at hover
      exact hover

theorem DummyClients.Player.Owns.fits {P : Player} {p : ClientPacket} (h : P.Owns p)
    (hname : P.name.bytes.length ≤ 102) : p.Fits := by
  rw [Player.Owns] at h
  rw [ClientPacket.Fits]
  generalize p.toBytes = image at h ⊢
  generalize p.kind = kind at h ⊢
  cases kind with
  | login => exact ⟨_, h, by omega⟩
  | exit => exact ⟨_, h, by omega⟩
  | chat =>
    obtain ⟨hid, chat, hchat, -⟩ := h
    exact ⟨by rw [hid]; rfl, by rw [hchat]; rfl⟩
  | move => trivial

theorem DummyClients.Player.known_short {P : Player} (hname : P.name.bytes.length ≤ 102)
    (k : Stored) : (P.known k).name.bytes.length ≤ 102 := by
  cases k with
  | nothing => exact Nat.zero_le _
  | sessionId => exact hname
  | both => exact hname

/-- Dummy players whose names are no longer than 102 bytes never make the server overrun a
buffer, whatever their chats hold and however the two sides take turns. -/
theorem dummies_never_overrun {F : Type} (E : Env ε) (horder : E.argOrder = .sizeFirst)
    (hmessage : E.ShortRefusals) (fl : Floats F) (request : Int) (P : SessionId → Player)
    (block : SessionId → Block) (hsize : ∀ s, (block s).cells.length = clientBufsize)
    (hname : ∀ s, (P s).name.bytes.length ≤ 102) (t : Traffic) (c : Config ε)
    (players : SessionId → Dummy F) (h : Playing E fl request P block t c players) :
    c.server.fault ≠ some .outOfBounds := by
  cases h with
  | init hw => exact inBounds_of_none hw.fault
  | server hrun hf hs hreceived =>
    choose sent hplays using allPlay_of_run hrun horder hsize hf
    refine (hrun.conversing.step hf hs).inBounds horder hmessage sent (fun s => ?_) fun s p hp => ?_
    · have hgot := hreceived s
      rwa [(hplays s).posted] at hgot
    · obtain ⟨k, howns⟩ := (hplays s).owns p hp
      exact howns.fits (Player.known_short (hname s) k)
  | player _ hf _ => exact inBounds_of_none hf

theorem dummies_never_overrun_move :
    ∃ t w players, Playing playback wholeFloats 100 (fun _ => ⟨[7], 0⟩)
      (fun _ => clientBlock) t ⟨w, .idle⟩ players ∧ (players 0).test.posted.length = 2 ∧
      w.fault ≠ some .outOfBounds := by
  obtain ⟨t, w, d, hplaying, -, -, -, -, -, hlen⟩ := movedPlayers_playing
  refine ⟨t, w, _, hplaying, ?_, ?_⟩
  · rw [Function.update_self]
    exact hlen
  · exact dummies_never_overrun playback rfl playback_shortRefusals wholeFloats 100
      (fun _ => ⟨[7], 0⟩) (fun _ => clientBlock) (fun _ => List.length_replicate)
      (fun _ => by decide) t _ _ hplaying

/-- An id short enough for the log, a chat that leaves its terminator in place. -/
def UserRequest.Fits : UserRequest → Prop
  | .login playerSessionId => (CText.ofString playerSessionId).bytes.length ≤ 103
  | .chat text => text.bytes.length < maxChatLen
  | .move _ _ => True

namespace TcpClient

theorem loginRequest_fits {mLoginId : Int} {id bytes : List Byte}
    (hid : (CText.ofString id).bytes.length ≤ 103)
    (h : loginRequest mLoginId id = .ok (some bytes)) :
    ∃ p : ClientPacket, bytes = p.toBytes ∧ p.Fits := by
  have hsame : Player.loginRequest ⟨id, 0⟩ = .ok bytes := by
    rw [loginRequest] at h
    split_ifs at h
    · cases h
    rw [Player.loginRequest, Player.name]
    cases hname : sprintf_s (List.replicate maxSessionLen 0) (CText.ofString id).bytes with
    | error f => simp [hname, bind, Except.bind] at h
    | ok out =>
      rw [hname, ok_bind, pure_eq_ok, Except.ok.injEq, Option.some.injEq] at h
      rw [ok_bind, pure_eq_ok, h]
  obtain ⟨p, hp, hkind, howns⟩ := Player.loginRequest_packet hsame
  refine ⟨p, hp, ?_⟩
  rw [Player.Owns, hkind] at howns
  rw [ClientPacket.Fits, hkind]
  exact ⟨_, howns, by change 24 + (CText.ofString id).bytes.length < 128; omega⟩

theorem request_fits {mLoginId : Int} (hid : mLoginId = -1 ∨ mLoginId = 416) {r : UserRequest}
    (hr : r.Fits) {data : Option (List Byte)} (h : request mLoginId r = .ok data) :
    ∃ packets : List ClientPacket,
      data.getD [] = stream ClientPacket.toBytes packets ∧ ∀ p ∈ packets, p.Fits := by
  have hsingle : ∀ {p : ClientPacket} {bytes : List Byte}, bytes = p.toBytes → p.Fits →
      ∃ packets : List ClientPacket,
        bytes = stream ClientPacket.toBytes packets ∧ ∀ p ∈ packets, p.Fits := by
    intro p bytes hp hfits
    refine ⟨[p], by rw [hp, Framing.stream_cons]; exact (List.append_nil _).symm, ?_⟩
    exact fun q hq => List.mem_singleton.mp hq ▸ hfits
  have hdrawn : ∀ {p : ClientPacket} {call : SceneCall},
      p.broadcast.bind SceneCall.ofBytes = some call → p.Fits := by
    intro p call hcall
    refine ClientPacket.fits_of_broadcast fun hnone => ?_
    rw [hnone] at hcall
    cases hcall
  cases data with
  | none => exact ⟨[], rfl, fun p hp => absurd hp List.not_mem_nil⟩
  | some bytes =>
    cases r with
    | login id =>
      obtain ⟨p, hp, hfits⟩ := loginRequest_fits hr h
      exact hsingle hp hfits
    | chat text =>
      rcases hid with rfl | rfl
      · rw [request, chatRequest, if_pos (by decide)] at h
        cases h
      · obtain ⟨p, hp, hcall⟩ := chatRequest_packet h
        have hshort : ¬maxChatLen ≤ text.bytes.length := Nat.not_le.mpr hr
        rw [UserRequest.drawn, if_neg (not_or.mpr ⟨by decide, hshort⟩)] at hcall
        exact hsingle hp (hdrawn hcall)
    | move x y =>
      rcases hid with rfl | rfl
      · rw [request, moveRequest, if_pos (by decide)] at h
        cases h
      · obtain ⟨p, hp, hcall⟩ := moveRequest_packet h
        exact hsingle hp (hdrawn hcall)

theorem requests_fit {asked : List (Int × UserRequest)}
    (hid : ∀ r ∈ asked, r.1 = -1 ∨ r.1 = 416) (hfits : ∀ r ∈ asked, r.2.Fits)
    {bytes : List Byte} (h : requests asked = .ok bytes) :
    ∃ packets, bytes = stream ClientPacket.toBytes packets ∧ ∀ p ∈ packets, p.Fits := by
  induction asked generalizing bytes with
  | nil =>
    cases h
    exact ⟨[], rfl, fun p hp => absurd hp List.not_mem_nil⟩
  | cons r asked ih =>
    obtain ⟨mLoginId, r⟩ := r
    rw [requests] at h
    cases hdata : request mLoginId r with
    | error f => simp [hdata, bind, Except.bind] at h
    | ok data =>
      cases hrest : requests asked with
      | error f => simp [hdata, hrest, bind, Except.bind] at h
      | ok rest =>
        rw [hdata, ok_bind, hrest, ok_bind, pure_eq_ok, Except.ok.injEq] at h
        obtain ⟨packets, hpackets, hfirst⟩ := request_fits (hid _ List.mem_cons_self)
          (hfits _ List.mem_cons_self) hdata
        obtain ⟨later, hlater, hlast⟩ := ih (fun r hr => hid r (List.mem_cons_of_mem _ hr))
          (fun r hr => hfits r (List.mem_cons_of_mem _ hr)) hrest
        refine ⟨packets ++ later, by rw [← h, hpackets, hlater, Framing.stream_append], ?_⟩
        intro p hp
        rcases List.mem_append.mp hp with hp | hp
        · exact hfirst p hp
        · exact hlast p hp

end TcpClient

/-- Cocos clients that log in with ids of 103 bytes at most, and whose chats do not fill
their field, never make the server overrun a buffer. -/
theorem requests_never_overrun (E : Env ε) (horder : E.argOrder = .sizeFirst)
    (hmessage : E.ShortRefusals) (t : Traffic) (c : Config ε) (h : Conversing E t c)
    (asked : SessionId → List (Int × UserRequest))
    (hid : ∀ s, ∀ r ∈ asked s, Scene.IsLoginId r.1) (hfits : ∀ s, ∀ r ∈ asked s, r.2.Fits)
    (sent : SessionId → List Byte) (hsent : ∀ s, TcpClient.requests (asked s) = .ok (sent s))
    (hreceived : ∀ s, t.received s <+: sent s) : c.server.fault ≠ some .outOfBounds := by
  choose packets hpackets hfit using fun s => TcpClient.requests_fit
    (fun r hr => Scene.loginId_values (hid s r hr)) (hfits s) (hsent s)
  exact h.inBounds horder hmessage packets (fun s => hpackets s ▸ hreceived s) hfit

theorem requests_never_overrun_login :
    ∃ t w, Conversing playback t ⟨w, .dispatching 0⟩ ∧
      t.received 0 = (loginRequest 7).toBytes ∧ w.fault ≠ some .outOfBounds := by
  obtain ⟨t, w, hrun, -, -, hreceived⟩ :=
    joined_conversing (c := 7) (by decide) [] (Nat.zero_le _)
  rw [List.append_nil] at hreceived
  have hsent : TcpClient.requests [(-1, .login [7])] = .ok (loginRequest 7).toBytes := by
    decide +kernel
  have hasked : ∀ s, ∀ r ∈ (if s = 0 then [((-1 : Int), UserRequest.login [7])] else []),
      r = (-1, .login [7]) := by
    intro s r hr
    split_ifs at hr
    · exact List.mem_singleton.mp hr
    · cases hr
  refine ⟨t, w, hrun, hreceived 0, ?_⟩
  refine requests_never_overrun playback rfl playback_shortRefusals t _ hrun
    (fun s => if s = 0 then [(-1, .login [7])] else []) (fun s r hr => ?_) (fun s r hr => ?_)
    (fun s => if s = 0 then (loginRequest 7).toBytes else []) (fun s => ?_) fun s => ?_
  · rw [hasked s r hr]
    exact ⟨[], rfl⟩
  · rw [hasked s r hr]
    exact (show (CText.ofString [7]).bytes.length ≤ 103 by decide)
  · split_ifs
    · exact hsent
    · rfl
  · exact (hreceived s).symm ▸ List.prefix_rfl

end GameLift
