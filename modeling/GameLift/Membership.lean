import GameLift.ServerInvariant
import GameLift.Playback

/-! Who is in the game. A member is a connected session, listed under its own
socket and holding an id, as long as no refused removal and no login of a
session that is gone puts a session into the set, or leaves it there. -/

namespace GameLift

/-- The sessions in the game after these requests, latest first. -/
def present : List SdkCall → Finset SessionId
  | [] => ∅
  | .acceptPlayerSession psess _ true :: calls => insert psess (present calls)
  | .removePlayerSession psess _ true :: calls => (present calls).erase psess
  | _ :: calls => present calls

/-- No removal was refused for a session in the game. -/
def NoRefusal : List SdkCall → Prop
  | [] => True
  | .removePlayerSession psess _ false :: calls => psess ∉ present calls ∧ NoRefusal calls
  | _ :: calls => NoRefusal calls

/-- The sessions whose removal was requested, whatever the answer. -/
def asked : List SdkCall → Finset SessionId
  | [] => ∅
  | .removePlayerSession psess _ _ :: calls => insert psess (asked calls)
  | _ :: calls => asked calls

namespace GameLiftManager

variable {ε : Type} {S : Sdk ε}

theorem removePlayerSession_issued (psess : SessionId) (id : PlayerId) (m : GameLiftManager)
    (e : ε) :
    (m.removePlayerSession S psess id e).1.issued =
        .removePlayerSession psess id (S.removePlayerSession id e).1 :: m.issued ∨
      (m.removePlayerSession S psess id e).1.issued = .processEnding :: .terminateGameSession ::
        .removePlayerSession psess id (S.removePlayerSession id e).1 :: m.issued := by
  have hcheck : ∀ (m' : GameLiftManager) (e' : ε),
      (m'.checkTerminateGameSession S e').1.issued = m'.issued ∨
        (m'.checkTerminateGameSession S e').1.issued =
          .processEnding :: .terminateGameSession :: m'.issued := by
    intro m' e'
    rw [checkTerminateGameSession]
    split_ifs
    · exact Or.inr rfl
    · exact Or.inl rfl
  rw [removePlayerSession]
  rcases S.removePlayerSession id e with ⟨ok, e₁⟩
  cases ok
  · exact hcheck _ _
  · exact hcheck _ _

theorem present_remove (psess : SessionId) (id : PlayerId) (m : GameLiftManager) (e : ε) :
    present (m.removePlayerSession S psess id e).1.issued =
      if (S.removePlayerSession id e).1 then (present m.issued).erase psess
      else present m.issued := by
  rcases removePlayerSession_issued (S := S) psess id m e with h | h <;>
    rw [h] <;>
    cases (S.removePlayerSession id e).1 <;>
    rfl

theorem noRefusal_remove {psess : SessionId} {id : PlayerId} {m : GameLiftManager} {e : ε}
    (h : NoRefusal (m.removePlayerSession S psess id e).1.issued) :
    NoRefusal m.issued ∧ ((S.removePlayerSession id e).1 = false → psess ∉ present m.issued) := by
  rcases removePlayerSession_issued (S := S) psess id m e with hi | hi <;>
    rw [hi] at h <;>
    cases hok : (S.removePlayerSession id e).1 <;>
    rw [hok] at h
  · exact ⟨h.2, fun _ => h.1⟩
  · exact ⟨h, nofun⟩
  · exact ⟨h.2, fun _ => h.1⟩
  · exact ⟨h, nofun⟩

theorem asked_remove (psess : SessionId) (id : PlayerId) (m : GameLiftManager) (e : ε) :
    asked (m.removePlayerSession S psess id e).1.issued = insert psess (asked m.issued) := by
  rcases removePlayerSession_issued (S := S) psess id m e with h | h <;>
    rw [h] <;>
    rfl

end GameLiftManager

namespace Server

variable {ε : Type} {E : Env ε}

structure Standing (w : Server ε) : Prop where
  listed : ∀ s, (w.sessions s).mConnected = true → s ∈ w.allocated ∧
    (w.sessions s).mSocket ∈ w.mClientList.keys ∧
      w.mClientList.value (w.sessions s).mSocket = some s
  clients : w.fault = none → ∀ k ∈ w.mClientList.keys,
    ∃ s ∈ w.allocated, w.mClientList.value k = some s ∧ (w.sessions s).mSocket = k
  members : ∀ s ∈ w.gameLift.mPlayerSessions,
    (w.sessions s).mConnected = true ∧ (w.sessions s).mPlayerSessionId ≠ []
  trail : w.gameLift.mPlayerSessions = present w.gameLift.issued
  gone : ∀ s ∈ asked w.gameLift.issued, s ∉ w.gameLift.mPlayerSessions

/-- A login that is accepted comes from a connected session that has never been
logged out, and for an id that is not empty. -/
def LoginFits (E : Env ε) (c : Config ε) : Prop :=
  ∀ sid id b, c.control = .dispatching sid → c.server.Handles sid .login id b →
    (E.acceptPlayerSession id c.server.env).1 = true →
      (c.server.sessions sid).mConnected = true ∧ id ≠ [] ∧ sid ∉ asked c.server.gameLift.issued

theorem Standing.congr {w w' : Server ε} (h : Standing w)
    (hconn : ∀ s, (w'.sessions s).mConnected = (w.sessions s).mConnected)
    (hsock : ∀ s, (w'.sessions s).mSocket = (w.sessions s).mSocket)
    (hid : ∀ s, (w'.sessions s).mPlayerSessionId = (w.sessions s).mPlayerSessionId)
    (hall : w'.allocated = w.allocated) (hlist : w'.mClientList = w.mClientList)
    (hm : w'.gameLift.mPlayerSessions = w.gameLift.mPlayerSessions)
    (hp : present w'.gameLift.issued = present w.gameLift.issued)
    (ha : asked w'.gameLift.issued = asked w.gameLift.issued)
    (hf : w'.fault = none → w.fault = none) : Standing w' where
  listed s hs := by
    rw [hsock, hall, hlist]
    exact h.listed s (hconn s ▸ hs)
  clients hn k hk := by
    rw [hlist] at hk ⊢
    obtain ⟨s, ha, hv, hs⟩ := h.clients (hf hn) k hk
    exact ⟨s, hall ▸ ha, hv, (hsock s).trans hs⟩
  members s hs := by
    rw [hconn, hid]
    exact h.members s (hm ▸ hs)
  trail := by rw [hm, hp, h.trail]
  gone s hs := by
    rw [hm]
    exact h.gone s (ha ▸ hs)

theorem Standing.quiet {w w' : Server ε} (hq : Quiet E w w') (h : Standing w) : Standing w' :=
  h.congr hq.connected hq.socket hq.id hq.allocated hq.clients (by rw [hq.gameLift])
    (by rw [hq.gameLift]) (by rw [hq.gameLift]) hq.fault

theorem Standing.socket_ne {w : Server ε} (h : Standing w) {s t : SessionId}
    (hs : (w.sessions s).mConnected = true) (ht : (w.sessions t).mConnected = true)
    (hne : s ≠ t) : (w.sessions s).mSocket ≠ (w.sessions t).mSocket := by
  intro he
  have hv := (h.listed s hs).2.2
  rw [he, (h.listed t ht).2.2, Option.some.injEq] at hv
  exact hne hv.symm

theorem Standing.closed {w : Server ε} (h : Standing w) {sid : SessionId}
    (hc : (w.sessions sid).mConnected = true) {m : GameLiftManager} (e : ε)
    (hsub : m.mPlayerSessions ⊆ w.gameLift.mPlayerSessions) (hout : sid ∉ m.mPlayerSessions)
    (htrail : m.mPlayerSessions = present m.issued)
    (hgone : ∀ s ∈ asked m.issued, s ∉ m.mPlayerSessions) : Standing (w.closed sid m e) where
  listed s hs := by
    rw [closed_connected] at hs
    split_ifs at hs with hne
    obtain ⟨ha, hk, hv⟩ := h.listed s hs
    rw [closed_socket]
    exact ⟨ha, Finset.mem_erase.mpr ⟨h.socket_ne hs hc hne, hk⟩, hv⟩
  clients hn k hk := by
    obtain ⟨s, ha, hv, hs⟩ := h.clients hn k (Finset.mem_of_mem_erase hk)
    exact ⟨s, ha, hv, (closed_socket ..).trans hs⟩
  members s hs := by
    have hne : s ≠ sid := fun he => hout (he ▸ hs)
    rw [closed_connected, closed_id, if_neg hne, if_neg hne]
    exact h.members s (hsub hs)
  trail := htrail
  gone := hgone

theorem Standing.clearId {w : Server ε} (h : Standing w) {sid : SessionId} {m : GameLiftManager}
    (e : ε) (hsub : m.mPlayerSessions ⊆ w.gameLift.mPlayerSessions)
    (hout : sid ∉ m.mPlayerSessions) (htrail : m.mPlayerSessions = present m.issued)
    (hgone : ∀ s ∈ asked m.issued, s ∉ m.mPlayerSessions) :
    Standing (setId { w with gameLift := m, env := e } sid []) where
  listed s hs := by
    rw [setId_connected] at hs
    rw [setId_socket]
    exact h.listed s hs
  clients hn k hk := by
    obtain ⟨s, ha, hv, hs⟩ := h.clients hn k hk
    exact ⟨s, ha, hv, (setId_socket ..).trans hs⟩
  members s hs := by
    have hne : s ≠ sid := fun he => hout (he ▸ hs)
    rw [setId_connected, setId_id, if_neg hne]
    exact h.members s (hsub hs)
  trail := htrail
  gone := hgone

theorem Standing.afterRemoval {w : Server ε} (h : Standing w) {sid : SessionId} {id : PlayerId}
    {e : ε} (hr : NoRefusal (w.gameLift.removePlayerSession E.toSdk sid id e).1.issued) :
    (w.gameLift.removePlayerSession E.toSdk sid id e).1.mPlayerSessions ⊆
        w.gameLift.mPlayerSessions ∧
      sid ∉ (w.gameLift.removePlayerSession E.toSdk sid id e).1.mPlayerSessions ∧
      (w.gameLift.removePlayerSession E.toSdk sid id e).1.mPlayerSessions =
        present (w.gameLift.removePlayerSession E.toSdk sid id e).1.issued ∧
      ∀ s ∈ asked (w.gameLift.removePlayerSession E.toSdk sid id e).1.issued,
        s ∉ (w.gameLift.removePlayerSession E.toSdk sid id e).1.mPlayerSessions := by
  obtain ⟨-, -, hm⟩ := GameLiftManager.removePlayerSession_counts (S := E.toSdk) sid id w.gameLift e
  have hrefused := (GameLiftManager.noRefusal_remove hr).2
  have hsub : (w.gameLift.removePlayerSession E.toSdk sid id e).1.mPlayerSessions ⊆
      w.gameLift.mPlayerSessions := by
    rw [hm]
    split_ifs
    · exact Finset.erase_subset ..
    · exact Finset.Subset.refl _
  have hout : sid ∉ (w.gameLift.removePlayerSession E.toSdk sid id e).1.mPlayerSessions := by
    rw [hm]
    split_ifs with hok
    · exact Finset.notMem_erase sid _
    · rw [h.trail]
      exact hrefused (by simpa using hok)
  refine ⟨hsub, hout, ?_, ?_⟩
  · rw [hm, GameLiftManager.present_remove, h.trail]
  · rw [GameLiftManager.asked_remove]
    intro s hs
    rcases Finset.mem_insert.mp hs with rfl | hs
    · exact hout
    · exact fun hin => h.gone s hs (hsub hin)

theorem standing_stable :
    Stable E fun w : Server ε => NoRefusal w.gameLift.issued → Standing w := by
  refine .of_closed ?_ ?_ ?_
  · intro w w' hq h hr
    exact (h (hq.gameLift ▸ hr)).quiet hq
  · intro w sid hc hid h hr
    have hw := h hr
    have hout : sid ∉ w.gameLift.mPlayerSessions := fun hin => (hw.members sid hin).2 hid
    exact hw.closed hc w.env (Finset.Subset.refl _) hout hw.trail hw.gone
  · intro w sid hc _ h hr
    have hw := h (GameLiftManager.noRefusal_remove hr).1
    obtain ⟨hsub, hout, htrail, hgone⟩ := hw.afterRemoval hr
    exact hw.closed hc _ hsub hout htrail hgone

theorem Standing.createClient {w : Server ε} (h : Standing w) {sock : Socket} {sid : SessionId}
    {send recv : Block} (hf : w.fault = none) (hfresh : sid ∉ w.allocated)
    (hlive : ∀ s, w.Live s → (w.sessions s).mSocket ≠ sock) :
    Standing ((w.createClient sock sid send recv).onConnect sid) := by
  have hsock : sock ∉ w.mClientList.keys := by
    intro hk
    obtain ⟨s, -, hv, hs⟩ := h.clients hf sock hk
    exact hlive s (Or.inr ⟨sock, hk, hv⟩) hs
  have hlist : ((w.createClient sock sid send recv).onConnect sid).mClientList =
      ⟨insert sock w.mClientList.keys, Function.update w.mClientList.value sock (some sid)⟩ :=
    if_neg hsock
  have hold : ∀ s, s ∈ w.allocated → ((w.createClient sock sid send recv).onConnect sid).sessions s =
      w.sessions s := by
    intro s hs
    rw [created_sessions, if_neg]
    exact fun he => hfresh (he ▸ hs)
  have hmem : ∀ s ∈ w.gameLift.mPlayerSessions, s ∈ w.allocated := fun s hs =>
    (h.listed s (h.members s hs).1).1
  refine ⟨fun s hs => ?_, fun _ k hk => ?_, fun s hs => ?_, h.trail, h.gone⟩
  · rw [hlist]
    by_cases hne : s = sid
    · rw [created_sessions, if_pos hne]
      exact ⟨Finset.mem_insert.mpr (Or.inl hne), Finset.mem_insert_self ..,
        hne ▸ Function.update_self ..⟩
    · rw [created_sessions, if_neg hne] at hs ⊢
      obtain ⟨ha, hk, hv⟩ := h.listed s hs
      have hks : (w.sessions s).mSocket ≠ sock := fun he => hsock (he ▸ hk)
      exact ⟨Finset.mem_insert_of_mem ha, Finset.mem_insert_of_mem hk,
        (Function.update_of_ne hks ..).trans hv⟩
  · rw [hlist] at hk ⊢
    rcases Finset.mem_insert.mp hk with rfl | hk
    · exact ⟨sid, Finset.mem_insert_self .., Function.update_self ..,
        by rw [created_sessions, if_pos rfl]⟩
    · obtain ⟨s, ha, hv, hs⟩ := h.clients hf k hk
      have hks : k ≠ sock := fun he => hsock (he ▸ hk)
      exact ⟨s, Finset.mem_insert_of_mem ha, (Function.update_of_ne hks ..).trans hv,
        by rw [hold s ha, hs]⟩
  · rw [hold s (hmem s hs)]
    exact h.members s hs

theorem upheld_standing :
    Upheld E (LoginFits E) fun w : Server ε => NoRefusal w.gameLift.issued → Standing w where
  stable := standing_stable
  receive := by
    intro w sid b h hr
    exact (h hr).congr (by simp) (by simp) (by simp) rfl rfl rfl rfl rfl fun hf => hf
  lookup := by
    intro w sock hf h
    rcases startReceive_cases w sock with ⟨sid, -, -, he⟩ | ⟨f, he⟩ | ⟨hk, he⟩ <;> rw [he]
    · exact h
    · exact standing_stable.quiet (quiet_raise (E := E) w f) h
    · intro hr
      have hw := h hr
      refine ⟨fun s hs => ?_, fun hn => absurd hn (raise_fault _ _), hw.members, hw.trail, hw.gone⟩
      obtain ⟨ha, hin, hv⟩ := hw.listed s hs
      have hne : (w.sessions s).mSocket ≠ sock := fun he => hk (he ▸ hin)
      exact ⟨ha, Finset.mem_insert_of_mem hin, (Function.update_of_ne hne ..).trans hv⟩
  create := by
    intro w sock sid send recv hf hfresh hlive h hr
    exact (h hr).createClient hf hfresh hlive
  accepted := by
    intro w sid id b _ hg hh h hok hr
    obtain ⟨hc, hid, hasked⟩ := hg sid id b rfl hh hok
    rw [Server.answered] at hr ⊢
    change (E.acceptPlayerSession id (w.setRecv sid b).env).1 = true at hok
    simp only [hok, if_true] at hr ⊢
    have hw := h hr
    refine ⟨fun s hs => ?_, fun hf k hk => ?_, fun s hs => ?_, ?_, fun s hs hin => ?_⟩
    · rw [setId_connected, setRecv_connected] at hs
      rw [setId_socket, setRecv_socket]
      exact hw.listed s hs
    · obtain ⟨s, ha, hv, hs⟩ := hw.clients hf k hk
      refine ⟨s, ha, hv, ?_⟩
      rw [setId_socket, setRecv_socket, hs]
    · rw [setId_connected, setRecv_connected, setId_id, setRecv_id]
      by_cases hne : s = sid
      · rw [if_pos hne, hne]
        exact ⟨hc, hid⟩
      · rw [if_neg hne]
        exact hw.members s (Finset.mem_of_mem_insert_of_ne hs hne)
    · exact congrArg (insert sid) hw.trail
    · rcases Finset.mem_insert.mp hin with rfl | hin
      · exact hasked hs
      · exact hw.gone s hs hin
  rejected := by
    intro w sid id b _ _ _ h hok hr
    rw [Server.answered] at hr ⊢
    change (E.acceptPlayerSession id (w.setRecv sid b).env).1 = false at hok
    simp only [hok, Bool.false_eq_true, if_false] at hr ⊢
    exact (h hr).congr (by simp) (by simp) (by simp) rfl rfl rfl rfl rfl fun hf => hf
  removed := by
    intro w sid id b _ _ _ h hr
    have hw := h (GameLiftManager.noRefusal_remove hr).1
    have hrecv : Standing (w.setRecv sid b) :=
      hw.congr (by simp) (by simp) (by simp) rfl rfl rfl rfl rfl fun hf => hf
    obtain ⟨hsub, hout, htrail, hgone⟩ := hrecv.afterRemoval hr
    exact hrecv.clearId _ hsub hout htrail hgone
  started := by
    intro w h hr
    exact (h hr).congr (fun _ => rfl) (fun _ => rfl) (fun _ => rfl) rfl rfl rfl rfl rfl fun hf => hf
  terminated := by
    intro w h hr
    exact (h hr).congr (fun _ => rfl) (fun _ => rfl) (fun _ => rfl) rfl rfl rfl rfl rfl fun hf => hf
  outside := by
    intro w e _ h hr
    exact (h hr).congr (fun _ => rfl) (fun _ => rfl) (fun _ => rfl) rfl rfl rfl rfl rfl fun hf => hf

theorem upheld_disconnected (s : SessionId) :
    Upheld E (fun _ => True) fun w : Server ε =>
      s ∈ w.allocated ∧ (w.sessions s).mConnected = false where
  stable := by
    have hclosed : ∀ {w : Server ε} {sid} (m : GameLiftManager) (e : ε),
        s ∈ w.allocated ∧ (w.sessions s).mConnected = false →
          s ∈ (w.closed sid m e).allocated ∧ ((w.closed sid m e).sessions s).mConnected = false := by
      intro w sid m e h
      refine ⟨h.1, ?_⟩
      rw [closed_connected]
      split_ifs
      · rfl
      · exact h.2
    refine .of_closed ?_ (fun _ _ h => hclosed _ _ h) (fun _ _ h => hclosed _ _ h)
    intro w w' hq h
    exact ⟨hq.allocated ▸ h.1, (hq.connected s).trans h.2⟩
  receive h := ⟨h.1, (setRecv_connected ..).trans h.2⟩
  lookup := by
    intro w sock _ h
    rcases startReceive_cases w sock with ⟨sid, -, -, he⟩ | ⟨f, he⟩ | ⟨-, he⟩ <;> rw [he] <;> exact h
  create := by
    intro w sock sid send recv _ hfresh _ h
    refine ⟨Finset.mem_insert_of_mem h.1, ?_⟩
    have hne : s ≠ sid := fun he => hfresh (he ▸ h.1)
    rw [created_sessions, if_neg hne]
    exact h.2
  accepted := by
    intro w sid id b _ _ _ h _
    rw [setId_connected]
    exact ⟨h.1, (setRecv_connected ..).trans h.2⟩
  rejected := by
    intro w sid id b _ _ _ h _
    exact ⟨h.1, (setRecv_connected ..).trans h.2⟩
  removed := by
    intro w sid id b _ _ _ h
    rw [setId_connected]
    exact ⟨h.1, (setRecv_connected ..).trans h.2⟩
  started h := h
  terminated h := h
  outside _ h := h

theorem upheld_asked (s : SessionId) :
    Upheld E (fun _ => True) fun w : Server ε => s ∈ asked w.gameLift.issued where
  stable := by
    refine .of_closed (fun hq h => hq.gameLift ▸ h) (fun _ _ h => h) ?_
    intro w sid _ _ h
    change s ∈ asked (w.gameLift.removePlayerSession E.toSdk sid _ w.env).1.issued
    rw [GameLiftManager.asked_remove]
    exact Finset.mem_insert_of_mem h
  receive h := h
  lookup := by
    intro w sock _ h
    rcases startReceive_cases w sock with ⟨sid, -, -, he⟩ | ⟨f, he⟩ | ⟨-, he⟩ <;> rw [he] <;> exact h
  create _ _ _ h := h
  accepted := by
    intro w sid id b _ _ _ h _
    exact h
  rejected := by
    intro w sid id b _ _ _ h _
    exact h
  removed := by
    intro w sid id b _ _ _ h
    change s ∈ asked (w.gameLift.removePlayerSession E.toSdk sid id w.env).1.issued
    rw [GameLiftManager.asked_remove]
    exact Finset.mem_insert_of_mem h
  started h := h
  terminated h := h
  outside _ h := h

/-- The condition on a step: logins that are accepted fit, and removals of
sessions in the game are not refused. -/
def MembersFit (E : Env ε) (c c' : Config ε) : Prop :=
  LoginFits E c ∧ NoRefusal c'.server.gameLift.issued

theorem standing_of_reachable {c : Config ε} (h : Reachable E (MembersFit E) c) :
    Standing c.server := by
  have hr : NoRefusal c.server.gameLift.issued := by
    cases h with
    | init hi =>
      rw [hi.gameLift]
      trivial
    | step _ _ _ hok => exact hok.2
  refine Reachable.invariant upheld_standing ?_ (fun _ _ hok => hok.1) h hr
  intro w hi _
  refine ⟨fun s hs => ?_, fun _ k hk => ?_, ?_, ?_, ?_⟩
  · rw [hi.connected s] at hs
    cases hs
  · rw [hi.clients] at hk
    cases hk
  · rw [hi.gameLift]
    intro s hs
    cases hs
  · rw [hi.gameLift]
    rfl
  · rw [hi.gameLift]
    intro s hs
    cases hs

/-- In every state of such a run the members are connected, listed under their
own socket and hold an id; a session that was disconnected or logged out is not
a member, then or later. -/
theorem members_live (E : Env ε) (c : Config ε) (h : Reachable E (MembersFit E) c) :
    (∀ s ∈ c.server.gameLift.mPlayerSessions, (c.server.sessions s).mConnected = true ∧
      (c.server.sessions s).mSocket ∈ c.server.mClientList.keys ∧
      c.server.mClientList.value (c.server.sessions s).mSocket = some s ∧
      (c.server.sessions s).mPlayerSessionId ≠ []) ∧
    ∀ s c', Onward E (MembersFit E) c c' →
      ((s ∈ c.server.allocated ∧ (c.server.sessions s).mConnected = false) ∨
        s ∈ asked c.server.gameLift.issued) → s ∉ c'.server.gameLift.mPlayerSessions := by
  refine ⟨fun s hs => ?_, fun s c' hon hgone hin => ?_⟩
  · have hst := standing_of_reachable h
    obtain ⟨hc, hid⟩ := hst.members s hs
    obtain ⟨-, hk, hv⟩ := hst.listed s hc
    exact ⟨hc, hk, hv, hid⟩
  -- Neither a disconnected session nor one asked to leave is ever undone.
  · rcases hgone with hgone | hgone
    · obtain ⟨hr, -, hd⟩ := h.onward (upheld_disconnected s) (fun _ _ _ => trivial) hon hgone
      have hc := ((standing_of_reachable hr).members s hin).1
      rw [hd] at hc
      cases hc
    · obtain ⟨hr, ha⟩ := h.onward (upheld_asked s) (fun _ _ _ => trivial) hon hgone
      exact (standing_of_reachable hr).gone s ha hin

theorem members_live_login :
    ∃ w, Reachable playback (MembersFit playback) ⟨w, .dispatching 0⟩ ∧
      0 ∈ w.gameLift.mPlayerSessions ∧ (w.sessions 0).mConnected = true ∧
      (w.sessions 0).mSocket ∈ w.mClientList.keys ∧
      w.mClientList.value (w.sessions 0).mSocket = some 0 := by
  have hquiet : ∀ c c' : Config Playback, (∀ sid, c.control ≠ .dispatching sid) →
      c'.server.gameLift = .initialized → MembersFit playback c c' := by
    intro c c' hc hm
    refine ⟨fun sid _ _ he => absurd he (hc sid), ?_⟩
    rw [hm]
    trivial
  have hjoin := joined_reachable (fun c c' hc => hquiet c c' (by simp [hc])) [[1]]
    [.data (loginRequest 1).toBytes]
  have hin : ([1] : PlayerId) ∈ [[1]] := List.mem_singleton_self _
  obtain ⟨v, b, w, hrecv, hv, hh, hstep, hw⟩ := joined_login (by decide) hin
  have hready : Step playback ⟨joined [[1]] [.data (loginRequest 1).toBytes], .receiving 0⟩
      ⟨v, .dispatching 0⟩ := hrecv ▸ .receive
  have hread := hjoin.step rfl hready (hquiet _ _ (by simp) hv.gameLift)
  have hfit : MembersFit playback ⟨v, .dispatching 0⟩ ⟨w, .dispatching 0⟩ := by
    refine ⟨?_, ?_⟩
    · rintro sid id b' ⟨⟩ hh' -
      obtain ⟨-, rfl⟩ := hh'.unique hh
      refine ⟨hv.connected, by simp, ?_⟩
      rw [hv.gameLift]
      exact Finset.notMem_empty 0
    · rw [hw.gameLift]
      trivial
  have hhandled : Step playback ⟨v, .dispatching 0⟩ ⟨w, .dispatching 0⟩ := hstep ▸ .dispatch
  have hlogin := hread.step hv.fault hhandled hfit
  have hmem : 0 ∈ w.gameLift.mPlayerSessions := by
    rw [hw.gameLift]
    exact Finset.mem_insert_self ..
  obtain ⟨hc, hk, hl, -⟩ := (members_live playback _ hlogin).1 0 hmem
  exact ⟨w, hlogin, hmem, hc, hk, hl⟩

/-- Two logins in one read: the first is refused and the session disconnected,
the second is accepted all the same. -/
theorem members_dead :
    Reachable playback Free ⟨joined [[2]]
      [.data ((loginRequest 1).toBytes ++ (loginRequest 2).toBytes)], .receiving 0⟩ ∧
    ∃ w, Onward playback Free ⟨joined [[2]]
        [.data ((loginRequest 1).toBytes ++ (loginRequest 2).toBytes)], .receiving 0⟩
        ⟨w, .idle⟩ ∧ w.fault = none ∧
      0 ∈ w.gameLift.mPlayerSessions ∧ (w.sessions 0).mConnected = false := by
  refine ⟨joined_reachable (fun _ _ _ _ => trivial) _ _, ?_⟩
  obtain ⟨w₁, hrecv, h₁⟩ := joined_receive [[2]]
    (show ((loginRequest 1).toBytes ++ (loginRequest 2).toBytes).length ≤ 4096 by
      simp [loginRequest_length])
  obtain ⟨w₂, hrefused, h₂⟩ := h₁.login_refused (by decide) (by decide)
  rw [← List.append_nil (loginRequest 2).toBytes] at h₂
  obtain ⟨w₃, haccepted, h₃⟩ := h₂.login_dead (by decide) rfl
  obtain ⟨w₄, hdrained, h₄⟩ := h₃.drained rfl
  refine ⟨w₄, ?_, h₄.fault, ?_, h₄.connected⟩
  · have hread := onward_receive rfl hrecv
    have hfirst := onward_dispatch h₁.fault hrefused
    have hsecond := onward_dispatch h₂.fault haccepted
    have hend := onward_dispatch h₃.fault h₃.waits
    exact (((hread.trans hfirst).trans hsecond).trans hend).trans
      (onward_receive h₃.fault hdrained)
  · rw [h₄.gameLift]
    exact Finset.mem_insert_self ..

end Server

end GameLift
