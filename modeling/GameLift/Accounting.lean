import GameLift.Playback

/-! Who is in the game, three times over: the two counters, the set of sessions
and the service's table of ids. They agree as long as a session in the game
does not log in again and a logout is for the session's own id. -/

namespace GameLift

open Server

variable {ε : Type} {E : Env ε} {status : ε → PlayerId → Status}

/-- Only the service's own requests make an id active or inactive, and none is
active when the server starts. -/
structure Service (E : Env ε) (status : ε → PlayerId → Status) : Prop where
  lawful : Lawful E.toSdk status
  kernel : ∀ {e e'}, KernelStep E e e' → activeIds status e' = activeIds status e
  outside : ∀ {e e'}, E.evolves e e' → activeIds status e' = activeIds status e
  starts : ∀ {e}, E.starts e → activeIds status e = ∅

theorem Service.quiet (hS : Service E status) {w w' : Server ε} (hq : Quiet E w w') :
    activeIds status w'.env = activeIds status w.env := by
  have hkernel : ∀ {e}, Relation.ReflTransGen (KernelStep E) w.env e →
      activeIds status e = activeIds status w.env := by
    intro e he
    induction he with
    | refl => rfl
    | tail _ hs ih => exact (hS.kernel hs).trans ih
  exact hkernel hq.env

namespace Server

/-- The active ids are those of the sessions in the game, each of one session. -/
structure Accounted (status : ε → PlayerId → Status) (w : Server ε) : Prop where
  counted : Counted status w.gameLift.mAcceptedCount w.gameLift.mRemovedCount w.env
  allocated : w.gameLift.mPlayerSessions ⊆ w.allocated
  held : ∀ id, id ∈ activeIds status w.env ↔
    ∃ s ∈ w.gameLift.mPlayerSessions, (w.sessions s).mPlayerSessionId = id
  single : ∀ s ∈ w.gameLift.mPlayerSessions, ∀ t ∈ w.gameLift.mPlayerSessions,
    (w.sessions s).mPlayerSessionId = (w.sessions t).mPlayerSessionId → s = t
  absent : ∀ s ∉ w.gameLift.mPlayerSessions, (w.sessions s).mPlayerSessionId = []

namespace Accounted

theorem congr {w w' : Server ε} (h : Accounted status w)
    (hids : ∀ s, (w'.sessions s).mPlayerSessionId = (w.sessions s).mPlayerSessionId)
    (hacc : w'.gameLift.mAcceptedCount = w.gameLift.mAcceptedCount)
    (hrem : w'.gameLift.mRemovedCount = w.gameLift.mRemovedCount)
    (hin : w'.gameLift.mPlayerSessions = w.gameLift.mPlayerSessions)
    (hall : w.allocated ⊆ w'.allocated)
    (hact : activeIds status w'.env = activeIds status w.env) : Accounted status w' where
  counted := by
    rw [hacc, hrem]
    exact h.counted.of_eq hact
  allocated := hin ▸ h.allocated.trans hall
  held id := by
    simp only [hact, hin, hids]
    exact h.held id
  single := by
    simp only [hin, hids]
    exact h.single
  absent := by
    simp only [hin, hids]
    exact h.absent

theorem seat {w w' : Server ε} (h : Accounted status w) (hS : Lawful E.toSdk status)
    {sid : SessionId} {id : PlayerId} (hout : sid ∉ w.gameLift.mPlayerSessions)
    (hsid : sid ∈ w.allocated) (hok : (E.acceptPlayerSession id w.env).1 = true)
    (hids : ∀ s, (w'.sessions s).mPlayerSessionId =
      if s = sid then id else (w.sessions s).mPlayerSessionId)
    (hacc : w'.gameLift.mAcceptedCount = w.gameLift.mAcceptedCount + 1)
    (hrem : w'.gameLift.mRemovedCount = w.gameLift.mRemovedCount)
    (hin : w'.gameLift.mPlayerSessions = insert sid w.gameLift.mPlayerSessions)
    (hall : w'.allocated = w.allocated)
    (henv : w'.env = (E.acceptPlayerSession id w.env).2) : Accounted status w' := by
  have hne : ∀ s ∈ w.gameLift.mPlayerSessions, s ≠ sid := fun s hs he => hout (he ▸ hs)
  have hkeep : ∀ s ∈ w.gameLift.mPlayerSessions,
      (w'.sessions s).mPlayerSessionId = (w.sessions s).mPlayerSessionId := by
    intro s hs
    rw [hids, if_neg (hne s hs)]
  have hself : (w'.sessions sid).mPlayerSessionId = id := by rw [hids, if_pos rfl]
  have hactive : activeIds status w'.env = insert id (activeIds status w.env) := by
    rw [henv, hS.activeIds_accept, if_pos hok]
  have hfresh : ∀ s ∈ w.gameLift.mPlayerSessions, (w.sessions s).mPlayerSessionId ≠ id := by
    intro s hs he
    have hact : id ∈ activeIds status w.env := (h.held id).mpr ⟨s, hs, he⟩
    have hres := (hS.accept_ok id w.env).mp hok
    rw [activeIds, Set.mem_ofPred_eq, hres] at hact
    cases hact
  refine ⟨?_, ?_, fun x => ?_, ?_, ?_⟩
  · have hc := h.counted.accept hS id
    rw [if_pos hok] at hc
    rwa [hacc, hrem, henv]
  · rw [hin, hall]
    exact Finset.insert_subset hsid h.allocated
  · rw [hactive, hin, Set.mem_insert_iff, Finset.exists_mem_insert, hself, h.held x]
    constructor
    · rintro (rfl | ⟨s, hs, hx⟩)
      · exact Or.inl rfl
      · exact Or.inr ⟨s, hs, (hkeep s hs).trans hx⟩
    · rintro (rfl | ⟨s, hs, hx⟩)
      · exact Or.inl rfl
      · exact Or.inr ⟨s, hs, (hkeep s hs).symm.trans hx⟩
  · rw [hin]
    intro s hs t ht he
    rcases Finset.mem_insert.mp hs with hs | hs <;> rcases Finset.mem_insert.mp ht with ht | ht
    · rw [hs, ht]
    · rw [hs, hself, hkeep t ht] at he
      exact absurd he.symm (hfresh t ht)
    · rw [ht, hself, hkeep s hs] at he
      exact absurd he (hfresh s hs)
    · rw [hkeep s hs, hkeep t ht] at he
      exact h.single s hs t ht he
  · intro s hs
    rw [hin, Finset.mem_insert, not_or] at hs
    rw [hids, if_neg hs.1]
    exact h.absent s hs.2

theorem unseat {w w' : Server ε} (h : Accounted status w) (hS : Lawful E.toSdk status)
    {sid : SessionId} {id : PlayerId} (hsid : sid ∈ w.gameLift.mPlayerSessions)
    (hown : (w.sessions sid).mPlayerSessionId = id)
    (hids : ∀ s, (w'.sessions s).mPlayerSessionId =
      if s = sid then [] else (w.sessions s).mPlayerSessionId)
    (hm : w'.gameLift = (w.gameLift.removePlayerSession E.toSdk sid id w.env).1)
    (hall : w'.allocated = w.allocated)
    (henv : w'.env = (w.gameLift.removePlayerSession E.toSdk sid id w.env).2) :
    Accounted status w' := by
  have hact : id ∈ activeIds status w.env := (h.held id).mpr ⟨sid, hsid, hown⟩
  have hok : (E.removePlayerSession id w.env).1 = true := (hS.remove_ok id w.env).mpr hact
  obtain ⟨hacc, hrem, hin⟩ :=
    GameLiftManager.removePlayerSession_counts (S := E.toSdk) sid id w.gameLift w.env
  rw [if_pos hok] at hrem hin
  rw [← hm] at hacc hrem hin
  have hactive := hS.activeIds_removePlayerSession sid id w.gameLift w.env
  rw [if_pos hok, ← henv] at hactive
  have hkeep : ∀ s, s ≠ sid →
      (w'.sessions s).mPlayerSessionId = (w.sessions s).mPlayerSessionId := by
    intro s hs
    rw [hids, if_neg hs]
  refine ⟨?_, ?_, fun x => ?_, ?_, ?_⟩
  · have hc := h.counted.remove hS id
    rw [if_pos hok] at hc
    rw [hacc, hrem]
    refine hc.of_eq ?_
    rw [hactive, hS.activeIds_remove, if_pos hok]
  · rw [hin, hall]
    exact (Finset.erase_subset ..).trans h.allocated
  · rw [hactive, hin, Set.mem_sdiff, Set.mem_singleton_iff, h.held x]
    constructor
    · rintro ⟨⟨s, hs, hx⟩, hne⟩
      have hss : s ≠ sid := fun he => hne (by rw [← hx, he, hown])
      exact ⟨s, Finset.mem_erase.mpr ⟨hss, hs⟩, (hkeep s hss).trans hx⟩
    · rintro ⟨s, hs, hx⟩
      obtain ⟨hss, hs⟩ := Finset.mem_erase.mp hs
      rw [hkeep s hss] at hx
      exact ⟨⟨s, hs, hx⟩, fun he => hss (h.single s hs sid hsid (by rw [hx, he, hown]))⟩
  · rw [hin]
    intro s hs t ht he
    obtain ⟨hss, hs⟩ := Finset.mem_erase.mp hs
    obtain ⟨htt, ht⟩ := Finset.mem_erase.mp ht
    rw [hkeep s hss, hkeep t htt] at he
    exact h.single s hs t ht he
  · intro s hs
    by_cases hss : s = sid
    · rw [hids, if_pos hss]
    · rw [hkeep s hss]
      exact h.absent s fun hs' => hs (hin ▸ Finset.mem_erase.mpr ⟨hss, hs'⟩)

end Accounted

/-- A login with a reserved id comes from a session that is not in the game; a
logout with an active id comes from the session that holds it, and any other
logout from one that holds none. -/
structure SeatsFit (E : Env ε) (status : ε → PlayerId → Status) (c : Config ε) : Prop where
  login : ∀ sid id b, c.control = .dispatching sid → c.server.Handles sid .login id b →
    status c.server.env id = .reserved → sid ∉ c.server.gameLift.mPlayerSessions
  logout : ∀ sid id b, c.control = .dispatching sid → c.server.Handles sid .exit id b →
    status c.server.env id = .active → sid ∈ c.server.gameLift.mPlayerSessions ∧
      (c.server.sessions sid).mPlayerSessionId = id
  leave : ∀ sid id b, c.control = .dispatching sid → c.server.Handles sid .exit id b →
    status c.server.env id ≠ .active → (c.server.sessions sid).mPlayerSessionId = []

theorem accounted_stable (hS : Service E status) : Stable E (Accounted status) := by
  refine .of_closed ?_ ?_ ?_
  · intro w w' hq h
    exact h.congr hq.id (by rw [hq.gameLift]) (by rw [hq.gameLift]) (by rw [hq.gameLift])
      hq.allocated.ge (hS.quiet hq)
  · intro w sid _ hid h
    refine h.congr (fun s => ?_) rfl rfl rfl (Finset.Subset.refl _) rfl
    rw [closed_id]
    split_ifs with hs
    · rw [hs, hid]
    · rfl
  · intro w sid _ hid h
    have hsid : sid ∈ w.gameLift.mPlayerSessions := by
      by_contra hout
      exact hid (h.absent sid hout)
    exact h.unseat hS.lawful hsid rfl (fun s => closed_id ..) rfl rfl rfl

theorem upheld_accounted (hS : Service E status) :
    Upheld E (SeatsFit E status) (Accounted status) where
  stable := accounted_stable hS
  receive h := h.congr (fun _ => setRecv_id ..) rfl rfl rfl (Finset.Subset.refl _) rfl
  lookup := by
    intro w sock _ h
    rcases startReceive_cases w sock with ⟨sid, -, -, he⟩ | ⟨f, he⟩ | ⟨-, he⟩ <;> rw [he]
    · exact h
    · exact h.congr (fun _ => rfl) rfl rfl rfl (Finset.Subset.refl _) rfl
    · exact h.congr (fun _ => rfl) rfl rfl rfl (Finset.Subset.refl _) rfl
  create := by
    intro w sock sid send recv _ hfresh _ h
    refine h.congr (fun s => ?_) rfl rfl rfl (Finset.subset_insert ..) rfl
    rw [created_sessions]
    split_ifs with hs
    · rw [hs, h.absent sid fun hin => hfresh (h.allocated hin)]
    · rfl
  accepted := by
    intro w sid id b hsid hg hh h hok
    have hout := hg.login sid id b rfl hh ((hS.lawful.accept_ok id w.env).mp hok)
    have hok' : (E.acceptPlayerSession id (w.setRecv sid b).env).1 = true := hok
    rw [Server.answered, hok']
    refine h.seat hS.lawful hout hsid hok (fun s => ?_) rfl rfl rfl rfl rfl
    rw [setId_id, setRecv_id]
  rejected := by
    intro w sid id b _ _ _ h hok
    have hok' : (E.acceptPlayerSession id (w.setRecv sid b).env).1 = false := hok
    have hact := hS.lawful.activeIds_accept id w.env
    rw [hok, if_neg Bool.false_ne_true] at hact
    rw [Server.answered, hok']
    exact h.congr (fun _ => setRecv_id ..) (Int.add_zero _) rfl rfl (Finset.Subset.refl _) hact
  removed := by
    intro w sid id b _ hg hh h
    -- An id that is not active is refused, and then only the session's own id is cleared.
    by_cases hact : status w.env id = .active
    · obtain ⟨hsid, hown⟩ := hg.logout sid id b rfl hh hact
      refine h.unseat hS.lawful hsid hown (fun s => ?_) rfl rfl rfl
      rw [setId_id]
      exact if_congr Iff.rfl rfl (setRecv_id ..)
    · have hown := hg.leave sid id b rfl hh hact
      have hno : (E.removePlayerSession id w.env).1 ≠ true :=
        fun hok => hact ((hS.lawful.remove_ok id w.env).mp hok)
      obtain ⟨hacc, hrem, hin⟩ :=
        GameLiftManager.removePlayerSession_counts (S := E.toSdk) sid id w.gameLift w.env
      have hsame := hS.lawful.activeIds_removePlayerSession sid id w.gameLift w.env
      rw [if_neg hno] at hrem hin hsame
      refine h.congr (fun s => ?_) hacc (hrem.trans (Int.add_zero _)) hin (Finset.Subset.refl _)
        hsame
      rw [setId_id]
      split_ifs with hs
      · rw [hs, hown]
      · exact setRecv_id ..
  started h := h.congr (fun _ => rfl) rfl rfl rfl (Finset.Subset.refl _)
    (by simp only [activeIds, onStartGameSession, GameLiftManager.onStartGameSession,
      hS.lawful.activate])
  terminated := by
    intro w h
    have hact := hS.lawful.activeIds_end w.gameLift w.env
    exact h.congr (fun _ => rfl) rfl rfl rfl (Finset.Subset.refl _) hact
  outside he h := h.congr (fun _ => rfl) rfl rfl rfl (Finset.Subset.refl _) (hS.outside he)

theorem accounted_of_reachable (hS : Service E status) {c : Config ε}
    (h : Reachable E (fun c _ => SeatsFit E status c) c) : Accounted status c.server := by
  refine Reachable.invariant (upheld_accounted hS) ?_ (fun _ _ hok => hok) h
  intro w hi
  have hnone : w.gameLift.mPlayerSessions = ∅ := by rw [hi.gameLift]; rfl
  have hact := hS.starts hi.env
  refine ⟨⟨?_, ?_⟩, ?_, fun id => ?_, ?_, fun s _ => hi.id s⟩
  · rw [hact]
    exact Set.finite_empty
  · rw [hact, hi.gameLift, Set.ncard_empty]
    rfl
  · rw [hnone]
    exact Finset.empty_subset _
  · simp [hact, hnone]
  · simp [hnone]

/-- In every state of such a run the counters differ by the number of sessions
in the game, which is the number of active ids, and an active id is held by
exactly one of these sessions. -/
theorem accounting_exact (E : Env ε) (status : ε → PlayerId → Status) (hS : Service E status)
    (c : Config ε) (h : Reachable E (fun c _ => SeatsFit E status c) c) :
    c.server.gameLift.mAcceptedCount - c.server.gameLift.mRemovedCount =
        c.server.gameLift.mPlayerSessions.card ∧
      (activeIds status c.server.env).Finite ∧
      c.server.gameLift.mAcceptedCount - c.server.gameLift.mRemovedCount =
        (activeIds status c.server.env).ncard ∧
      ∀ id ∈ activeIds status c.server.env, ∃! s, s ∈ c.server.gameLift.mPlayerSessions ∧
        (c.server.sessions s).mPlayerSessionId = id := by
  have ha := accounted_of_reachable hS h
  have himage : activeIds status c.server.env =
      (fun s => (c.server.sessions s).mPlayerSessionId) ''
        (c.server.gameLift.mPlayerSessions : Set SessionId) := by
    ext id
    rw [ha.held id]
    rfl
  have hcard : (activeIds status c.server.env).ncard = c.server.gameLift.mPlayerSessions.card := by
    have hinj : Set.InjOn (fun s => (c.server.sessions s).mPlayerSessionId)
        (c.server.gameLift.mPlayerSessions : Set SessionId) := fun s hs t ht he =>
      ha.single s hs t ht he
    rw [himage, hinj.ncard_image, Set.ncard_coe_finset]
  refine ⟨hcard ▸ ha.counted.diff, ha.counted.finite, ha.counted.diff, fun id hid => ?_⟩
  obtain ⟨s, hs, he⟩ := (ha.held id).mp hid
  exact ⟨s, ⟨hs, he⟩, fun t ht => ha.single t ht.1 s hs (ht.2.trans he.symm)⟩

theorem playback_service : Service playback Playback.status where
  lawful := ledger_lawful
  kernel := by
    intro e e' h
    cases h with
    | setLinger => rfl
    | write => rfl
    | @read sock len =>
      simp only [playback]
      cases e.reads <;> rfl
  outside h := h.elim
  starts h := Set.eq_empty_of_forall_notMem fun id hid => h id hid

theorem accounting_exact_login :
    ∃ w, Reachable playback (fun c _ => SeatsFit playback Playback.status c)
        ⟨w, .dispatching 0⟩ ∧
      w.gameLift.mAcceptedCount - w.gameLift.mRemovedCount = 1 ∧
      w.gameLift.mPlayerSessions = {0} ∧ (activeIds Playback.status w.env).ncard = 1 := by
  have hquiet : ∀ c : Config Playback, (∀ sid, c.control ≠ .dispatching sid) →
      SeatsFit playback Playback.status c := fun c hc =>
    ⟨fun sid _ _ he => absurd he (hc sid), fun sid _ _ he => absurd he (hc sid),
      fun sid _ _ he => absurd he (hc sid)⟩
  have hjoin : Reachable playback (fun c _ => SeatsFit playback Playback.status c)
      ⟨joined [[1]] [.data (loginRequest 1).toBytes], .receiving 0⟩ :=
    joined_reachable (fun c _ hc _ => hquiet c (by simp [hc])) _ _
  have hone : ([1] : PlayerId) ∈ [[1]] := List.mem_singleton_self _
  obtain ⟨v, b, w, hrecv, hv, hh, hstep, hw⟩ := joined_login (by decide) hone
  have hready : Step playback ⟨joined [[1]] [.data (loginRequest 1).toBytes], .receiving 0⟩
      ⟨v, .dispatching 0⟩ := hrecv ▸ .receive
  have hread := hjoin.step rfl hready (hquiet _ (by simp))
  have hfit : SeatsFit playback Playback.status ⟨v, .dispatching 0⟩ := by
    have hexit : ∀ {sid id b'}, Control.dispatching 0 = .dispatching sid →
        ¬ v.Handles sid .exit id b' := by
      rintro sid id b' ⟨⟩ hh'
      cases (hh'.unique hh).1
    refine ⟨?_, fun sid _ _ he hh' => absurd hh' (hexit he),
      fun sid _ _ he hh' => absurd hh' (hexit he)⟩
    rintro sid id b' ⟨⟩ - -
    rw [hv.gameLift]
    exact Finset.notMem_empty 0
  have hhandled : Step playback ⟨v, .dispatching 0⟩ ⟨w, .dispatching 0⟩ := hstep ▸ .dispatch
  have hlogin := hread.step hv.fault hhandled hfit
  obtain ⟨hcard, -, hncard, -⟩ := accounting_exact playback _ playback_service _ hlogin
  have hin : w.gameLift.mPlayerSessions = {0} := by
    rw [hw.gameLift]
    rfl
  rw [hncard] at hcard
  simp only [hin, Finset.card_singleton] at hcard hncard
  refine ⟨w, hlogin, hncard.trans hcard, hin, ?_⟩
  exact_mod_cast hcard

/-- A session in the game logs in again: two ids are active and two players
counted, but there is one session, and it holds the second id only. -/
theorem accounting_drifts :
    Reachable playback Free ⟨joined [[1], [2]]
      [.data ((loginRequest 1).toBytes ++ (loginRequest 2).toBytes)], .receiving 0⟩ ∧
    ∃ w, Onward playback Free ⟨joined [[1], [2]]
        [.data ((loginRequest 1).toBytes ++ (loginRequest 2).toBytes)], .receiving 0⟩
        ⟨w, .idle⟩ ∧ w.fault = none ∧
      w.gameLift.mAcceptedCount - w.gameLift.mRemovedCount = 2 ∧
      w.gameLift.mPlayerSessions = {0} ∧ (w.sessions 0).mPlayerSessionId = [2] ∧
      [1] ∈ activeIds Playback.status w.env ∧ [2] ∈ activeIds Playback.status w.env := by
  refine ⟨joined_reachable (fun _ _ _ _ => trivial) _ _, ?_⟩
  obtain ⟨w₁, hrecv, h₁⟩ := joined_receive [[1], [2]]
    (show ((loginRequest 1).toBytes ++ (loginRequest 2).toBytes).length ≤ 4096 by
      simp [loginRequest_length])
  obtain ⟨w₂, hfirst, h₂⟩ := h₁.login_live (by decide) rfl (by omega)
  rw [← List.append_nil (loginRequest 2).toBytes] at h₂
  obtain ⟨w₃, hsecond, h₃⟩ := h₂.login_live (by decide) rfl (by omega)
  obtain ⟨w₄, hdrained, h₄⟩ := h₃.drained rfl
  refine ⟨w₄, ?_, h₄.fault, ?_, ?_, h₄.playerId, ?_, ?_⟩
  · have hread := onward_receive rfl hrecv
    have hlogin := onward_dispatch h₁.fault hfirst
    have hagain := onward_dispatch h₂.fault hsecond
    have hend := onward_dispatch h₃.fault h₃.waits
    exact (((hread.trans hlogin).trans hagain).trans hend).trans
      (onward_receive h₃.fault hdrained)
  · rw [h₄.gameLift]
    rfl
  · rw [h₄.gameLift]
    rfl
  · rw [h₄.env]
    rfl
  · rw [h₄.env]
    rfl

end Server

end GameLift
