import GameLift.WindowsLocks

/-! What the players of the Windows server hear. Many threads send at once, but a
broadcast holds `mLock` from its first member to its last. -/

namespace GameLift

open Instr
open scoped List

/-- `said` has the members present at the start of each broadcast, `heard` what `Write`
has taken of broadcasts into the send buffer of each session. -/
structure Hearing (T ε μ : Type) where
  shared : Shared T ε
  said : List (μ × Finset SessionId)
  heard : SessionId → List μ

namespace Hearing

variable {T ε μ : Type} [DecidableEq T]

/-- The broadcasts that a session was a member for. -/
def due (h : Hearing T ε μ) (s : SessionId) : List μ :=
  (h.said.filter fun m => s ∈ m.2).map Prod.fst

/-- The record after an instruction has led to `x`; `pkt` is the packet of a broadcast
that begins with it. -/
def after (h : Hearing T ε μ) (x : Shared T ε) (ok : Bool) (t : T) (pkt : μ) :
    Instr → Hearing T ε μ
  | .broadcastBody =>
    ⟨x, h.said ++ [(pkt, h.shared.manager.mGameSession.getD ∅)], h.heard⟩
  -- A thread that holds `mLock` calls `PostSend` for the latest broadcast.
  | .writeBuffer s =>
    if ok = true ∧ h.shared.owner .manager = some t then
      ⟨x, h.said, Function.update h.heard s (h.heard s ++ (h.said.getLast?.map Prod.fst).toList)⟩
    else ⟨x, h.said, h.heard⟩
  | _ => ⟨x, h.said, h.heard⟩

end Hearing

variable {T ε μ : Type} [DecidableEq T]

def broadcasters (S : Sdk ε) : Threads.Machine T (Hearing T ε μ) Instr where
  start _ h h' push :=
    h.shared.manager.exitCode = none ∧ h' = h ∧ ∃ i : Instr, i.IsCall ∧ push = [i]
  exec t i h h' push := h.shared.manager.exitCode = none ∧
    ∃ ok x pkt, h.shared.run S ok t i = some (x, push) ∧ h' = h.after x ok t pkt i

abbrev Broadcasters (T ε μ : Type) := Threads.State T (Hearing T ε μ) Instr

namespace Hearing

structure Fresh (h : Hearing T ε μ) : Prop where
  unlocked : h.shared.Unlocked
  said : h.said = []
  heard : ∀ s, h.heard s = []

/-- The latest broadcast has not come to `s` yet, all before it have. -/
def Owed (h : Hearing T ε μ) (s : SessionId) : Prop :=
  ∃ m, h.said.getLast?.map Prod.fst = some m ∧ h.due s = h.heard s ++ [m]

end Hearing

namespace Instr

/-- What a thread that does not hold `mLock` may have to do. -/
def Outside : Instr → Prop
  | acceptBody _ _ | removeBody _ _ | broadcastBody | sendAnswer _ | leave .manager => False
  | _ => True

/-- What may be left of a visit that needs no packet any more. -/
def Harmless : Instr → Prop
  | flushSend _ | leave (.send _) | sendAnswer _ | disconnect _ | answer _ | onDisconnect _
  | removePlayerSession _ _ | clearId _ => True
  | _ => False

def visits (members : List SessionId) : List Instr :=
  members.flatMap fun s => [.postSend s, .sendAnswer s]

end Instr

/-- Where the holder of `mLock` stands, with the members that still need the packet. -/
inductive Phase (h : Hearing T ε μ) (t : T) : List SessionId → List Instr → Prop where
  | entering {i rest} : i = .broadcastBody ∨ (∃ s id, i = .acceptBody s id) ∨
      (∃ s id, i = .removeBody s id) → (∀ j ∈ rest, j.Outside) →
      Phase h t [] (i :: .leave .manager :: rest)
  | visiting {top members rest} : (∀ j ∈ top, j.Harmless) → (∀ j ∈ rest, j.Outside) →
      Phase h t members (top ++ (visits members ++ .leave .manager :: rest))
  | locking {s members rest} : h.Owed s → (∀ j ∈ rest, j.Outside) → Phase h t (s :: members)
      (.lockedSend s :: .sendAnswer s :: (visits members ++ .leave .manager :: rest))
  | writing {s members rest} : h.Owed s → (∀ j ∈ rest, j.Outside) → Phase h t (s :: members)
      (.writeBuffer s :: .leave (.send s) :: .sendAnswer s ::
        (visits members ++ .leave .manager :: rest))
  | refused {s members rest} : h.shared.returned t = false → (∀ j ∈ rest, j.Outside) →
      Phase h t (s :: members) (.leave (.send s) :: .sendAnswer s ::
        (visits members ++ .leave .manager :: rest))
  | unsent {s members rest} : h.shared.returned t = false → (∀ j ∈ rest, j.Outside) →
      Phase h t (s :: members) (.sendAnswer s :: (visits members ++ .leave .manager :: rest))
  | closing {s members rest} : (∀ j ∈ rest, j.Outside) →
      Phase h t (s :: members) (.disconnect s :: (visits members ++ .leave .manager :: rest))

/-- The members still to come are owed the latest broadcast, all others have heard theirs. -/
structure Even (h : Hearing T ε μ) (members : List SessionId) : Prop where
  nodup : members.Nodup
  ahead : ∀ s, h.heard s <+: h.due s
  owed : ∀ s ∈ members, h.shared.mConnected s = true → h.Owed s
  settled : ∀ s ∉ members, h.shared.mConnected s = true → h.heard s = h.due s

structure Orderly (st : Broadcasters T ε μ) : Prop where
  held : ∀ t, st.shared.shared.owner .manager = some t →
    ∃ members, Phase st.shared t members (st.stack t) ∧ Even st.shared members
  free : st.shared.shared.owner .manager = none → Even st.shared []
  outside : ∀ t, st.shared.shared.owner .manager ≠ some t → ∀ j ∈ st.stack t, j.Outside

omit [DecidableEq T] in
theorem Even.of_record {h h' : Hearing T ε μ} {members : List SessionId} (he : Even h members)
    (hsaid : h'.said = h.said) (hheard : h'.heard = h.heard)
    (hconn : ∀ s, h'.shared.mConnected s = true → h.shared.mConnected s = true) :
    Even h' members := by
  have hdue : ∀ s, h'.due s = h.due s := by
    intro s
    rw [Hearing.due, hsaid]
    rfl
  refine ⟨he.nodup, fun s => ?_, fun s hs hc => ?_, fun s hs hc => ?_⟩
  · rw [hheard, hdue]
    exact he.ahead s
  · rw [Hearing.Owed, hsaid, hdue, hheard]
    exact he.owed s hs (hconn s hc)
  · rw [hheard, hdue]
    exact he.settled s hs (hconn s hc)

omit [DecidableEq T] in
theorem Hearing.Owed.of_record {h h' : Hearing T ε μ} {s : SessionId} (ho : h.Owed s)
    (hsame : h'.said = h.said ∧ h'.heard = h.heard) : h'.Owed s := by
  rwa [Owed, due, hsame.1, hsame.2]

omit [DecidableEq T] in
theorem Phase.of_record {h h' : Hearing T ε μ} {t : T} {members : List SessionId}
    {stack : List Instr} (hp : Phase h t members stack) (hsaid : h'.said = h.said)
    (hheard : h'.heard = h.heard) (hret : h'.shared.returned t = h.shared.returned t) :
    Phase h' t members stack := by
  cases hp with
  | entering hi hr => exact .entering hi hr
  | visiting ht hr => exact .visiting ht hr
  | locking ho hr => exact .locking (ho.of_record ⟨hsaid, hheard⟩) hr
  | writing ho hr => exact .writing (ho.of_record ⟨hsaid, hheard⟩) hr
  | refused hf hr => exact .refused (hret.trans hf) hr
  | unsent hf hr => exact .unsent (hret.trans hf) hr
  | closing hr => exact .closing hr

section
variable {S : Sdk ε} {ok : Bool} {t u : T} {x x' : Shared T ε} {i : Instr} {push : List Instr}

theorem run_returned (hu : u ≠ t) (h : x.run S ok t i = some (x', push)) :
    x'.returned u = x.returned u := by
  have hanswer : ∀ (y : Shared T ε) b, (y.answer t b).returned u = y.returned u :=
    fun y b => Function.update_of_ne hu ..
  have hguard : ∀ {l body}, x.guarded l t body = some (x', push) →
      x'.returned u = x.returned u := by
    intro l body hg
    obtain ⟨-, rfl, -⟩ := Shared.guarded_eq hg
    rfl
  cases i with
  | acceptPlayerSession s id => exact hguard h
  | removePlayerSession s id => exact hguard h
  | broadcastMessage => exact hguard h
  | lockedSend s => exact hguard h
  | sendCompletion s => exact hguard h
  | acceptBody s id =>
    rw [Shared.run] at h
    cases hr : x.manager.acceptPlayerSession S s id x.env with
    | error f => simp [hr] at h
    | ok r =>
      rw [hr] at h
      cases h
      exact hanswer _ _
  | removeBody s id =>
    rw [Shared.run] at h
    cases hr : x.manager.removePlayerSession S s id x.env with
    | error f => simp [hr] at h
    | ok r =>
      rw [hr] at h
      cases h
      rfl
  | broadcastBody =>
    rw [Shared.run] at h
    cases hg : x.manager.mGameSession with
    | none => simp [hg] at h
    | some players =>
      rw [hg] at h
      cases h
      rfl
  | _ =>
    rw [Shared.run] at h
    try split_ifs at h
    all_goals
      cases h
      first
        | rfl
        | exact hanswer _ _

theorem run_connected (h : x.run S ok t i = some (x', push)) {s : SessionId}
    (hs : x'.mConnected s = true) : x.mConnected s = true := by
  by_contra hne
  have hold := (Shared.run_ran h).connected.1 s (Bool.eq_false_iff.mpr hne)
  rw [hs] at hold
  cases hold

omit [DecidableEq T] in
theorem update_send (owner : Lock → Option T) (s : SessionId) (o : Option T) :
    Function.update owner (.send s) o .manager = owner .manager :=
  Function.update_of_ne (show Lock.manager ≠ .send s by simp) ..

/-- A thread that does not hold `mLock` takes it, or stays outside. -/
theorem run_outside (hi : i.Outside) (h : x.run S ok t i = some (x', push)) :
    (x.owner .manager = none ∧ x' = { x with owner := Function.update x.owner .manager (some t) } ∧
      ∃ body, push = [body, .leave .manager] ∧ (body = .broadcastBody ∨
        (∃ s id, body = .acceptBody s id) ∨ ∃ s id, body = .removeBody s id)) ∨
    (x'.owner .manager = x.owner .manager ∧ ∀ j ∈ push, j.Outside) := by
  cases i with
  | acceptPlayerSession s id =>
    obtain ⟨hfree, hx, hp⟩ := Shared.guarded_eq h
    exact Or.inl ⟨hfree, hx, _, hp, Or.inr (Or.inl ⟨s, id, rfl⟩)⟩
  | removePlayerSession s id =>
    obtain ⟨hfree, hx, hp⟩ := Shared.guarded_eq h
    exact Or.inl ⟨hfree, hx, _, hp, Or.inr (Or.inr ⟨s, id, rfl⟩)⟩
  | broadcastMessage =>
    obtain ⟨hfree, hx, hp⟩ := Shared.guarded_eq h
    exact Or.inl ⟨hfree, hx, _, hp, Or.inl rfl⟩
  | acceptBody s id => exact hi.elim
  | removeBody s id => exact hi.elim
  | broadcastBody => exact hi.elim
  | sendAnswer s => exact hi.elim
  | lockedSend s =>
    obtain ⟨-, rfl, rfl⟩ := Shared.guarded_eq h
    exact Or.inr ⟨update_send x.owner s (some t), by simp [Outside]⟩
  | sendCompletion s =>
    obtain ⟨-, rfl, rfl⟩ := Shared.guarded_eq h
    exact Or.inr ⟨update_send x.owner s (some t), by simp [Outside]⟩
  | leave l =>
    cases l with
    | manager => exact hi.elim
    | send s =>
      cases h
      exact Or.inr ⟨update_send x.owner s none, by simp⟩
  | onDisconnect s =>
    cases h
    refine Or.inr ⟨rfl, ?_⟩
    split_ifs <;> simp [Outside]
  | _ =>
    rw [Shared.run] at h
    try split_ifs at h
    all_goals
      cases h
      exact Or.inr ⟨rfl, by simp [Outside]⟩

/-- Under `mLock` nothing harmful comes of what is left of a visit. -/
theorem run_harmless (hi : i.Harmless) (ho : x.owner .manager ≠ none)
    (h : x.run S ok t i = some (x', push)) :
    x'.owner .manager = x.owner .manager ∧ ∀ j ∈ push, j.Harmless := by
  cases i with
  | removePlayerSession s id =>
    obtain ⟨hfree, -, -⟩ := Shared.guarded_eq h
    exact absurd hfree ho
  | leave l =>
    cases l with
    | manager => exact hi.elim
    | send s =>
      cases h
      exact ⟨update_send x.owner s none, by simp⟩
  | flushSend s =>
    rw [Shared.run] at h
    split_ifs at h <;>
      cases h <;>
      exact ⟨rfl, by simp [Harmless]⟩
  | sendAnswer s =>
    cases h
    refine ⟨rfl, ?_⟩
    split_ifs <;> simp [Harmless]
  | disconnect s =>
    rw [Shared.run] at h
    split_ifs at h <;>
      cases h <;>
      exact ⟨rfl, by simp [Harmless]⟩
  | answer b =>
    cases h
    exact ⟨rfl, by simp⟩
  | onDisconnect s =>
    cases h
    refine ⟨rfl, ?_⟩
    split_ifs <;> simp [Harmless]
  | clearId s =>
    cases h
    exact ⟨rfl, by simp⟩
  | _ => exact hi.elim

end

namespace Hearing

variable {h : Hearing T ε μ} {x : Shared T ε} {ok : Bool} {t : T} {pkt : μ} {i : Instr}

theorem after_shared : (h.after x ok t pkt i).shared = x := by
  unfold after
  split
  · rfl
  · split_ifs <;> rfl
  · rfl

/-- Only the body of a broadcast, and a write for it, change the record. -/
theorem after_record (hbody : i ≠ .broadcastBody)
    (hwrite : ∀ s, i = .writeBuffer s → h.shared.owner .manager = some t → ok = false) :
    (h.after x ok t pkt i).said = h.said ∧ (h.after x ok t pkt i).heard = h.heard := by
  unfold after
  split
  · exact absurd rfl hbody
  · next s =>
    rw [if_neg]
    · exact ⟨rfl, rfl⟩
    · rintro ⟨hok, ho⟩
      rw [hwrite s rfl ho] at hok
      cases hok
  · exact ⟨rfl, rfl⟩

end Hearing

section
variable {S : Sdk ε} {ok : Bool} {pkt : μ} {t : T} {st : Broadcasters T ε μ} {x : Shared T ε}
  {i : Instr} {rest push : List Instr}

/-- What a step of `t` leaves for the other threads, if `mLock` stays with whom it was. -/
theorem Orderly.others (h : Orderly st) (hrun : st.shared.shared.run S ok t i = some (x, push))
    (ho : x.owner .manager = st.shared.shared.owner .manager)
    (hsame : (st.shared.after x ok t pkt i).said = st.shared.said ∧
      (st.shared.after x ok t pkt i).heard = st.shared.heard)
    (ht : st.shared.shared.owner .manager ≠ some t) (hpush : ∀ j ∈ push, j.Outside)
    (hs : st.stack t = i :: rest) :
    Orderly (st.move t (st.shared.after x ok t pkt i) (push ++ rest)) := by
  have hconn : ∀ s, (st.shared.after x ok t pkt i).shared.mConnected s = true →
      st.shared.shared.mConnected s = true := by
    intro s
    rw [Hearing.after_shared]
    exact run_connected hrun
  refine ⟨fun u hu => ?_, fun hfree => ?_, fun u hu => ?_⟩
  · rw [Threads.State.move_shared, Hearing.after_shared, ho] at hu
    have hne : u ≠ t := fun he => ht (he ▸ hu)
    obtain ⟨members, hphase, heven⟩ := h.held u hu
    refine ⟨members, ?_, heven.of_record hsame.1 hsame.2 hconn⟩
    rw [Threads.State.move_stack_of_ne _ hne]
    refine hphase.of_record hsame.1 hsame.2 ?_
    rw [Threads.State.move_shared, Hearing.after_shared]
    exact run_returned hne hrun
  · rw [Threads.State.move_shared, Hearing.after_shared, ho] at hfree
    exact (h.free hfree).of_record hsame.1 hsame.2 hconn
  · rw [Threads.State.move_shared, Hearing.after_shared, ho] at hu
    by_cases he : u = t
    · rw [he, Threads.State.move_stack_self]
      intro j hj
      rcases List.mem_append.mp hj with hj | hj
      · exact hpush j hj
      · exact h.outside t ht j (hs ▸ List.mem_cons_of_mem i hj)
    · rw [Threads.State.move_stack_of_ne _ he]
      exact h.outside u hu

/-- A thread that does not hold `mLock`. -/
theorem Orderly.step_outside (h : Orderly st) (ht : st.shared.shared.owner .manager ≠ some t)
    (hs : st.stack t = i :: rest) (hrun : st.shared.shared.run S ok t i = some (x, push)) :
    Orderly (st.move t (st.shared.after x ok t pkt i) (push ++ rest)) := by
  have hi : i.Outside := h.outside t ht i (hs ▸ List.mem_cons_self)
  have hrest : ∀ j ∈ rest, j.Outside := fun j hj =>
    h.outside t ht j (hs ▸ List.mem_cons_of_mem i hj)
  have hsame : (st.shared.after x ok t pkt i).said = st.shared.said ∧
      (st.shared.after x ok t pkt i).heard = st.shared.heard :=
    Hearing.after_record (by rintro rfl; exact hi) fun _ _ ho => absurd ho ht
  rcases run_outside hi hrun with ⟨hfree, hx, body, rfl, hbody⟩ | ⟨ho, hpush⟩
  · -- It takes `mLock`.
    have howner : (st.shared.after x ok t pkt i).shared.owner .manager = some t := by
      rw [Hearing.after_shared, hx]
      dsimp only
      rw [Function.update_self]
    have hconn : ∀ s, (st.shared.after x ok t pkt i).shared.mConnected s = true →
        st.shared.shared.mConnected s = true := by
      intro s
      rw [Hearing.after_shared]
      exact run_connected hrun
    refine ⟨fun u hu => ?_, fun hnone => ?_, fun u hu => ?_⟩
    · rw [Threads.State.move_shared, howner, Option.some.injEq] at hu
      refine ⟨[], ?_, (h.free hfree).of_record hsame.1 hsame.2 hconn⟩
      rw [← hu, Threads.State.move_stack_self]
      exact .entering hbody hrest
    · rw [Threads.State.move_shared, howner] at hnone
      cases hnone
    · rw [Threads.State.move_shared, howner] at hu
      have hne : u ≠ t := fun he => hu (he ▸ rfl)
      rw [Threads.State.move_stack_of_ne _ hne]
      exact h.outside u (by rw [hfree]; exact nofun)
  · exact h.others hrun ho hsame ht hpush hs

/-- The holder of `mLock`, once its own step and what is heard are known. -/
theorem Orderly.step_inside (h : Orderly st) (ht : st.shared.shared.owner .manager = some t)
    {h' : Hearing T ε μ} {stack : List Instr} (ho : h'.shared.owner .manager = some t)
    {members : List SessionId} (hphase : Phase h' t members stack) (heven : Even h' members) :
    Orderly (st.move t h' stack) := by
  refine ⟨fun u hu => ?_, fun hnone => ?_, fun u hu => ?_⟩
  · rw [Threads.State.move_shared, ho, Option.some.injEq] at hu
    refine ⟨members, ?_, heven⟩
    rw [← hu, Threads.State.move_stack_self]
    exact hphase
  · rw [Threads.State.move_shared, ho] at hnone
    cases hnone
  · rw [Threads.State.move_shared, ho] at hu
    have hne : u ≠ t := fun he => hu (he ▸ rfl)
    rw [Threads.State.move_stack_of_ne _ hne]
    refine h.outside u ?_
    rwa [ht]

/-- A step of the holder of `mLock` that changes neither the record nor whom it still
has to visit. -/
theorem Orderly.step_quiet (h : Orderly st) (ht : st.shared.shared.owner .manager = some t)
    (hrun : st.shared.shared.run S ok t i = some (x, push)) (ho : x.owner .manager = some t)
    (hsame : (st.shared.after x ok t pkt i).said = st.shared.said ∧
      (st.shared.after x ok t pkt i).heard = st.shared.heard) {members : List SessionId}
    (heven : Even st.shared members) (hphase : Phase (st.shared.after x ok t pkt i) t members
      (push ++ rest)) : Orderly (st.move t (st.shared.after x ok t pkt i) (push ++ rest)) := by
  refine h.step_inside ht (by rw [Hearing.after_shared, ho]) hphase
    (heven.of_record hsame.1 hsame.2 fun s hs => ?_)
  rw [Hearing.after_shared] at hs
  exact run_connected hrun hs

omit [DecidableEq T] in
theorem Even.drop {h : Hearing T ε μ} {s : SessionId} {members : List SessionId}
    (he : Even h (s :: members)) (hs : h.shared.mConnected s = true → h.heard s = h.due s) :
    Even h members where
  nodup := (List.nodup_cons.mp he.nodup).2
  ahead := he.ahead
  owed u hu := he.owed u (List.mem_cons_of_mem s hu)
  settled u hu hc := by
    by_cases hus : u = s
    · exact hus ▸ hs (hus ▸ hc)
    · exact he.settled u (fun hm => (List.mem_cons.mp hm).elim hus hu) hc

omit [DecidableEq T] in
/-- A broadcast begins: all members are owed its packet. -/
theorem Even.begin {h : Hearing T ε μ} (he : Even h []) {x : Shared T ε} {pkt : μ}
    {players : Finset SessionId} (hconn : x.mConnected = h.shared.mConnected) :
    Even (⟨x, h.said ++ [(pkt, players)], h.heard⟩ : Hearing T ε μ) (players.sort (· ≤ ·)) := by
  have hdue : ∀ s, (⟨x, h.said ++ [(pkt, players)], h.heard⟩ : Hearing T ε μ).due s =
      h.due s ++ if s ∈ players then [pkt] else [] := by
    intro s
    rw [Hearing.due, List.filter_append, List.map_append]
    by_cases hs : s ∈ players
    · rw [List.filter_cons_of_pos (by simpa using hs), if_pos hs]
      rfl
    · rw [List.filter_cons_of_neg (by simpa using hs), if_neg hs]
      rfl
  refine ⟨Finset.sort_nodup .., fun s => ?_, fun s hs hc => ?_, fun s hs hc => ?_⟩
  · rw [hdue]
    exact (he.ahead s).trans (List.prefix_append ..)
  · rw [Finset.mem_sort] at hs
    refine ⟨pkt, by simp, ?_⟩
    rw [hdue, if_pos hs]
    exact congrArg (· ++ [pkt]) (he.settled s List.not_mem_nil (hconn ▸ hc)).symm
  · rw [Finset.mem_sort] at hs
    rw [hdue, if_neg hs, List.append_nil]
    exact he.settled s List.not_mem_nil (hconn ▸ hc)

omit [DecidableEq T] in
/-- A member is handed the packet it was owed. -/
theorem Even.write {h : Hearing T ε μ} {s : SessionId} {members : List SessionId}
    (he : Even h (s :: members)) (ho : h.Owed s) {x : Shared T ε}
    (hconn : x.mConnected = h.shared.mConnected) :
    Even (⟨x, h.said, Function.update h.heard s
      (h.heard s ++ (h.said.getLast?.map Prod.fst).toList)⟩ : Hearing T ε μ) members := by
  obtain ⟨m, hm, hdue⟩ := ho
  rw [hm, Option.toList_some, ← hdue]
  have hother : ∀ u ≠ s, Function.update h.heard s (h.due s) u = h.heard u := fun u hu =>
    Function.update_of_ne hu ..
  have hout : s ∉ members := (List.nodup_cons.mp he.nodup).1
  refine ⟨(List.nodup_cons.mp he.nodup).2, fun u => ?_, fun u hu hc => ?_, fun u hu hc => ?_⟩
  · by_cases hus : u = s
    · subst hus
      change Function.update h.heard u (h.due u) u <+: h.due u
      rw [Function.update_self]
    · change Function.update h.heard s (h.due s) u <+: h.due u
      rw [hother u hus]
      exact he.ahead u
  · have hus : u ≠ s := fun hus => hout (hus ▸ hu)
    obtain ⟨m', hm', hdue'⟩ := he.owed u (List.mem_cons_of_mem s hu) (hconn ▸ hc)
    refine ⟨m', hm', ?_⟩
    change h.due u = Function.update h.heard s (h.due s) u ++ [m']
    rw [hother u hus]
    exact hdue'
  · by_cases hus : u = s
    · subst hus
      exact Function.update_self ..
    · change Function.update h.heard s (h.due s) u = h.due u
      rw [hother u hus]
      exact he.settled u (fun hm => (List.mem_cons.mp hm).elim hus hu) (hconn ▸ hc)

/-- The holder of `mLock` lets it go. -/
theorem Orderly.step_leave (h : Orderly st) (ht : st.shared.shared.owner .manager = some t)
    (heven : Even st.shared []) (hrest : ∀ j ∈ rest, j.Outside) {h' : Hearing T ε μ}
    (hshared : h'.shared =
      { st.shared.shared with owner := Function.update st.shared.shared.owner .manager none })
    (hsaid : h'.said = st.shared.said) (hheard : h'.heard = st.shared.heard) :
    Orderly (st.move t h' rest) := by
  have hfree : h'.shared.owner .manager = none := by
    rw [hshared]
    dsimp only
    rw [Function.update_self]
  refine ⟨fun u hu => ?_, fun _ => ?_, fun u _ => ?_⟩
  · rw [Threads.State.move_shared, hfree] at hu
    cases hu
  · refine heven.of_record hsaid hheard fun s hs => ?_
    rw [Threads.State.move_shared, hshared] at hs
    exact hs
  · by_cases he : u = t
    · rw [he, Threads.State.move_stack_self]
      exact hrest
    · rw [Threads.State.move_stack_of_ne _ he]
      refine h.outside u ?_
      rw [ht]
      exact fun hu => he (Option.some.inj hu).symm

theorem Orderly.step_entering (h : Orderly st) (ht : st.shared.shared.owner .manager = some t)
    (heven : Even st.shared []) (hi : i = .broadcastBody ∨ (∃ s id, i = .acceptBody s id) ∨
      ∃ s id, i = .removeBody s id) (hrest : ∀ j ∈ rest, j.Outside)
    (hrun : st.shared.shared.run S ok t i = some (x, push)) :
    Orderly (st.move t (st.shared.after x ok t pkt i) (push ++ .leave .manager :: rest)) := by
  have hdone : ∀ {h' : Hearing T ε μ}, Phase h' t [] (.leave .manager :: rest) := by
    intro h'
    have hphase : Phase h' t [] ([] ++ (visits [] ++ .leave .manager :: rest)) :=
      .visiting nofun hrest
    exact hphase
  rcases hi with rfl | ⟨s, id, rfl⟩ | ⟨s, id, rfl⟩
  · rw [Shared.run] at hrun
    cases hg : st.shared.shared.manager.mGameSession with
    | none => simp [hg] at hrun
    | some players =>
      rw [hg] at hrun
      cases hrun
      have hafter : st.shared.after st.shared.shared ok t pkt .broadcastBody =
          ⟨st.shared.shared, st.shared.said ++ [(pkt, players)], st.shared.heard⟩ := by
        rw [Hearing.after, hg]
        rfl
      rw [hafter]
      have hphase : Phase (⟨st.shared.shared, st.shared.said ++ [(pkt, players)],
          st.shared.heard⟩ : Hearing T ε μ) t (players.sort (· ≤ ·))
            ([] ++ (visits (players.sort (· ≤ ·)) ++ .leave .manager :: rest)) :=
        .visiting nofun hrest
      exact h.step_inside ht ht hphase (heven.begin rfl)
  · have hsame : (st.shared.after x ok t pkt (.acceptBody s id)).said = st.shared.said ∧
        (st.shared.after x ok t pkt (.acceptBody s id)).heard = st.shared.heard := ⟨rfl, rfl⟩
    have hrun' := hrun
    rw [Shared.run] at hrun'
    cases hr : st.shared.shared.manager.acceptPlayerSession S s id st.shared.shared.env with
    | error f => simp [hr] at hrun'
    | ok r =>
      rw [hr] at hrun'
      cases hrun'
      exact h.step_quiet ht hrun ht hsame heven hdone
  · have hsame : (st.shared.after x ok t pkt (.removeBody s id)).said = st.shared.said ∧
        (st.shared.after x ok t pkt (.removeBody s id)).heard = st.shared.heard := ⟨rfl, rfl⟩
    have hrun' := hrun
    rw [Shared.run] at hrun'
    cases hr : st.shared.shared.manager.removePlayerSession S s id st.shared.shared.env with
    | error f => simp [hr] at hrun'
    | ok r =>
      rw [hr] at hrun'
      cases hrun'
      exact h.step_quiet ht hrun ht hsame heven hdone

theorem Orderly.step_visit (h : Orderly st) (ht : st.shared.shared.owner .manager = some t)
    {members : List SessionId} (heven : Even st.shared members) {top : List Instr}
    (htop : ∀ j ∈ top, j.Harmless) (hi : i.Harmless) (hrest : ∀ j ∈ rest, j.Outside)
    (hrun : st.shared.shared.run S ok t i = some (x, push)) :
    Orderly (st.move t (st.shared.after x ok t pkt i)
      (push ++ (top ++ (visits members ++ .leave .manager :: rest)))) := by
  obtain ⟨ho, hpush⟩ := run_harmless hi (by rw [ht]; exact Option.some_ne_none t) hrun
  have hsame : (st.shared.after x ok t pkt i).said = st.shared.said ∧
      (st.shared.after x ok t pkt i).heard = st.shared.heard :=
    Hearing.after_record (by rintro rfl; exact hi) (by rintro s rfl; exact hi.elim)
  refine h.step_quiet ht hrun (ho.trans ht) hsame heven ?_
  rw [← List.append_assoc]
  refine .visiting (fun j hj => ?_) hrest
  rcases List.mem_append.mp hj with hj | hj
  · exact hpush j hj
  · exact htop j hj

theorem Orderly.step_post (h : Orderly st) (ht : st.shared.shared.owner .manager = some t)
    {s : SessionId} {members : List SessionId} (heven : Even st.shared (s :: members))
    (hrest : ∀ j ∈ rest, j.Outside)
    (hrun : st.shared.shared.run S ok t (.postSend s) = some (x, push)) :
    Orderly (st.move t (st.shared.after x ok t pkt (.postSend s))
      (push ++ .sendAnswer s :: (visits members ++ .leave .manager :: rest))) := by
  have hsame : (st.shared.after x ok t pkt (.postSend s)).said = st.shared.said ∧
      (st.shared.after x ok t pkt (.postSend s)).heard = st.shared.heard := ⟨rfl, rfl⟩
  have hrun' := hrun
  rw [Shared.run] at hrun'
  split_ifs at hrun' with hc
  · cases hrun'
    have howed := (heven.owed s List.mem_cons_self hc).of_record hsame
    exact h.step_quiet ht hrun ht hsame heven (.locking howed hrest)
  · cases hrun'
    refine h.step_quiet ht hrun ht hsame heven (.unsent ?_ hrest)
    rw [Hearing.after_shared]
    exact Function.update_self ..

theorem Orderly.step_write (h : Orderly st) (ht : st.shared.shared.owner .manager = some t)
    {s : SessionId} {members : List SessionId} (heven : Even st.shared (s :: members))
    (howed : st.shared.Owed s) (hrest : ∀ j ∈ rest, j.Outside)
    (hrun : st.shared.shared.run S ok t (.writeBuffer s) = some (x, push)) :
    Orderly (st.move t (st.shared.after x ok t pkt (.writeBuffer s)) (push ++
      .leave (.send s) :: .sendAnswer s :: (visits members ++ .leave .manager :: rest))) := by
  have hrun' := hrun
  rw [Shared.run] at hrun'
  cases ok with
  | false =>
    rw [if_neg Bool.false_ne_true] at hrun'
    cases hrun'
    have hsame : (st.shared.after (st.shared.shared.answer t false) false t pkt
        (.writeBuffer s)).said = st.shared.said ∧ (st.shared.after
          (st.shared.shared.answer t false) false t pkt (.writeBuffer s)).heard =
            st.shared.heard := Hearing.after_record (by simp) fun _ _ _ => rfl
    refine h.step_quiet ht hrun ht hsame heven (.refused ?_ hrest)
    rw [Hearing.after_shared]
    exact Function.update_self ..
  | true =>
    rw [if_pos rfl] at hrun'
    have hwritten : ∀ {y : Shared T ε} {top : List Instr},
        y.owner .manager = some t → y.mConnected = st.shared.shared.mConnected →
        (∀ j ∈ top, j.Harmless) → Orderly (st.move t
          (st.shared.after y true t pkt (.writeBuffer s)) (top ++ (.leave (.send s) ::
            .sendAnswer s :: (visits members ++ .leave .manager :: rest)))) := by
      intro y top ho hconn htop
      have hafter : st.shared.after y true t pkt (.writeBuffer s) =
          ⟨y, st.shared.said, Function.update st.shared.heard s
            (st.shared.heard s ++ (st.shared.said.getLast?.map Prod.fst).toList)⟩ :=
        if_pos ⟨rfl, ht⟩
      rw [hafter]
      refine h.step_inside ht ho ?_ (heven.write howed hconn)
      have hphase : Phase (⟨y, st.shared.said, Function.update st.shared.heard s
          (st.shared.heard s ++ (st.shared.said.getLast?.map Prod.fst).toList)⟩ : Hearing T ε μ) t
            members ((top ++ [.leave (.send s), .sendAnswer s]) ++
              (visits members ++ .leave .manager :: rest)) := by
        refine .visiting (fun j hj => ?_) hrest
        rcases List.mem_append.mp hj with hj | hj
        · exact htop j hj
        · simp only [List.mem_cons, List.not_mem_nil, or_false] at hj
          rcases hj with rfl | rfl <;> trivial
      rwa [List.append_assoc] at hphase
    split_ifs at hrun'
    · cases hrun'
      exact hwritten ht rfl (by simp)
    · cases hrun'
      exact hwritten ht rfl (by simp [Harmless])

theorem Orderly.step_inward (h : Orderly st) (ht : st.shared.shared.owner .manager = some t)
    (hs : st.stack t = i :: rest) (hrun : st.shared.shared.run S ok t i = some (x, push)) :
    Orderly (st.move t (st.shared.after x ok t pkt i) (push ++ rest)) := by
  obtain ⟨members, hphase, heven⟩ := h.held t ht
  rw [hs] at hphase
  generalize hstack : i :: rest = stack at hphase
  cases hphase with
  | entering hi hr =>
    cases hstack
    exact h.step_entering ht heven hi hr hrun
  | @visiting top members later htop hr =>
    cases top with
    | nil =>
      cases members with
      | nil =>
        have hlast : i :: rest = .leave .manager :: later := hstack
        cases hlast
        cases hrun
        exact h.step_leave ht heven hr rfl rfl rfl
      | cons s members =>
        have hnext : i :: rest = .postSend s :: .sendAnswer s ::
            (visits members ++ .leave .manager :: later) := hstack
        cases hnext
        exact h.step_post ht heven hr hrun
    | cons j top =>
      cases hstack
      exact h.step_visit ht heven (fun k hk => htop k (List.mem_cons_of_mem i hk))
        (htop i List.mem_cons_self) hr hrun
  | @locking s members later howed hr =>
    cases hstack
    obtain ⟨-, hx, rfl⟩ := Shared.guarded_eq hrun
    have hsame : (st.shared.after x ok t pkt (.lockedSend s)).said = st.shared.said ∧
        (st.shared.after x ok t pkt (.lockedSend s)).heard = st.shared.heard := ⟨rfl, rfl⟩
    refine h.step_quiet ht hrun ?_ hsame heven (.writing (howed.of_record hsame) hr)
    rw [hx]
    exact (update_send _ s (some t)).trans ht
  | writing howed hr =>
    cases hstack
    exact h.step_write ht heven howed hr hrun
  | @refused s members later hret hr =>
    cases hstack
    have hsame : (st.shared.after x ok t pkt (.leave (.send s))).said = st.shared.said ∧
        (st.shared.after x ok t pkt (.leave (.send s))).heard = st.shared.heard := ⟨rfl, rfl⟩
    have hrun' := hrun
    cases hrun'
    exact h.step_quiet ht hrun ((update_send _ s none).trans ht) hsame heven (.unsent hret hr)
  | @unsent s members later hret hr =>
    cases hstack
    have hsame : (st.shared.after x ok t pkt (.sendAnswer s)).said = st.shared.said ∧
        (st.shared.after x ok t pkt (.sendAnswer s)).heard = st.shared.heard := ⟨rfl, rfl⟩
    have hrun' := hrun
    rw [Shared.run, hret, if_neg Bool.false_ne_true] at hrun'
    cases hrun'
    exact h.step_quiet ht hrun ht hsame heven (.closing hr)
  | @closing s members later hr =>
    cases hstack
    have hrun' := hrun
    obtain ⟨ho, hpush⟩ := run_harmless (i := .disconnect s) trivial
      (by rw [ht]; exact Option.some_ne_none t) hrun
    have hclosed : x.mConnected s = false := by
      rw [Shared.run] at hrun'
      split_ifs at hrun' with hc
      · cases hrun'
        exact Function.update_self ..
      · cases hrun'
        exact Bool.eq_false_iff.mpr hc
    refine h.step_inside ht ?_ (.visiting hpush hr) (Even.drop (s := s) ?_ fun hc => ?_)
    · rw [Hearing.after_shared, ho, ht]
    · refine heven.of_record rfl rfl fun u hu => ?_
      rw [Hearing.after_shared] at hu
      exact run_connected hrun hu
    · rw [Hearing.after_shared, hclosed] at hc
      cases hc

end

theorem Orderly.step {S : Sdk ε} {st st' : Broadcasters T ε μ} {t : T} (h : Orderly st)
    (hstep : Threads.Step (broadcasters S) st t st') : Orderly st' := by
  cases hstep with
  | start hs hm =>
    obtain ⟨-, rfl, i, hi, rfl⟩ := hm
    have ht : st.shared.shared.owner .manager ≠ some t := by
      intro ht
      obtain ⟨members, hphase, -⟩ := h.held t ht
      rw [hs] at hphase
      generalize hstack : ([] : List Instr) = stack at hphase
      cases hphase with
      | visiting _ _ => simp at hstack
      | _ => cases hstack
    have houtside : i.Outside := by
      cases i with
      | leave l => exact hi.elim
      | acceptBody s id => exact hi.elim
      | removeBody s id => exact hi.elim
      | broadcastBody => exact hi.elim
      | sendAnswer s => exact hi.elim
      | _ => trivial
    refine ⟨fun u hu => ?_, h.free, fun u hu => ?_⟩
    · have hne : u ≠ t := fun he => ht (he ▸ hu)
      rw [Threads.State.move_stack_of_ne _ hne]
      exact h.held u hu
    · by_cases he : u = t
      · rw [he, Threads.State.move_stack_self]
        intro j hj
        exact List.mem_singleton.mp hj ▸ houtside
      · rw [Threads.State.move_stack_of_ne _ he]
        exact h.outside u hu
  | exec hs hm =>
    obtain ⟨-, ok, x, pkt, hrun, rfl⟩ := hm
    by_cases ht : st.shared.shared.owner .manager = some t
    · exact h.step_inward ht hs hrun
    · exact h.step_outside ht hs hrun

omit [DecidableEq T] in
theorem orderly_fresh {h : Hearing T ε μ} (hf : h.Fresh) :
    Orderly (⟨h, fun _ => []⟩ : Broadcasters T ε μ) := by
  have hdue : ∀ s, h.due s = [] := by
    intro s
    rw [Hearing.due, hf.said]
    rfl
  refine ⟨fun t ht => ?_, fun _ => ⟨.nil, fun s => ?_, nofun, fun s _ _ => ?_⟩, fun _ _ => nofun⟩
  · rw [hf.unlocked] at ht
    cases ht
  · rw [hf.heard]
    exact List.nil_prefix
  · rw [hf.heard, hdue]

/-- However the threads of the Windows server interleave and whatever fails, a session is
handed the broadcasts it was a member for, each once and in the order in which they got
`mLock`, up to the point where it is disconnected; one that is still connected has got
them all whenever nobody holds `mLock`. -/
theorem windows_broadcasts_in_order (S : Sdk ε) (st : Broadcasters T ε μ)
    (h : Threads.Reachable (broadcasters S) Hearing.Fresh (fun _ _ => True) st) :
    (∀ s, st.shared.heard s <+: st.shared.due s) ∧
      (st.shared.shared.owner .manager = none → ∀ s, st.shared.shared.mConnected s = true →
        st.shared.heard s = st.shared.due s) := by
  have horderly : Orderly st :=
    h.invariant (fun _ hx => orderly_fresh hx) fun _ _ _ hd hs _ => hd.step hs
  refine ⟨fun s => ?_, fun hfree s hs => (horderly.free hfree).settled s List.not_mem_nil hs⟩
  cases ho : st.shared.shared.owner .manager with
  | none => exact (horderly.free ho).ahead s
  | some t =>
    obtain ⟨members, -, heven⟩ := horderly.held t ho
    exact heven.ahead s

/-- Without the record this is the machine of the locks. -/
theorem broadcasters_workers {S : Sdk ε} {st : Broadcasters T ε μ}
    (h : Threads.Reachable (broadcasters S) Hearing.Fresh (fun _ _ => True) st) :
    Threads.Reachable (workers S) Shared.Unlocked (fun _ _ => True)
      ⟨st.shared.shared, st.stack⟩ := by
  induction h with
  | init hx => exact .init hx.unlocked
  | @step s s' t _ hs _ ih =>
    have hstep : Threads.Step (workers S) ⟨s.shared.shared, s.stack⟩ t
        ⟨s'.shared.shared, s'.stack⟩ := by
      cases hs with
      | start hidle hm =>
        obtain ⟨hrun, rfl, hcall⟩ := hm
        exact .start hidle ⟨hrun, rfl, hcall⟩
      | exec htop hm =>
        obtain ⟨hexit, ok, x, pkt, hrun, rfl⟩ := hm
        rw [Threads.State.move_shared, Hearing.after_shared]
        exact .exec htop ⟨hexit, ok, hrun⟩
    exact ih.step hstep trivial

/-- One thread alone, with what the broadcasts do to the record. -/
def Hearing.goOn (S : Sdk ε) (pkt : μ) (h : Hearing Unit ε μ) (i : Instr) (ok : Bool) :
    Option (Hearing Unit ε μ × List Instr) :=
  (h.shared.goOn S i ok).map fun r => (h.after r.1 ok () pkt i, r.2)

theorem Hearing.call_starts {S : Sdk ε} {h : Hearing Unit ε μ} {i : {i : Instr // i.IsCall}}
    {push : List Instr} (hcall : h.shared.call i = some push) :
    (broadcasters S).start () h h push := by
  obtain ⟨hrun, -, hi⟩ := Shared.call_starts (S := S) hcall
  exact ⟨hrun, rfl, hi⟩

theorem Hearing.goOn_executes {S : Sdk ε} {pkt : μ} {h h' : Hearing Unit ε μ} {i : Instr}
    {ok : Bool} {push : List Instr} (hgo : h.goOn S pkt i ok = some (h', push)) :
    (broadcasters S).exec () i h h' push := by
  obtain ⟨⟨y, next⟩, hy, he⟩ := Option.map_eq_some_iff.mp hgo
  cases he
  obtain ⟨hrun, hx⟩ := Option.ite_none_right_eq_some.mp hy
  exact ⟨hrun, ok, y, pkt, hx, rfl⟩

/-- A player logs in, gets its reply, and hears a broadcast. -/
def goodBroadcast : List ({i : Instr // i.IsCall} ⊕ Bool) :=
  .inl ⟨.playerLogin 0 [1], trivial⟩ :: List.replicate 10 (.inr true) ++
    [.inl ⟨.sendCompletion 0, trivial⟩, .inr true, .inr false, .inr true] ++
    .inl ⟨.broadcastMessage, trivial⟩ :: List.replicate 9 (.inr true)

theorem windows_broadcasts_in_order_one :
    ∃ st : Broadcasters Unit Playback Nat,
      Threads.Reachable (broadcasters ledger) Hearing.Fresh (fun _ _ => True) st ∧
        st.shared.said = [(7, {0})] ∧ st.shared.heard 0 = [7] := by
  have hend : (goodBroadcast.foldlM
      (Threads.alone (fun h => Shared.call h.shared) (Hearing.goOn ledger 7))
      (⟨oneConnected, [], fun _ => []⟩, [])).map
      (fun s => (s.1.shared.owner .manager, s.1.shared.mConnected 0, s.1.said)) =
        some (none, true, [(7, {0})]) := by decide +kernel
  obtain ⟨⟨h, stack⟩, hs, he⟩ := Option.map_eq_some_iff.mp hend
  obtain ⟨howner, hrest⟩ := Prod.mk.inj he
  obtain ⟨hconn, hsaid⟩ := Prod.mk.inj hrest
  have hstart : Threads.Reachable (broadcasters ledger) Hearing.Fresh (fun _ _ => True)
      (⟨⟨oneConnected, [], fun _ => []⟩, fun _ => []⟩ : Broadcasters Unit Playback Nat) :=
    .init ⟨fun _ => rfl, rfl, fun _ => rfl⟩
  have hreach := hstart.alone (fun _ _ _ hcall => ⟨trivial, Hearing.call_starts hcall⟩)
    (fun _ _ _ _ _ _ hgo => ⟨trivial, Hearing.goOn_executes hgo⟩) goodBroadcast hs
  have hheard := (windows_broadcasts_in_order ledger _ hreach).2 howner 0 hconn
  refine ⟨_, hreach, hsaid, hheard.trans ?_⟩
  rw [Hearing.due, hsaid]
  decide

end GameLift
