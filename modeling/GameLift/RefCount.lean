import GameLift.DummySession

/-! What the reference count of a dummy session counts, and that it never runs out. -/

namespace GameLift

namespace DummySession

open Dispatcher (Cmd Instr listed)
open Threads (total total_update)

variable {T O J : Type}

/-- The code holds a context of `o` whose reference is not returned. -/
@[simp] def Code.context [DecidableEq O] (o : O) : Code O J → ℕ
  | request o' _ | deleteIoContext o' | doIocpJob o' _ _ => if o' = o then 1 else 0
  | _ => 0

/-- The code returns the reference of a timer job of `o`. -/
@[simp] def Code.timer [DecidableEq O] (o : O) : Code O J → ℕ
  | releaseTimer o' => if o' = o then 1 else 0
  | _ => 0

/-- It holds a reference that is neither the dispatcher's nor that of the issuing. -/
@[simp] def Code.holds [DecidableEq O] (o : O) (c : Code O J) : ℕ := c.context o + c.timer o

@[simp] def IoType.chance : IoType → ℕ
  | connect | disconnect => 1
  | _ => 0

@[simp] def Site.chance (site : Site) : ℕ := site.ioType.chance

/-- The code is on its way to connect `o`, or to give its issuing back. -/
@[simp] def Code.chance [DecidableEq O] (o : O) : Code O J → ℕ
  | connectRequest o' | connectCompletion o' | setConnected o' | disconnectCompletion o' =>
    if o' = o then 1 else 0
  | newContext o' site | request o' site => if o' = o then site.chance else 0
  | doIocpJob o' ioType _ => if o' = o then ioType.chance else 0
  | _ => 0

def ofCode (w : Code O J → ℕ) : Instr O J (Code O J) → ℕ
  | .cmd (.code c) => w c
  | _ => 0

/-- A call of `DoTask` has taken a reference on `o` and not returned it. -/
def ofDispatcher [DecidableEq O] (o : O) : Instr O J (Code O J) → ℕ
  | .check o' | .drain o' | .release o' => if o' = o then 1 else 0
  | _ => 0

theorem ofDispatcher_cmd [DecidableEq O] (o : O) (c : Cmd O J (Code O J)) :
    ofDispatcher o (.cmd c) = 0 := rfl

def timerOf [DecidableEq O] (o : O) (entry : O × J) : ℕ := if entry.1 = o then 1 else 0

theorem timerOf_mk [DecidableEq O] (o o' : O) (job : J) :
    timerOf o (o', job) = if o' = o then 1 else 0 := rfl

def cmds (w : Code O J → ℕ) (next : List (Cmd O J (Code O J))) : ℕ :=
  ((next.map Instr.cmd).map (ofCode w)).sum

@[simp] theorem cmds_nil (w : Code O J → ℕ) : cmds w [] = 0 := rfl

@[simp] theorem cmds_code (w : Code O J → ℕ) (c : Code O J) (next : List (Cmd O J (Code O J))) :
    cmds w (.code c :: next) = w c + cmds w next := by simp [cmds, ofCode]

@[simp] theorem cmds_doTask (w : Code O J → ℕ) (o : O) (job : J)
    (next : List (Cmd O J (Code O J))) : cmds w (.doTask o job :: next) = cmds w next := by
  simp [cmds, ofCode]

theorem cmds_append (w : Code O J → ℕ) (a b : List (Cmd O J (Code O J))) :
    cmds w (a ++ b) = cmds w a + cmds w b := by simp [cmds]

theorem cmds_calls {w : Code O J → ℕ} (hw : ∀ call : Call O J, cmds w [call.cmd] = 0)
    (calls : List (Call O J)) : cmds w (calls.map Call.cmd) = 0 := by
  induction calls with
  | nil => rfl
  | cons call calls ih =>
    rw [List.map_cons, ← List.singleton_append, cmds_append, hw, ih]

section
variable [DecidableEq O]

def pendingOf (o : O) (w : World T O J) : ℕ := w.2.pending.countP (·.mSessionObject = o)

def Context.chance (o : O) (context : Context O) : ℕ :=
  if context.mSessionObject = o then context.mIoType.chance else 0

def pendingChance (o : O) (w : World T O J) : ℕ := (w.2.pending.map (Context.chance o)).sum

def issueRef (o : O) (w : World T O J) : ℕ := if w.2.issued o ∧ ¬ w.2.returned o then 1 else 0

variable [Fintype T]

/-- The references held outside of the code that runs and of the dispatcher. -/
def held (o : O) (w : World T O J) : ℕ :=
  pendingOf o w + total (timerOf o) w.2.mTimerJobQueue + issueRef o w

/-- A session is issued once, connected at most once and disconnected at most once. -/
def chances (o : O) (w : World T O J) : ℕ :=
  pendingChance o w + (!w.2.issued o).toNat + (w.2.mConnected o).toNat + (w.2.returned o).toNat

theorem held_congr {w w' : World T O J} (o : O) (h : w'.2 = w.2) : held o w' = held o w := by
  obtain ⟨refs, net⟩ := w
  obtain ⟨refs', net'⟩ := w'
  obtain rfl : net' = net := h
  rfl

omit [Fintype T] in
theorem chances_congr {w w' : World T O J} (o : O) (h : w'.2 = w.2) :
    chances o w' = chances o w := by
  obtain ⟨refs, net⟩ := w
  obtain ⟨refs', net'⟩ := w'
  obtain rfl : net' = net := h
  rfl

variable [DecidableEq T] {t : T} {w w' : World T O J} {c : Code O J}
  {next : List (Cmd O J (Code O J))} {o : O}

omit [DecidableEq O] [Fintype T] [DecidableEq T] in
/-- Only the completions of connecting and disconnecting start with a call that counts. -/
theorem completion_cmds {u : Code O J → ℕ} {v : IoType → ℕ} {o' : O} {failed : Bool}
    {ioType : IoType} {codes : List (Code O J)} (h : completion o' failed ioType codes)
    (hconnect : u (.connectCompletion o') = v .connect)
    (hdisconnect : u (.disconnectCompletion o') = v .disconnect)
    (hv : v .recvZero = 0 ∧ v .send = 0 ∧ v .recv = 0)
    (hu : u (.postRecv o') = 0 ∧ u (.disconnectRequest o') = 0 ∧ u (.sendCompletion o') = 0 ∧
      u .calls = 0 ∧ u (.preRecv o' false) = 0) :
    cmds u (codes.map .code) = v ioType := by
  obtain ⟨hpost, hrequest, hsend, hcalls, hpre⟩ := hu
  cases ioType with
  | connect =>
    obtain rfl := h
    simpa using hconnect
  | disconnect =>
    obtain rfl := h
    simpa using hdisconnect
  | recvZero =>
    obtain rfl := h
    simp [hpost, hv.1]
  | send =>
    cases failed with
    | true =>
      obtain rfl := h
      simp [hrequest, hv.2.1]
    | false => rcases h with rfl | rfl <;> simp [hsend, hrequest, hv.2.1]
  | recv =>
    cases failed with
    | true =>
      obtain rfl := h
      simp [hrequest, hv.2.2]
    | false =>
      obtain rfl := h
      simp [hcalls, hpre, hv.2.2]

omit [Fintype T] [DecidableEq T] in
theorem completion_chance {o' : O} {failed : Bool} {ioType : IoType} {codes : List (Code O J)}
    (h : completion o' failed ioType codes) :
    cmds (Code.chance o) (codes.map .code) = if o' = o then ioType.chance else 0 :=
  completion_cmds (v := fun ioType => if o' = o then ioType.chance else 0) h (by simp) (by simp)
    (by simp) (by simp)

omit [Fintype T] [DecidableEq T] in
theorem chances_request (o o' : O) (ioType : IoType) (w : World T O J) :
    chances o (setPending (⟨o', ioType⟩ :: w.2.pending) w) =
      chances o w + if o' = o then ioType.chance else 0 := by
  have hsum : pendingChance o (setPending (⟨o', ioType⟩ :: w.2.pending) w) =
      (if o' = o then ioType.chance else 0) + pendingChance o w := by
    rw [pendingChance, setPending, List.map_cons, List.sum_cons]
    rfl
  rw [chances, chances, hsum]
  simp only [setPending]
  omega

omit [Fintype T] [DecidableEq T] in
theorem chances_setConnected (o o' : O) (connected : Bool) (w : World T O J) :
    chances o (setConnected o' connected w) +
        (if o' = o then (w.2.mConnected o').toNat else 0) =
      chances o w + if o' = o then connected.toNat else 0 := by
  have hpending : pendingChance o (setConnected o' connected w) = pendingChance o w := rfl
  rw [chances, chances, hpending]
  simp only [setConnected]
  by_cases ho : o' = o
  · subst ho
    rw [Function.update_self, if_pos rfl, if_pos rfl]
    omega
  · rw [Function.update_of_ne (Ne.symm ho), if_neg ho, if_neg ho]

omit [Fintype T] [DecidableEq T] in
theorem chances_giveBack_le (o o' : O) (w : World T O J) :
    chances o (giveBack o' w) ≤ chances o w + if o' = o then 1 else 0 := by
  have hpending : pendingChance o (giveBack o' w) = pendingChance o w := rfl
  rw [chances, chances, hpending]
  simp only [giveBack]
  by_cases ho : o' = o
  · subst ho
    rw [Function.update_self, Bool.toNat_true, if_pos rfl]
    omega
  · rw [Function.update_of_ne (Ne.symm ho), if_neg ho, Nat.add_zero]

omit [Fintype T] [DecidableEq T] in
theorem chances_issue (o : O) {o' : O} (hissued : w.2.issued o' = false) :
    chances o (issue o' w) + (if o' = o then 1 else 0) = chances o w := by
  have hpending : pendingChance o (issue o' w) = pendingChance o w := rfl
  rw [chances, chances, hpending]
  simp only [issue]
  by_cases ho : o' = o
  · subst ho
    rw [Function.update_self, hissued, if_pos rfl, Bool.not_true, Bool.toNat_false, Bool.not_false,
      Bool.toNat_true]
    omega
  · rw [Function.update_of_ne (Ne.symm ho), if_neg ho, Nat.add_zero]

omit [Fintype T] in
theorem step_chance (h : step t w c w' next) :
    cmds (Code.chance o) next + chances o w' ≤ c.chance o + chances o w := by
  cases c with
  | connectRequest o' =>
    obtain ⟨-, rfl, rfl⟩ := h
    simp [Site.ioType]
  | newContext o' site =>
    obtain ⟨rfl, rfl⟩ := h
    have hrefs : chances o (addRef o' w) = chances o w := rfl
    simp [hrefs]
  | request o' site =>
    rcases h with ⟨rfl, rfl⟩ | ⟨rfl, rfl⟩
    · have hnext : cmds (Code.chance o) ((site.accepted o').map (.code (J := J))) = 0 := by
        cases site <;> simp [Site.accepted]
      rw [hnext, chances_request, Code.chance, Site.chance]
      omega
    · cases site <;> simp [Site.failed]
  | deleteIoContext o' =>
    obtain ⟨rfl, rfl⟩ := h
    have hrefs : chances o (releaseRef o' w) = chances o w := rfl
    simp [hrefs]
  | doIocpJob o' ioType failed =>
    obtain ⟨rfl, codes, hcodes, rfl⟩ := h
    rw [cmds_append, completion_chance hcodes]
    simp
  | connectCompletion o' =>
    obtain ⟨rfl, rfl | rfl⟩ := h <;> simp
  | setConnected o' =>
    obtain ⟨hc, rfl, rfl⟩ := h
    have hset := chances_setConnected o o' true w
    rw [hc] at hset
    simp only [cmds_code, cmds_nil, Code.chance, Bool.toNat_true, Bool.toNat_false] at hset ⊢
    omega
  | clearConnected o' =>
    obtain ⟨rfl, rfl⟩ := h
    have hset := chances_setConnected o o' false w
    simp only [cmds_nil, Code.chance, Bool.toNat_false, ite_self] at hset ⊢
    omega
  | disconnectCompletion o' =>
    obtain ⟨rfl, rfl⟩ := h
    have hgive := chances_giveBack_le o o' (releaseRef o' w)
    have hrefs : chances o (releaseRef o' w) = chances o w := rfl
    rw [hrefs] at hgive
    simp only [cmds_nil, Code.chance]
    omega
  | disconnectRequest o' =>
    rw [step] at h
    split_ifs at h with hc
    · obtain ⟨rfl, rfl⟩ := h
      have hset := chances_setConnected o o' false w
      rw [hc] at hset
      simp only [cmds_code, cmds_nil, Code.chance, Site.chance, Site.ioType, IoType.chance,
        Bool.toNat_true, Bool.toNat_false, ite_self] at hset ⊢
      omega
    · obtain ⟨rfl, rfl⟩ := h
      simp
  | preRecv o' onConnect =>
    obtain ⟨rfl, rfl⟩ := h
    cases onConnect <;> split_ifs <;> simp [Site.ofPreRecv, Site.ioType, Site.failed]
  | postRecv o' =>
    obtain ⟨rfl, rfl | ⟨-, rfl⟩⟩ := h <;> simp [Site.ioType]
  | sendCompletion o' =>
    obtain ⟨rfl, rfl | rfl⟩ := h <;> simp [Site.ioType]
  | postSend o' =>
    obtain ⟨rfl, rfl | ⟨-, rfl⟩⟩ := h <;> simp [Site.ioType]
  | pushTimerJob o' job =>
    obtain ⟨rfl, rfl⟩ := h
    have hrefs : chances o (setTimers t ((o', job) :: w.2.mTimerJobQueue t) (addRef o' w)) =
      chances o w := rfl
    simp [hrefs]
  | releaseTimer o' =>
    obtain ⟨rfl, rfl⟩ := h
    have hrefs : chances o (releaseRefForThis o' w) = chances o w := rfl
    simp [hrefs]
  | calls =>
    obtain ⟨rfl, calls, rfl⟩ := h
    rw [cmds_calls fun call => by cases call <;> simp [Call.cmd]]
    simp

omit [Fintype T] in
theorem begin_chance [DecidableEq J] (h : Begin t w w' next) :
    cmds (Code.chance o) next + chances o w' ≤ chances o w := by
  cases h with
  | @doIocpJob context failed hmem =>
    have hsum := ((List.perm_cons_erase hmem).map (Context.chance o)).sum_eq
    rw [List.map_cons, List.sum_cons, Context.chance] at hsum
    simp only [chances, setPending, pendingChance, hsum, cmds_code, cmds_nil, Code.chance]
    omega
  | @doTimerJob o' job hmem =>
    have htimers : chances o (setTimers t ((w.2.mTimerJobQueue t).erase (o', job)) w) =
      chances o w := rfl
    simp [htimers]
  | @connectPlayerSessions o' hissued =>
    have hissue := chances_issue (w := addRef o' w) o hissued
    have hrefs : chances o (addRef o' w) = chances o w := rfl
    simp only [cmds_code, cmds_nil, Code.chance]
    omega
  | disconnectPlayerSessions => simp
  | calls => simp

omit [Fintype T] [DecidableEq T] in
theorem completion_holds {o' : O} {failed : Bool} {ioType : IoType} {codes : List (Code O J)}
    (h : completion o' failed ioType codes) : cmds (Code.holds o) (codes.map .code) = 0 :=
  completion_cmds (v := fun _ => 0) h (by simp) (by simp) (by simp) (by simp)

omit [Fintype T] [DecidableEq T] in
theorem addRef_refs (o o' : O) (w : World T O J) :
    (addRef o' w).1 o = w.1 o + (if o' = o then 1 else 0 : ℕ) := by
  by_cases ho : o' = o
  · subst ho
    simp [addRef]
  · simp [addRef, ho, Ne.symm ho]

omit [Fintype T] [DecidableEq T] in
theorem releaseRefForThis_refs (o o' : O) (w : World T O J) :
    (releaseRefForThis o' w).1 o = w.1 o - (if o' = o then 1 else 0 : ℕ) := by
  by_cases ho : o' = o
  · subst ho
    simp [releaseRefForThis]
  · simp [releaseRefForThis, ho, Ne.symm ho]

omit [Fintype T] [DecidableEq T] in
theorem releaseRef_refs (o o' : O) (w : World T O J) :
    (releaseRef o' w).1 o = w.1 o - (if o' = o then 1 else 0 : ℕ) :=
  releaseRefForThis_refs o o' w

omit [DecidableEq T] in
theorem held_request (o o' : O) (ioType : IoType) (w : World T O J) :
    held o (setPending (⟨o', ioType⟩ :: w.2.pending) w) = held o w + if o' = o then 1 else 0 := by
  have hcount : pendingOf o (setPending (⟨o', ioType⟩ :: w.2.pending) w) =
      pendingOf o w + if o' = o then 1 else 0 := by
    simp [pendingOf, setPending, List.countP_cons]
  have hissue : issueRef o (setPending (⟨o', ioType⟩ :: w.2.pending) w) = issueRef o w := rfl
  have htimers : (setPending (⟨o', ioType⟩ :: w.2.pending) w).2.mTimerJobQueue =
      w.2.mTimerJobQueue := rfl
  rw [held, held, hcount, hissue, htimers]
  omega

omit [DecidableEq T] in
theorem held_completed {context : Context O} (o : O) (hmem : context ∈ w.2.pending) :
    held o w = held o (setPending (w.2.pending.erase context) w) +
      if context.mSessionObject = o then 1 else 0 := by
  have hcount := (List.perm_cons_erase hmem).countP_eq (·.mSessionObject = o)
  rw [List.countP_cons] at hcount
  simp only [decide_eq_true_eq] at hcount
  have hissue : issueRef o (setPending (w.2.pending.erase context) w) = issueRef o w := rfl
  rw [held, held, hissue]
  simp only [pendingOf, setPending]
  omega

theorem held_setTimers (o : O) (t : T) (queue : List (O × J)) (w : World T O J) :
    held o (setTimers t queue w) + ((w.2.mTimerJobQueue t).map (timerOf o)).sum =
      held o w + (queue.map (timerOf o)).sum := by
  have hsum := total_update (timerOf o) w.2.mTimerJobQueue t queue
  have hissue : issueRef o (setTimers t queue w) = issueRef o w := rfl
  have hpending : pendingOf o (setTimers t queue w) = pendingOf o w := rfl
  rw [held, held, hissue, hpending]
  simp only [setTimers]
  omega

omit [DecidableEq T] in
theorem held_giveBack (o : O) {o' : O} (hissued : w.2.issued o') (hreturned : ¬w.2.returned o') :
    held o w = held o (giveBack o' w) + if o' = o then 1 else 0 := by
  by_cases ho : o' = o
  · subst ho
    simp [held, giveBack, pendingOf, issueRef, hissued, hreturned]
  · simp [held, giveBack, pendingOf, issueRef, ho, Ne.symm ho]

omit [DecidableEq T] in
theorem held_issue (o : O) {o' : O} (hissued : w.2.issued o' = false)
    (hreturned : w.2.returned o' = false) :
    held o (issue o' w) = held o w + if o' = o then 1 else 0 := by
  by_cases ho : o' = o
  · subst ho
    simp [held, issue, pendingOf, issueRef, hissued, hreturned]
  · simp [held, issue, pendingOf, issueRef, ho, Ne.symm ho]

theorem step_refs (h : step t w c w' next)
    (hissue : ∀ o, c = .disconnectCompletion o → w.2.issued o ∧ ¬ w.2.returned o) :
    w'.1 o + (c.holds o + held o w : ℕ) =
      w.1 o + (cmds (Code.holds o) next + held o w' : ℕ) := by
  cases c with
  | connectRequest o' =>
    obtain ⟨-, rfl, rfl⟩ := h
    simp
  | newContext o' site =>
    obtain ⟨rfl, rfl⟩ := h
    have hheld : held o (addRef o' w) = held o w := rfl
    rw [addRef_refs, hheld]
    simp only [Code.holds, Code.context, Code.timer, cmds_code, cmds_nil]
    omega
  | request o' site =>
    rcases h with ⟨rfl, rfl⟩ | ⟨rfl, rfl⟩
    · have hnext : cmds (Code.holds o) ((site.accepted o').map (.code (J := J))) = 0 := by
        cases site <;> simp [Site.accepted]
      have hrefs : (setPending (⟨o', site.ioType⟩ :: w.2.pending) w).1 = w.1 := rfl
      rw [hnext, held_request, hrefs]
      simp only [Code.holds, Code.context, Code.timer]
      omega
    · cases site <;> simp [Site.failed]
  | deleteIoContext o' =>
    obtain ⟨rfl, rfl⟩ := h
    have hheld : held o (releaseRef o' w) = held o w := rfl
    rw [releaseRef_refs, hheld]
    simp only [Code.holds, Code.context, Code.timer, cmds_nil]
    omega
  | doIocpJob o' ioType failed =>
    obtain ⟨rfl, codes, hcodes, rfl⟩ := h
    rw [cmds_append, completion_holds hcodes]
    simp
  | connectCompletion o' =>
    obtain ⟨rfl, rfl | rfl⟩ := h <;> simp
  | setConnected o' =>
    obtain ⟨-, rfl, rfl⟩ := h
    simp [held, setConnected, pendingOf, issueRef]
  | clearConnected o' =>
    obtain ⟨rfl, rfl⟩ := h
    simp [held, setConnected, pendingOf, issueRef]
  | disconnectCompletion o' =>
    obtain ⟨rfl, rfl⟩ := h
    obtain ⟨hissued, hreturned⟩ := hissue o' rfl
    have hgive := held_giveBack (w := releaseRef o' w) o hissued hreturned
    have hheld : held o (releaseRef o' w) = held o w := rfl
    have hrefs : (giveBack o' (releaseRef o' w)).1 = (releaseRef o' w).1 := rfl
    rw [hrefs, releaseRef_refs]
    simp only [Code.holds, Code.context, Code.timer, cmds_nil]
    omega
  | disconnectRequest o' =>
    rw [step] at h
    split_ifs at h with hc
    · obtain ⟨rfl, rfl⟩ := h
      simp [held, setConnected, pendingOf, issueRef]
    · obtain ⟨rfl, rfl⟩ := h
      simp
  | preRecv o' onConnect =>
    obtain ⟨rfl, rfl⟩ := h
    cases onConnect <;> split_ifs <;> simp [Site.ofPreRecv, Site.failed]
  | postRecv o' =>
    obtain ⟨rfl, rfl | ⟨-, rfl⟩⟩ := h <;> simp
  | sendCompletion o' =>
    obtain ⟨rfl, rfl | rfl⟩ := h <;> simp
  | postSend o' =>
    obtain ⟨rfl, rfl | ⟨-, rfl⟩⟩ := h <;> simp
  | pushTimerJob o' job =>
    obtain ⟨rfl, rfl⟩ := h
    have htimers := held_setTimers o t ((o', job) :: w.2.mTimerJobQueue t) (addRef o' w)
    have hheld : held o (addRef o' w) = held o w := rfl
    have hqueue : (addRef o' w).2 = w.2 := rfl
    have hrefs : (setTimers t ((o', job) :: w.2.mTimerJobQueue t) (addRef o' w)).1 =
      (addRef o' w).1 := rfl
    rw [hqueue, hheld, List.map_cons, List.sum_cons, timerOf_mk] at htimers
    rw [hrefs, addRef_refs]
    simp only [Code.holds, Code.context, Code.timer, cmds_nil]
    omega
  | releaseTimer o' =>
    obtain ⟨rfl, rfl⟩ := h
    have hheld : held o (releaseRefForThis o' w) = held o w := rfl
    rw [releaseRefForThis_refs, hheld]
    simp only [Code.holds, Code.context, Code.timer, cmds_nil]
    omega
  | calls =>
    obtain ⟨rfl, calls, rfl⟩ := h
    rw [cmds_calls fun call => by cases call <;> simp [Call.cmd]]
    simp

theorem begin_refs [DecidableEq J] (h : Begin t w w' next)
    (hissue : ∀ o, w.2.issued o = false → w.2.returned o = false) :
    w'.1 o + (held o w : ℕ) = w.1 o + (cmds (Code.holds o) next + held o w' : ℕ) := by
  cases h with
  | @doIocpJob context failed hmem =>
    have hcompleted := held_completed o hmem
    have hrefs : (setPending (w.2.pending.erase context) w).1 = w.1 := rfl
    rw [hrefs]
    simp only [Code.holds, Code.context, Code.timer, cmds_code, cmds_nil]
    omega
  | @doTimerJob o' job hmem =>
    have htimers := held_setTimers o t ((w.2.mTimerJobQueue t).erase (o', job)) w
    have hperm := ((List.perm_cons_erase hmem).map (timerOf o)).sum_eq
    have hrefs : (setTimers t ((w.2.mTimerJobQueue t).erase (o', job)) w).1 = w.1 := rfl
    rw [List.map_cons, List.sum_cons, timerOf_mk] at hperm
    rw [hrefs]
    simp only [Code.holds, Code.context, Code.timer, cmds_doTask, cmds_code, cmds_nil]
    omega
  | @connectPlayerSessions o' hissued =>
    have hissued' := held_issue (w := addRef o' w) o hissued (hissue o' hissued)
    have hheld : held o (addRef o' w) = held o w := rfl
    have hrefs : (issue o' (addRef o' w)).1 = (addRef o' w).1 := rfl
    rw [hrefs, addRef_refs]
    simp only [Code.holds, Code.context, Code.timer, cmds_code, cmds_nil]
    omega
  | disconnectPlayerSessions => simp
  | calls => simp

structure Apart (x x' : Dispatcher.Shared T O J (Net T O J)) (i : Instr O J (Code O J))
    (next : List (Instr O J (Code O J))) : Prop where
  world : x'.world = x.world
  code : ∀ w : Code O J → ℕ, w .calls = 0 → ofCode w i = 0 ∧ (next.map (ofCode w)).sum = 0
  refs : ∀ o, x'.mRefCount o + (ofDispatcher o i + total (listed o) x.executerList : ℕ) =
    x.mRefCount o + ((next.map (ofDispatcher o)).sum + total (listed o) x'.executerList : ℕ)

theorem dispatch_apart [DecidableEq J] {x x' : Dispatcher.Shared T O J (Net T O J)}
    {i : Instr O J (Code O J)} {next : List (Instr O J (Code O J))}
    (he : Dispatcher.exec program t x i x' next) (hi : ∀ c, i ≠ .cmd (.code c)) :
    Apart x x' i next := by
  cases i with
  | cmd c =>
    cases c with
    | code c => exact absurd rfl (hi c)
    | doTask o' job =>
      obtain ⟨rfl, hnext⟩ := he
      split_ifs at hnext
      · subst hnext
        exact ⟨rfl, fun w _ => ⟨rfl, rfl⟩, fun o => rfl⟩
      · subst hnext
        exact ⟨rfl, fun w _ => ⟨rfl, rfl⟩, fun o => rfl⟩
  | pushOnly o' job =>
    obtain ⟨rfl, rfl⟩ := he
    exact ⟨rfl, fun w _ => ⟨rfl, rfl⟩, fun o => rfl⟩
  | pushOwn o' job =>
    obtain ⟨rfl, rfl⟩ := he
    exact ⟨rfl, fun w _ => ⟨rfl, rfl⟩, fun o => rfl⟩
  | addRef o' =>
    obtain ⟨rfl, rfl⟩ := he
    refine ⟨rfl, fun w _ => ⟨rfl, rfl⟩, fun o => ?_⟩
    by_cases ho : o' = o
    · subst ho
      simp [Dispatcher.Shared.addRefForThis, ofDispatcher]
      omega
    · simp [Dispatcher.Shared.addRefForThis, ofDispatcher, ho, Ne.symm ho]
  | check o' =>
    rcases Dispatcher.exec_check he with ⟨current, hc, rfl, rfl⟩ | ⟨hc, rfl, rfl⟩
    · refine ⟨rfl, fun w _ => ⟨rfl, rfl⟩, fun o => ?_⟩
      have hl := total_update (listed o) x.executerList t (x.executerList t ++ [o'])
      rw [List.map_append, List.sum_append, List.map_singleton, List.sum_singleton, listed] at hl
      simp only [Dispatcher.Shared.setExecuters, ofDispatcher, List.map_nil, List.sum_nil]
      omega
    · refine ⟨rfl, fun w _ => ⟨rfl, rfl⟩, fun o => ?_⟩
      simp [Dispatcher.Shared.setCurrent, ofDispatcher]
  | flush o' =>
    rcases he with ⟨rfl, rfl⟩ | ⟨job, tail, -, rfl, rfl⟩
    · exact ⟨rfl, fun w _ => ⟨rfl, rfl⟩, fun o => rfl⟩
    · refine ⟨rfl, fun w hw => ⟨rfl, ?_⟩, fun o => rfl⟩
      simp [program, ofCode, hw]
  | sub o' job =>
    obtain ⟨rfl, hnext⟩ := he
    split_ifs at hnext
    · subst hnext
      exact ⟨rfl, fun w _ => ⟨rfl, rfl⟩, fun o => rfl⟩
    · subst hnext
      exact ⟨rfl, fun w _ => ⟨rfl, rfl⟩, fun o => rfl⟩
  | drain o' =>
    rcases Dispatcher.exec_drain he with ⟨hl, rfl, rfl⟩ | ⟨dispatcher, tail, hl, rfl, rfl⟩
    · refine ⟨rfl, fun w _ => ⟨rfl, rfl⟩, fun o => ?_⟩
      simp [Dispatcher.Shared.setCurrent, ofDispatcher]
    · refine ⟨rfl, fun w _ => ⟨rfl, rfl⟩, fun o => ?_⟩
      have hm := total_update (listed o) x.executerList t tail
      rw [hl, List.map_cons, List.sum_cons, listed] at hm
      simp only [Dispatcher.Shared.setExecuters, ofDispatcher, List.map_cons, List.map_nil,
        List.sum_cons, List.sum_nil]
      omega
  | release o' =>
    obtain ⟨rfl, rfl⟩ := he
    refine ⟨rfl, fun w _ => ⟨rfl, rfl⟩, fun o => ?_⟩
    by_cases ho : o' = o
    · subst ho
      simp [Dispatcher.Shared.releaseRefForThis, ofDispatcher]
      omega
    · simp [Dispatcher.Shared.releaseRefForThis, ofDispatcher, ho, Ne.symm ho]

end

section
variable [Fintype T] [DecidableEq O] {s : State T O J}

/-- The counts and the world that the sessions' code sees. -/
def world (s : State T O J) : World T O J := (s.shared.mRefCount, s.shared.world)

def contexts (s : State T O J) (o : O) : ℕ :=
  pendingOf o (world s) + total (ofCode (Code.context o)) s.stack

def timers (s : State T O J) (o : O) : ℕ :=
  total (timerOf o) s.shared.world.mTimerJobQueue + total (ofCode (Code.timer o)) s.stack

/-- The calls of `DoTask` that took a reference on `o` and have not returned it, the
one that flushes `o` and the ones that deferred it. -/
def dispatchers (s : State T O J) (o : O) : ℕ :=
  total (listed o) s.shared.executerList + total (ofDispatcher o) s.stack

structure Inv (s : State T O J) : Prop where
  chance : ∀ o, total (ofCode (Code.chance o)) s.stack + chances o (world s) ≤ 1
  refs : ∀ o, s.shared.mRefCount o =
    (total (ofCode (Code.holds o)) s.stack + held o (world s) + dispatchers s o : ℕ)

theorem Inv.init : Inv (⟨.init .init, fun _ => []⟩ : State T O J) where
  chance o := by
    rw [Threads.total_idle]
    exact Nat.le_refl 1
  refs o := by
    have hlist : total (listed o) (fun _ : T => ([] : List O)) = 0 := Threads.total_idle _
    have htimer : total (timerOf o) (fun _ : T => ([] : List (O × J))) = 0 := Threads.total_idle _
    simp [Threads.total_idle, held, pendingOf, issueRef, dispatchers, world,
      Dispatcher.Shared.init, Net.init, hlist, htimer]

theorem Inv.disconnecting (h : Inv s) {t : T} {o : O}
    (ht : .cmd (.code (.disconnectCompletion o)) ∈ s.stack t) :
    s.shared.world.issued o ∧ ¬ s.shared.world.returned o := by
  have hchance := h.chance o
  have hone : 1 ≤ total (ofCode (Code.chance o)) s.stack := by
    simpa [ofCode] using Threads.le_total (ofCode (Code.chance o)) ht
  have hnone : chances o (world s) = 0 := by omega
  simp only [chances, world, Nat.add_eq_zero_iff, Bool.toNat_eq_zero, Bool.not_eq_false'] at hnone
  exact ⟨hnone.1.1.2, by simp [hnone.2]⟩

theorem Inv.not_returned (h : Inv s) {o : O} (hissued : s.shared.world.issued o = false) :
    s.shared.world.returned o = false := by
  have hchance := h.chance o
  simp only [chances, world, hissued, Bool.not_false, Bool.toNat_true] at hchance
  simpa using (by omega : (s.shared.world.returned o).toNat = 0)

variable [DecidableEq T] [DecidableEq J]

theorem Inv.start (h : Inv s) {t : T} (hidle : s.stack t = []) {out : World T O J}
    {next : List (Cmd O J (Code O J))} (hb : Begin t (world s) out next) :
    Inv (s.move t (s.shared.outside out) (next.map .cmd)) where
  chance o := by
    have hchance := h.chance o
    have hstep := begin_chance (o := o) hb
    have htotal := Threads.total_start (ofCode (Code.chance o)) hidle (s.shared.outside out)
      (next.map .cmd)
    rw [cmds] at hstep
    change total _ _ + chances o out ≤ 1
    omega
  refs o := by
    have hrefs := h.refs o
    have hstep := begin_refs (o := o) hb fun o => h.not_returned
    have hholds := Threads.total_start (ofCode (Code.holds o)) hidle (s.shared.outside out)
      (next.map .cmd)
    have hdispatch := Threads.total_start (ofDispatcher o) hidle (s.shared.outside out)
      (next.map .cmd)
    rw [Dispatcher.sum_cmds fun _ => rfl] at hdispatch
    rw [cmds] at hstep
    change out.1 o = (total _ _ + held o out + (total _ s.shared.executerList + total _ _) : ℕ)
    simp only [dispatchers, world] at hrefs hstep
    omega

omit [DecidableEq J] in
theorem Inv.code (h : Inv s) {t : T} {c : Code O J} {rest : List (Instr O J (Code O J))}
    (hs : s.stack t = .cmd (.code c) :: rest) {out : World T O J}
    {next : List (Cmd O J (Code O J))} (hc : step t (world s) c out next) :
    Inv (s.move t (s.shared.outside out) (next.map .cmd ++ rest)) where
  chance o := by
    have hchance := h.chance o
    have hstep := step_chance (o := o) hc
    have htotal := Threads.total_exec (ofCode (Code.chance o)) hs (s.shared.outside out)
      (next.map .cmd)
    rw [cmds] at hstep
    rw [ofCode] at htotal
    change total _ _ + chances o out ≤ 1
    omega
  refs o := by
    have hrefs := h.refs o
    have hstep := step_refs (o := o) hc fun o ho =>
      h.disconnecting (t := t) (by rw [hs, ho]; exact List.mem_cons_self)
    have hholds := Threads.total_exec (ofCode (Code.holds o)) hs (s.shared.outside out)
      (next.map .cmd)
    have hdispatch := Threads.total_exec (ofDispatcher o) hs (s.shared.outside out)
      (next.map .cmd)
    rw [Dispatcher.sum_cmds fun _ => rfl, ofDispatcher_cmd] at hdispatch
    rw [cmds] at hstep
    rw [ofCode] at hholds
    change out.1 o = (total _ _ + held o out + (total _ s.shared.executerList + total _ _) : ℕ)
    simp only [dispatchers, world] at hrefs hstep
    omega

omit [DecidableEq J] in
theorem Inv.apart (h : Inv s) {t : T} {i : Instr O J (Code O J)}
    {rest next : List (Instr O J (Code O J))} (hs : s.stack t = i :: rest)
    {x : Dispatcher.Shared T O J (Net T O J)} (ha : Apart s.shared x i next) :
    Inv (s.move t x (next ++ rest)) where
  chance o := by
    have hchance := h.chance o
    have htotal := Threads.total_exec (ofCode (Code.chance o)) hs x next
    obtain ⟨htop, hnext⟩ := ha.code (Code.chance o) rfl
    have hworld : chances o (world (s.move t x (next ++ rest))) = chances o (world s) :=
      chances_congr o ha.world
    omega
  refs o := by
    have hrefs := h.refs o
    have hstep := ha.refs o
    have hholds := Threads.total_exec (ofCode (Code.holds o)) hs x next
    have hdispatch := Threads.total_exec (ofDispatcher o) hs x next
    obtain ⟨htop, hnext⟩ := ha.code (Code.holds o) rfl
    have hworld : held o (world (s.move t x (next ++ rest))) = held o (world s) :=
      held_congr o ha.world
    rw [hworld]
    simp only [dispatchers, Threads.State.move_shared] at hrefs ⊢
    omega

theorem Inv.step (h : Inv s) {t : T} {s' : State T O J}
    (hs : Threads.Step (Dispatcher.machine program) s t s') : Inv s' := by
  cases hs with
  | start hidle hstart =>
    obtain ⟨out, next, hb, rfl, rfl⟩ := hstart
    exact h.start hidle hb
  | @exec i rest x next htop hexec =>
    by_cases hi : ∃ c, i = .cmd (.code c)
    · obtain ⟨c, rfl⟩ := hi
      obtain ⟨out, next, hc, rfl, rfl⟩ := hexec
      exact h.code htop hc
    · exact h.apart htop (dispatch_apart hexec (not_exists.mp hi))

theorem Reached.inv (h : Reached s) : Inv s :=
  Threads.Reachable.invariant (fun _ hx => hx ▸ Inv.init) (fun _ _ _ hi hs _ => hi.step hs) h

theorem Reached.refs (h : Reached s) (o : O) : s.shared.mRefCount o =
    (contexts s o + timers s o + dispatchers s o + issueRef o (world s) : ℕ) := by
  have hrefs := h.inv.refs o
  have hholds : total (ofCode (Code.holds o)) s.stack =
      total (ofCode (Code.context o)) s.stack + total (ofCode (Code.timer o)) s.stack := by
    rw [← Threads.total_add]
    refine congrArg (total · s.stack) (funext fun i => ?_)
    cases i with
    | cmd c => cases c <;> rfl
    | _ => rfl
  have hheld : held o (world s) = pendingOf o (world s) +
    total (timerOf o) s.shared.world.mTimerJobQueue + issueRef o (world s) := rfl
  simp only [contexts, timers]
  omega

/-- It releases a reference of `o`, or works on a context that it will release. -/
def Releases (o : O) : Instr O J (Code O J) → Prop
  | .cmd (.code (.deleteIoContext o')) | .cmd (.code (.disconnectCompletion o'))
  | .cmd (.code (.releaseTimer o')) | .cmd (.code (.doIocpJob o' _ _))
  | .cmd (.code (.request o' _)) | .release o' => o' = o
  | _ => False

omit [DecidableEq T] [DecidableEq J] in
theorem Inv.releases (h : Inv s) {t : T} {o : O} {i : Instr O J (Code O J)} (hi : i ∈ s.stack t)
    (hr : Releases o i) : 0 < s.shared.mRefCount o := by
  have hrefs := h.refs o
  have hholds := Threads.le_total (ofCode (Code.holds o)) hi
  have hdispatch := Threads.le_total (ofDispatcher o) hi
  cases i with
  | cmd c =>
    cases c with
    | code c =>
      cases c with
      | disconnectCompletion o' =>
        obtain rfl : o' = o := hr
        obtain ⟨hissued, hreturned⟩ := h.disconnecting hi
        have hone : issueRef o' (world s) = 1 := if_pos ⟨hissued, hreturned⟩
        rw [held] at hrefs
        omega
      | deleteIoContext o' | releaseTimer o' | doIocpJob o' _ _ | request o' _ =>
        obtain rfl : o' = o := hr
        simp [ofCode] at hholds
        omega
      | _ => exact absurd hr id
    | doTask o' job => exact absurd hr id
  | release o' =>
    obtain rfl : o' = o := hr
    simp [ofDispatcher] at hdispatch
    rw [dispatchers] at hrefs
    omega
  | _ => exact absurd hr id

/-- The count of a session is what its contexts, timer entries, dispatchers and its
issuing hold. No release finds it at zero, and whatever is pending refers to a session
that is counted. -/
theorem refCount_eq (h : Reached s) (o : O) :
    s.shared.mRefCount o =
        (contexts s o + timers s o + dispatchers s o + issueRef o (world s) : ℕ) ∧
      (∀ t, ∀ i ∈ s.stack t, Releases o i → 0 < s.shared.mRefCount o) ∧
      (∀ context ∈ s.shared.world.pending, context.mSessionObject = o →
        0 < s.shared.mRefCount o) ∧
      (∀ t job, (o, job) ∈ s.shared.world.mTimerJobQueue t → 0 < s.shared.mRefCount o) ∧
      (∀ t, o ∈ s.shared.executerList t ∨ Dispatcher.Flushes s t o →
        0 < s.shared.mRefCount o) := by
  have hrefs := h.refs o
  refine ⟨hrefs, fun t i hi hr => h.inv.releases hi hr, ?_, ?_, ?_⟩
  · rintro context hmem rfl
    have hone : 0 < pendingOf context.mSessionObject (world s) :=
      List.countP_pos_iff.mpr ⟨context, hmem, by simp⟩
    rw [contexts] at hrefs
    omega
  · intro t job hmem
    have hone := Threads.le_total (timerOf o) hmem
    rw [timerOf, if_pos rfl] at hone
    rw [timers] at hrefs
    omega
  · rintro t (ht | ht)
    · have hone := Threads.le_total (listed o) ht
      rw [listed, if_pos rfl] at hone
      rw [dispatchers] at hrefs
      omega
    · have hkeeps := (Dispatcher.Reached.inv h).keeps_of_flushes ht
      have hsum := Threads.sum_le_total (Instr.keeps o) s.stack t
      have hmono : total (Instr.keeps o) s.stack ≤ total (ofDispatcher o) s.stack :=
        Threads.total_mono (fun i => by cases i <;> simp [ofDispatcher]) s.stack
      rw [dispatchers] at hrefs
      omega

omit [Fintype T] in
theorem Reached.start (h : Reached s) {t : T} (hs : s.stack t = []) {out : World T O J}
    {next : List (Cmd O J (Code O J))} (hb : Begin t (world s) out next) :
    Reached (s.move t (s.shared.outside out) (next.map .cmd)) :=
  Dispatcher.Reached.start h hs hb

omit [Fintype T] in
theorem Reached.code (h : Reached s) {t : T} {c : Code O J} {rest : List (Instr O J (Code O J))}
    (hs : s.stack t = .cmd (.code c) :: rest) {out : World T O J}
    {next : List (Cmd O J (Code O J))} (hc : step t (world s) c out next) :
    Reached (s.move t (s.shared.outside out) (next.map .cmd ++ rest)) :=
  Dispatcher.Reached.exec h hs ⟨out, next, hc, rfl, rfl⟩

end

theorem connecting_counted : ∃ s : State Unit Unit Unit, Reached s ∧
    (⟨(), .connect⟩ : Context Unit) ∈ s.shared.world.pending ∧ 0 < s.shared.mRefCount () ∧
      s.shared.mRefCount () =
        (contexts s () + timers s () + dispatchers s () + issueRef () (world s) : ℕ) := by
  have h0 : Reached (⟨.init .init, fun _ => []⟩ : State Unit Unit Unit) := .init rfl
  have h1 := h0.start (t := ()) rfl (.connectPlayerSessions (o := ()) rfl)
  have h2 := h1.code (t := ()) rfl ⟨rfl, rfl, rfl⟩
  have h3 := h2.code (t := ()) rfl ⟨rfl, rfl⟩
  have h4 := h3.code (t := ()) rfl (.inl ⟨rfl, rfl⟩)
  have hcount := refCount_eq h4 ()
  refine ⟨_, h4, ?_, ?_, hcount.1⟩
  · exact List.mem_cons_self
  · exact hcount.2.2.1 ⟨(), .connect⟩ List.mem_cons_self rfl

section
variable [DecidableEq O]

/-- Not connected, no context, no timer entry and in no dispatcher. -/
def Quiescent [Fintype T] (s : State T O J) (o : O) : Prop :=
  s.shared.world.mConnected o = false ∧ contexts s o = 0 ∧ timers s o = 0 ∧ dispatchers s o = 0

variable [DecidableEq T]

/-- `ReleaseRef` compares the count before the subtraction with zero. -/
theorem step_onRelease {t : T} {w w' : World T O J} {c : Code O J}
    {next : List (Cmd O J (Code O J))} (h : step t w c w' next)
    (hpos : ∀ o, Releases (J := J) o (.cmd (.code c)) → 0 < w.1 o) :
    w'.2.onRelease = w.2.onRelease := by
  cases c with
  | deleteIoContext o =>
    obtain ⟨rfl, -⟩ := h
    exact if_neg (hpos o rfl).ne'
  | disconnectCompletion o =>
    obtain ⟨rfl, -⟩ := h
    exact if_neg (hpos o rfl).ne'
  | request o site =>
    rcases h with ⟨rfl, -⟩ | ⟨rfl, -⟩
    · rfl
    · rfl
  | disconnectRequest o =>
    rw [step] at h
    split_ifs at h
    · obtain ⟨rfl, -⟩ := h
      rfl
    · obtain ⟨rfl, -⟩ := h
      rfl
  | connectRequest o | setConnected o =>
    obtain ⟨-, rfl, -⟩ := h
    rfl
  | _ =>
    obtain ⟨rfl, -⟩ := h
    rfl

variable [Fintype T] [DecidableEq J] {s : State T O J}

theorem Reached.onRelease_never (h : Reached s) (o : O) : s.shared.world.onRelease o = 0 := by
  induction h with
  | init hx =>
    obtain rfl := hx
    rfl
  | step hr hs _ ih =>
    refine Eq.trans ?_ ih
    have hinv := Reached.inv hr
    cases hs with
    | start hidle hstart =>
      obtain ⟨out, next, hb, rfl, -⟩ := hstart
      cases hb <;> rfl
    | @exec i rest x next htop hexec =>
      by_cases hi : ∃ c, i = .cmd (.code c)
      · obtain ⟨c, rfl⟩ := hi
        obtain ⟨out, next, hc, rfl, rfl⟩ := hexec
        have hmem := htop ▸ List.mem_cons_self
        exact congrFun (step_onRelease hc fun o ho => hinv.releases hmem ho) o
      · exact congrArg (·.onRelease o) (dispatch_apart hexec (not_exists.mp hi)).world

/-- However a session comes to rest, `OnRelease` was not called; its count is zero only
if `DisconnectCompletion` has returned the reference of the issuing. -/
theorem release_lost (h : Reached s) {o : O} (hissued : s.shared.world.issued o)
    (hq : Quiescent s o) :
    ¬ (s.shared.mRefCount o = 0 ∧ s.shared.world.onRelease o = 1) ∧
      (s.shared.mRefCount o = 0 ↔ s.shared.world.returned o) := by
  have hnever := h.onRelease_never o
  have hrefs := h.refs o
  obtain ⟨-, hcontexts, htimers, hdispatchers⟩ := hq
  rw [hcontexts, htimers, hdispatchers] at hrefs
  refine ⟨fun hboth => ?_, ?_⟩
  · omega
  · simp [issueRef, world, hissued] at hrefs
    by_cases hreturned : s.shared.world.returned o = true
    · simp [hrefs, hreturned]
    · simp [hrefs, hreturned]

end

theorem unconnected_reached : ∃ s : State Unit Unit Unit, Reached s ∧ (∀ t, s.stack t = []) ∧
    s.shared.world.issued () = true ∧ Quiescent s () ∧ s.shared.mRefCount () = 1 := by
  have h0 : Reached (⟨.init .init, fun _ => []⟩ : State Unit Unit Unit) := .init rfl
  have h1 := h0.start (t := ()) rfl (.connectPlayerSessions (o := ()) rfl)
  have h2 := h1.code (t := ()) rfl ⟨rfl, rfl, rfl⟩
  have h3 := h2.code (t := ()) rfl ⟨rfl, rfl⟩
  have h4 := h3.code (t := ()) rfl (.inr ⟨rfl, rfl⟩)
  have h5 := h4.code (t := ()) rfl ⟨rfl, rfl⟩
  exact ⟨_, h5, fun _ => rfl, rfl, ⟨rfl, rfl, rfl, rfl⟩, rfl⟩

theorem unconnected_not_released : ∃ s : State Unit Unit Unit, Reached s ∧
    (∀ t, s.stack t = []) ∧ s.shared.world.issued () = true ∧ Quiescent s () ∧
      ¬ (s.shared.mRefCount () = 0 ∧ s.shared.world.onRelease () = 1) := by
  obtain ⟨s, h, hidle, hissued, hq, hone⟩ := unconnected_reached
  refine ⟨s, h, hidle, hissued, hq, fun hboth => ?_⟩
  rw [hone] at hboth
  exact absurd hboth.1 Int.one_ne_zero

theorem unconnected_lost : ∃ s : State Unit Unit Unit,
    (s.shared.mRefCount () = 0 ↔ s.shared.world.returned () = true) ∧
      s.shared.mRefCount () = 1 := by
  obtain ⟨s, h, -, hissued, hq, hone⟩ := unconnected_reached
  exact ⟨s, (release_lost h hissued hq).2, hone⟩

end DummySession

end GameLift
