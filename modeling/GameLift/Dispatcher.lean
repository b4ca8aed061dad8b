import Mathlib.Data.List.Count
import GameLift.Threads

/-! JobDispatcher.h: tasks bound to an object. The first task of an idle object makes
the calling thread flush it, at once or when it is done with the object it flushes. -/

namespace GameLift

namespace Dispatcher

/-- What threads and tasks do: code of their own, and `DoTask`. -/
inductive Cmd (O J C : Type) where
  | code (c : C)
  | doTask (o : O) (job : J)

/-- A running thread's next step. `DoTask` goes through the points up to `release`,
`flush` is at the head of the loop of `Flush`. -/
inductive Instr (O J C : Type) where
  | cmd (c : Cmd O J C)
  | pushOnly (o : O) (job : J)
  | pushOwn (o : O) (job : J)
  | addRef (o : O)
  | check (o : O)
  | flush (o : O)
  | sub (o : O) (job : J)
  | drain (o : O)
  | release (o : O)

/-- The code around the dispatcher. It may change the reference counts and a world
of its own, and goes on with any commands. -/
structure Program (T O J C W : Type) where
  begin : T → (O → ℤ) × W → (O → ℤ) × W → List (Cmd O J C) → Prop
  code : T → C → (O → ℤ) × W → (O → ℤ) × W → List (Cmd O J C) → Prop
  onExecute : O → J → List (Cmd O J C)

/-- `added` lists the tasks of an object in the order of the `fetch_add`s of `DoTask`,
`pushed` in that of the pushes, `executed` as they start and `finished` in the order
of the `fetch_sub`s. -/
structure Shared (T O J W : Type) where
  mRemainTaskCount : O → ℤ
  mJobQueue : O → List J
  mRefCount : O → ℤ
  executerList : T → List O
  currentExecuter : T → Option O
  world : W
  added : O → List J
  pushed : O → List J
  executed : O → List J
  finished : O → List J

variable {T O J C W : Type}

def Shared.init (world : W) : Shared T O J W where
  mRemainTaskCount _ := 0
  mJobQueue _ := []
  mRefCount _ := 0
  executerList _ := []
  currentExecuter _ := none
  world := world
  added _ := []
  pushed _ := []
  executed _ := []
  finished _ := []

namespace Shared

variable [DecidableEq T] [DecidableEq O] (x : Shared T O J W)

def fetchAdd (o : O) (job : J) : Shared T O J W :=
  { x with
    mRemainTaskCount := Function.update x.mRemainTaskCount o (x.mRemainTaskCount o + 1)
    added := Function.update x.added o (x.added o ++ [job]) }

def push (o : O) (job : J) : Shared T O J W :=
  { x with
    mJobQueue := Function.update x.mJobQueue o (x.mJobQueue o ++ [job])
    pushed := Function.update x.pushed o (x.pushed o ++ [job]) }

def pop (o : O) (job : J) (rest : List J) : Shared T O J W :=
  { x with
    mJobQueue := Function.update x.mJobQueue o rest
    executed := Function.update x.executed o (x.executed o ++ [job]) }

def fetchSub (o : O) (job : J) : Shared T O J W :=
  { x with
    mRemainTaskCount := Function.update x.mRemainTaskCount o (x.mRemainTaskCount o - 1)
    finished := Function.update x.finished o (x.finished o ++ [job]) }

def addRefForThis (o : O) : Shared T O J W :=
  { x with mRefCount := Function.update x.mRefCount o (x.mRefCount o + 1) }

def releaseRefForThis (o : O) : Shared T O J W :=
  { x with mRefCount := Function.update x.mRefCount o (x.mRefCount o - 1) }

def setExecuters (t : T) (list : List O) : Shared T O J W :=
  { x with executerList := Function.update x.executerList t list }

def setCurrent (t : T) (o : Option O) : Shared T O J W :=
  { x with currentExecuter := Function.update x.currentExecuter t o }

def outside (out : (O → ℤ) × W) : Shared T O J W :=
  { x with mRefCount := out.1, world := out.2 }

end Shared

section Machine
variable [DecidableEq T] [DecidableEq O]

def exec (P : Program T O J C W) (t : T) (x : Shared T O J W) :
    Instr O J C → Shared T O J W → List (Instr O J C) → Prop
  | .cmd (.code c), x', next => ∃ out cmds,
    P.code t c (x.mRefCount, x.world) out cmds ∧ x' = x.outside out ∧ next = cmds.map .cmd
  | .cmd (.doTask o job), x', next => x' = x.fetchAdd o job ∧
    next = if x.mRemainTaskCount o ≠ 0 then [.pushOnly o job] else [.pushOwn o job]
  | .pushOnly o job, x', next => x' = x.push o job ∧ next = []
  | .pushOwn o job, x', next => x' = x.push o job ∧ next = [.addRef o]
  | .addRef o, x', next => x' = x.addRefForThis o ∧ next = [.check o]
  | .check o, x', next =>
    match x.currentExecuter t with
    | some _ => x' = x.setExecuters t (x.executerList t ++ [o]) ∧ next = []
    | none => x' = x.setCurrent t (some o) ∧ next = [.flush o, .drain o]
  | .flush o, x', next =>
    -- `Pop` fails on an empty queue, and while the front is not linked yet.
    x' = x ∧ next = [.flush o] ∨
    ∃ job rest, x.mJobQueue o = job :: rest ∧ x' = x.pop o job rest ∧
      next = (P.onExecute o job).map .cmd ++ [.sub o job]
  | .sub o job, x', next => x' = x.fetchSub o job ∧
    next = if x.mRemainTaskCount o = 1 then [] else [.flush o]
  | .drain o, x', next =>
    match x.executerList t with
    | dispatcher :: rest => x' = x.setExecuters t rest ∧
      next = [.flush dispatcher, .release dispatcher, .drain o]
    | [] => x' = x.setCurrent t none ∧ next = [.release o]
  | .release o, x', next => x' = x.releaseRefForThis o ∧ next = []

def machine (P : Program T O J C W) : Threads.Machine T (Shared T O J W) (Instr O J C) where
  start t x x' next := ∃ out cmds,
    P.begin t (x.mRefCount, x.world) out cmds ∧ x' = x.outside out ∧ next = cmds.map .cmd
  exec t i x x' next := exec P t x i x' next

abbrev State (T O J C W : Type) := Threads.State T (Shared T O J W) (Instr O J C)

def Reached (P : Program T O J C W) (world : W) (s : State T O J C W) : Prop :=
  Threads.Reachable (machine P) (· = .init world) (fun _ _ => True) s

end Machine

section Weights
variable [DecidableEq O]

/-- It makes its thread the owner of `o`, the only one that pops its queue. -/
@[simp] def Instr.owner (o : O) : Instr O J C → ℕ
  | pushOwn o' _ | addRef o' | check o' | flush o' | sub o' _ => if o' = o then 1 else 0
  | _ => 0

/-- It brings a task of `o` that satisfies `p` and is still to be pushed. -/
@[simp] def Instr.waiting (o : O) (p : J → Bool) : Instr O J C → ℕ
  | pushOnly o' job | pushOwn o' job => if o' = o ∧ p job then 1 else 0
  | _ => 0

/-- It executes a task of `o` that satisfies `p`. -/
@[simp] def Instr.running (o : O) (p : J → Bool) : Instr O J C → ℕ
  | sub o' job => if o' = o ∧ p job then 1 else 0
  | _ => 0

@[simp] def Instr.pushing (o : O) : Instr O J C → ℕ
  | pushOnly o' _ => if o' = o then 1 else 0
  | _ => 0

@[simp] def Instr.flushing (o : O) : Instr O J C → ℕ
  | flush o' => if o' = o then 1 else 0
  | _ => 0

@[simp] def Instr.flushes (o : O) : Instr O J C → ℕ
  | flush o' | sub o' _ => if o' = o then 1 else 0
  | _ => 0

/-- It has the reference that `DoTask` took to be flushing. -/
@[simp] def Instr.keeps (o : O) : Instr O J C → ℕ
  | drain o' | release o' => if o' = o then 1 else 0
  | _ => 0

@[simp] def Instr.draining : Instr O J C → ℕ
  | drain _ => 1
  | _ => 0

/-- It may have to wait for what is above it on the stack. -/
def Instr.Suspends : Instr O J C → Prop
  | cmd _ | sub _ _ | drain _ | release _ => True
  | _ => False

def listed (o o' : O) : ℕ := if o' = o then 1 else 0

end Weights

section Cases
variable [DecidableEq T] [DecidableEq O] {P : Program T O J C W} {t : T} {x x' : Shared T O J W}
  {next : List (Instr O J C)} {o : O}

theorem exec_check (he : exec P t x (.check o) x' next) :
    (∃ current, x.currentExecuter t = some current ∧
      x' = x.setExecuters t (x.executerList t ++ [o]) ∧ next = []) ∨
    (x.currentExecuter t = none ∧ x' = x.setCurrent t (some o) ∧ next = [.flush o, .drain o]) := by
  cases hc : x.currentExecuter t with
  | some current =>
    simp only [exec, hc] at he
    exact .inl ⟨current, rfl, he⟩
  | none =>
    simp only [exec, hc] at he
    exact .inr ⟨rfl, he⟩

theorem exec_drain (he : exec P t x (.drain o) x' next) :
    (x.executerList t = [] ∧ x' = x.setCurrent t none ∧ next = [.release o]) ∨
    ∃ dispatcher tail, x.executerList t = dispatcher :: tail ∧
      x' = x.setExecuters t tail ∧ next = [.flush dispatcher, .release dispatcher, .drain o] := by
  cases hl : x.executerList t with
  | nil =>
    simp only [exec, hl] at he
    exact .inl ⟨rfl, he⟩
  | cons dispatcher tail =>
    simp only [exec, hl] at he
    exact .inr ⟨dispatcher, tail, rfl, he⟩

end Cases

theorem sum_cmds {w : Instr O J C → ℕ} (hw : ∀ c, w (.cmd c) = 0) (cmds : List (Cmd O J C)) :
    ((cmds.map Instr.cmd).map w).sum = 0 := by
  induction cmds with
  | nil => rfl
  | cons c cmds ih => rw [List.map_cons, List.map_cons, List.sum_cons, hw, ih]

open Threads (total total_start total_exec total_update)

structure Ledger (J : Type) where
  count : ℤ
  queue : List J
  added : List J
  pushed : List J
  executed : List J
  finished : List J

def Shared.ledger (x : Shared T O J W) (o : O) : Ledger J where
  count := x.mRemainTaskCount o
  queue := x.mJobQueue o
  added := x.added o
  pushed := x.pushed o
  executed := x.executed o
  finished := x.finished o

def Ledger.fetchAdd (l : Ledger J) (job : J) : Ledger J :=
  { l with count := l.count + 1, added := l.added ++ [job] }

def Ledger.push (l : Ledger J) (job : J) : Ledger J :=
  { l with queue := l.queue ++ [job], pushed := l.pushed ++ [job] }

def Ledger.pop (l : Ledger J) (job : J) (rest : List J) : Ledger J :=
  { l with queue := rest, executed := l.executed ++ [job] }

def Ledger.fetchSub (l : Ledger J) (job : J) : Ledger J :=
  { l with count := l.count - 1, finished := l.finished ++ [job] }

section Ledger

theorem ledger_count (x : Shared T O J W) (o : O) :
    (x.ledger o).count = x.mRemainTaskCount o := rfl

theorem ledger_queue (x : Shared T O J W) (o : O) : (x.ledger o).queue = x.mJobQueue o := rfl

variable [DecidableEq O] (x : Shared T O J W) {o o' : O} (job : J)

theorem ledger_fetchAdd_self : (x.fetchAdd o job).ledger o = (x.ledger o).fetchAdd job := by
  simp [Shared.ledger, Shared.fetchAdd, Ledger.fetchAdd]

theorem ledger_fetchAdd_ne (h : o ≠ o') : (x.fetchAdd o' job).ledger o = x.ledger o := by
  simp [Shared.ledger, Shared.fetchAdd, h]

theorem ledger_push_self : (x.push o job).ledger o = (x.ledger o).push job := by
  simp [Shared.ledger, Shared.push, Ledger.push]

theorem ledger_push_ne (h : o ≠ o') : (x.push o' job).ledger o = x.ledger o := by
  simp [Shared.ledger, Shared.push, h]

theorem ledger_pop_self (rest : List J) :
    (x.pop o job rest).ledger o = (x.ledger o).pop job rest := by
  simp [Shared.ledger, Shared.pop, Ledger.pop]

theorem ledger_pop_ne (rest : List J) (h : o ≠ o') :
    (x.pop o' job rest).ledger o = x.ledger o := by
  simp [Shared.ledger, Shared.pop, h]

theorem ledger_fetchSub_self : (x.fetchSub o job).ledger o = (x.ledger o).fetchSub job := by
  simp [Shared.ledger, Shared.fetchSub, Ledger.fetchSub]

theorem ledger_fetchSub_ne (h : o ≠ o') : (x.fetchSub o' job).ledger o = x.ledger o := by
  simp [Shared.ledger, Shared.fetchSub, h]

end Ledger

/-- `waiting` and `running` count the tasks, by what they satisfy, that are still to be
pushed or in execution, `owners` the places that make a thread the object's owner. -/
structure Balanced (l : Ledger J) (waiting running : (J → Bool) → ℕ) (owners : ℕ) : Prop where
  count : l.count + l.finished.length = l.added.length
  added : ∀ p, l.added.countP p = l.pushed.countP p + waiting p
  order : l.executed ++ l.queue = l.pushed
  executed : ∀ p, l.executed.countP p = l.finished.countP p + running p
  owner : owners = if l.count = 0 then 0 else 1

namespace Balanced

variable {l : Ledger J} {waiting running waiting' running' : (J → Bool) → ℕ} {owners owners' : ℕ}

theorem congr (h : Balanced l waiting running owners) (hw : ∀ p, waiting' p = waiting p)
    (hr : ∀ p, running' p = running p) (ho : owners' = owners) :
    Balanced l waiting' running' owners' := by
  obtain rfl : waiting' = waiting := funext hw
  obtain rfl : running' = running := funext hr
  exact ho ▸ h

/-- A task that is added but not finished waits, is queued or is executed. -/
theorem count_eq (h : Balanced l waiting running owners) :
    l.count = waiting (fun _ => true) + l.queue.length + running (fun _ => true) := by
  have hcount := h.count
  have hadded := h.added fun _ => true
  have hexecuted := h.executed fun _ => true
  have horder := congrArg List.length h.order
  simp only [List.countP_true, List.length_append] at hadded hexecuted horder
  omega

theorem fetchAdd (h : Balanced l waiting running owners) {job : J}
    (hw : ∀ p, waiting' p = waiting p + if p job then 1 else 0) (hr : ∀ p, running' p = running p)
    (ho : owners' = if l.count = 0 then owners + 1 else owners) :
    Balanced (l.fetchAdd job) waiting' running' owners' where
  count := by
    have hcount := h.count
    simp only [Ledger.fetchAdd, List.length_append, List.length_singleton]
    omega
  added p := by
    have hadded := h.added p
    simp only [Ledger.fetchAdd, List.countP_append, List.countP_singleton, hw]
    omega
  order := h.order
  executed p := (h.executed p).trans (by rw [hr p]; rfl)
  owner := by
    have hpos := h.count_eq
    have hne : l.count + 1 ≠ 0 := by omega
    rw [ho, h.owner, Ledger.fetchAdd, if_neg hne]
    by_cases hzero : l.count = 0
    · rw [if_pos hzero, if_pos hzero]
    · rw [if_neg hzero, if_neg hzero]

theorem push (h : Balanced l waiting running owners) {job : J}
    (hw : ∀ p, waiting p = waiting' p + if p job then 1 else 0) (hr : ∀ p, running' p = running p)
    (ho : owners' = owners) : Balanced (l.push job) waiting' running' owners' where
  count := h.count
  added p := by
    have hadded := h.added p
    simp only [Ledger.push, List.countP_append, List.countP_singleton]
    rw [hw] at hadded
    omega
  order := by
    simp only [Ledger.push, ← List.append_assoc, h.order]
  executed p := (h.executed p).trans (by rw [hr p]; rfl)
  owner := ho.trans h.owner

theorem pop (h : Balanced l waiting running owners) {job : J} {rest : List J}
    (hq : l.queue = job :: rest) (hw : ∀ p, waiting' p = waiting p)
    (hr : ∀ p, running' p = running p + if p job then 1 else 0) (ho : owners' = owners) :
    Balanced (l.pop job rest) waiting' running' owners' where
  count := h.count
  added p := (h.added p).trans (by rw [hw p]; rfl)
  order := by
    have horder := h.order
    rw [hq] at horder
    simpa [Ledger.pop] using horder
  executed p := by
    have hexecuted := h.executed p
    simp only [Ledger.pop, List.countP_append, List.countP_singleton, hr]
    omega
  owner := ho.trans h.owner

theorem fetchSub (h : Balanced l waiting running owners) {job : J}
    (hw : ∀ p, waiting' p = waiting p) (hr : ∀ p, running p = running' p + if p job then 1 else 0)
    (ho : owners = if l.count = 1 then owners' + 1 else owners') (hpos : 0 < owners) :
    Balanced (l.fetchSub job) waiting' running' owners' where
  count := by
    have hcount := h.count
    simp only [Ledger.fetchSub, List.length_append, List.length_singleton]
    omega
  added p := (h.added p).trans (by rw [hw p]; rfl)
  order := h.order
  executed p := by
    have hexecuted := h.executed p
    simp only [Ledger.fetchSub, List.countP_append, List.countP_singleton]
    rw [hr] at hexecuted
    omega
  owner := by
    have howner := h.owner
    have hcount : l.count ≠ 0 := by
      intro hzero
      rw [if_pos hzero] at howner
      omega
    rw [if_neg hcount] at howner
    rw [howner] at ho
    by_cases hone : l.count = 1
    · have hlast : l.count - 1 = 0 := by omega
      rw [if_pos hone] at ho
      rw [Ledger.fetchSub, if_pos hlast]
      omega
    · have hmore : l.count - 1 ≠ 0 := by omega
      rw [if_neg hone] at ho
      rw [Ledger.fetchSub, if_neg hmore]
      exact ho.symm

end Balanced

section Balance
variable [Fintype T] [DecidableEq T] [DecidableEq O]

def Balance (s : State T O J C W) (o : O) : Prop :=
  Balanced (s.shared.ledger o) (fun p => total (Instr.waiting o p) s.stack)
    (fun p => total (Instr.running o p) s.stack)
    (total (Instr.owner o) s.stack + total (listed o) s.shared.executerList)

variable {s : State T O J C W} {o : O} {P : Program T O J C W}

theorem Balance.intro {t : T} {i : Instr O J C} {rest next : List (Instr O J C)}
    (hs : s.stack t = i :: rest) {x : Shared T O J W}
    (h : ∀ waiting running owners,
      (∀ p, waiting p + i.waiting o p =
        total (Instr.waiting o p) s.stack + (next.map (Instr.waiting o p)).sum) →
      (∀ p, running p + i.running o p =
        total (Instr.running o p) s.stack + (next.map (Instr.running o p)).sum) →
      owners + i.owner o = total (Instr.owner o) s.stack + (next.map (Instr.owner o)).sum →
      Balanced (x.ledger o) waiting running (owners + total (listed o) x.executerList)) :
    Balance (s.move t x (next ++ rest)) o :=
  h _ _ _ (fun p => total_exec (Instr.waiting o p) hs x next)
    (fun p => total_exec (Instr.running o p) hs x next) (total_exec (Instr.owner o) hs x next)

theorem Balance.same (h : Balance s o) {t : T} {i : Instr O J C} {rest next : List (Instr O J C)}
    (hs : s.stack t = i :: rest) {x : Shared T O J W} (hx : x.ledger o = s.shared.ledger o)
    (hw : ∀ p, (next.map (Instr.waiting o p)).sum = i.waiting o p)
    (hr : ∀ p, (next.map (Instr.running o p)).sum = i.running o p)
    (ho : (next.map (Instr.owner o)).sum + total (listed o) x.executerList =
      i.owner o + total (listed o) s.shared.executerList) :
    Balance (s.move t x (next ++ rest)) o := by
  refine Balance.intro hs fun waiting running owners hw' hr' ho' => ?_
  rw [hx]
  refine Balanced.congr h (fun p => ?_) (fun p => ?_) ?_
  · have hwp := hw' p
    rw [hw] at hwp
    exact Nat.add_right_cancel hwp
  · have hrp := hr' p
    rw [hr] at hrp
    exact Nat.add_right_cancel hrp
  · omega

theorem Balance.exec (h : Balance s o) {t : T} {i : Instr O J C}
    {rest next : List (Instr O J C)} (hs : s.stack t = i :: rest) {x : Shared T O J W}
    (he : exec P t s.shared i x next) : Balance (s.move t x (next ++ rest)) o := by
  cases i with
  | cmd c =>
    cases c with
    | code c =>
      obtain ⟨out, cmds, -, rfl, rfl⟩ := he
      refine h.same hs rfl (fun p => sum_cmds ?_ cmds) (fun p => sum_cmds ?_ cmds) ?_
      · exact fun _ => rfl
      · exact fun _ => rfl
      · rw [sum_cmds (fun _ => rfl)]
        rfl
    | doTask o' job =>
      obtain ⟨rfl, hnext⟩ := he
      by_cases hoo : o = o'
      · subst hoo
        refine Balance.intro hs fun waiting running owners hw hr ho => ?_
        rw [ledger_fetchAdd_self]
        split_ifs at hnext with hzero
        · subst hnext
          refine Balanced.fetchAdd h (fun p => ?_) (fun p => ?_) ?_
          · simpa using hw p
          · simpa using hr p
          · rw [ledger_count, if_neg hzero]
            exact congrArg (· + _) ho
        · subst hnext
          refine Balanced.fetchAdd h (fun p => ?_) (fun p => ?_) ?_
          · simpa using hw p
          · simpa using hr p
          · rw [ledger_count, if_pos (not_not.mp hzero)]
            have hone : owners = total (Instr.owner o) s.stack + 1 := by simpa using ho
            rw [hone]
            exact Nat.add_right_comm _ _ _
      · have hne : o' ≠ o := fun he => hoo he.symm
        split_ifs at hnext with hzero
        · subst hnext
          exact h.same hs (ledger_fetchAdd_ne _ job hoo) (by simp [hne]) (by simp) (by simp; rfl)
        · subst hnext
          exact h.same hs (ledger_fetchAdd_ne _ job hoo) (by simp [hne]) (by simp) (by simp [hne]; rfl)
  | pushOnly o' job =>
    obtain ⟨rfl, rfl⟩ := he
    by_cases hoo : o = o'
    · subst hoo
      refine Balance.intro hs fun waiting running owners hw hr ho => ?_
      rw [ledger_push_self]
      refine Balanced.push h (fun p => ?_) (fun p => ?_) ?_
      · simpa using (hw p).symm
      · simpa using hr p
      · exact congrArg (· + _) ho
    · have hne : o' ≠ o := fun he => hoo he.symm
      exact h.same hs (ledger_push_ne _ job hoo) (by simp [hne]) (by simp) (by simp; rfl)
  | pushOwn o' job =>
    obtain ⟨rfl, rfl⟩ := he
    by_cases hoo : o = o'
    · subst hoo
      refine Balance.intro hs fun waiting running owners hw hr ho => ?_
      rw [ledger_push_self]
      refine Balanced.push h (fun p => ?_) (fun p => ?_) ?_
      · simpa using (hw p).symm
      · simpa using hr p
      · have heq : owners = total (Instr.owner o) s.stack := by simpa using ho
        exact congrArg (· + _) heq
    · have hne : o' ≠ o := fun he => hoo he.symm
      exact h.same hs (ledger_push_ne _ job hoo) (by simp [hne]) (by simp) (by simp [hne]; rfl)
  | addRef o' =>
    obtain ⟨rfl, rfl⟩ := he
    exact h.same hs rfl (by simp) (by simp) (by simp; rfl)
  | check o' =>
    rcases exec_check he with ⟨current, hc, rfl, rfl⟩ | ⟨hc, rfl, rfl⟩
    · have hl := total_update (listed o) s.shared.executerList t (s.shared.executerList t ++ [o'])
      rw [List.map_append, List.sum_append] at hl
      refine h.same hs rfl (by simp) (by simp) ?_
      simp only [Shared.setExecuters, Instr.owner, List.map_nil, List.sum_nil]
      simp only [listed, List.map_cons, List.map_nil, List.sum_cons, List.sum_nil] at hl ⊢
      omega
    · exact h.same hs rfl (by simp) (by simp) (by simp; rfl)
  | flush o' =>
    rcases he with ⟨rfl, rfl⟩ | ⟨job, tail, hq, rfl, rfl⟩
    · exact h.same hs rfl (by simp) (by simp) (by simp)
    · have hcmds : ∀ w : Instr O J C → ℕ, (∀ c, w (.cmd c) = 0) →
          (((P.onExecute o' job).map Instr.cmd ++ [Instr.sub o' job]).map w).sum =
            w (.sub o' job) := by
        intro w hw
        rw [List.map_append, List.sum_append, sum_cmds hw]
        simp
      by_cases hoo : o = o'
      · subst hoo
        refine Balance.intro hs fun waiting running owners hw hr ho => ?_
        rw [ledger_pop_self]
        refine Balanced.pop h hq (fun p => ?_) (fun p => ?_) ?_
        · have hwp := hw p
          rw [hcmds (Instr.waiting o p) fun _ => rfl] at hwp
          simpa using hwp
        · have hrp := hr p
          rw [hcmds (Instr.running o p) fun _ => rfl] at hrp
          simpa using hrp
        · rw [hcmds (Instr.owner o) fun _ => rfl] at ho
          exact congrArg (· + _) (Nat.add_right_cancel ho)
      · have hne : o' ≠ o := fun he => hoo he.symm
        refine h.same hs (ledger_pop_ne _ job tail hoo) (fun p => ?_) (fun p => ?_) ?_
        · exact hcmds (Instr.waiting o p) fun _ => rfl
        · rw [hcmds (Instr.running o p) fun _ => rfl]
          simp [hne]
        · rw [hcmds (Instr.owner o) fun _ => rfl]
          rfl
  | sub o' job =>
    obtain ⟨rfl, hnext⟩ := he
    by_cases hoo : o = o'
    · subst hoo
      have hmem : Instr.sub o job ∈ s.stack t := by simp [hs]
      have howner : 1 ≤ total (Instr.owner o) s.stack := by
        simpa using Threads.le_total (Instr.owner o) hmem
      refine Balance.intro hs fun waiting running owners hw hr ho => ?_
      rw [ledger_fetchSub_self]
      split_ifs at hnext with hone
      · subst hnext
        refine Balanced.fetchSub h (fun p => ?_) (fun p => ?_) ?_ (by omega)
        · simpa using hw p
        · simpa using (hr p).symm
        · rw [ledger_count, if_pos hone]
          have heq : owners + 1 = total (Instr.owner o) s.stack := by simpa using ho
          rw [← heq]
          exact Nat.add_right_comm _ _ _
      · subst hnext
        refine Balanced.fetchSub h (fun p => ?_) (fun p => ?_) ?_ (by omega)
        · simpa using hw p
        · simpa using (hr p).symm
        · rw [ledger_count, if_neg hone]
          have heq : owners = total (Instr.owner o) s.stack := by simpa using ho
          exact congrArg (· + _) heq.symm
    · have hne : o' ≠ o := fun he => hoo he.symm
      split_ifs at hnext with hone
      · subst hnext
        exact h.same hs (ledger_fetchSub_ne _ job hoo) (by simp) (by simp [hne])
          (by simp [hne]; rfl)
      · subst hnext
        exact h.same hs (ledger_fetchSub_ne _ job hoo) (by simp) (by simp [hne])
          (by simp [hne]; rfl)
  | drain o' =>
    rcases exec_drain he with ⟨hl, rfl, rfl⟩ | ⟨dispatcher, tail, hl, rfl, rfl⟩
    · exact h.same hs rfl (by simp) (by simp) (by simp; rfl)
    · have hm := total_update (listed o) s.shared.executerList t tail
      rw [hl, List.map_cons, List.sum_cons] at hm
      refine h.same hs rfl (by simp) (by simp) ?_
      simp only [Shared.setExecuters, Instr.owner, List.map_cons, List.map_nil, List.sum_cons,
        List.sum_nil, listed] at hm ⊢
      omega
  | release o' =>
    obtain ⟨rfl, rfl⟩ := he
    exact h.same hs rfl (by simp) (by simp) (by simp; rfl)

theorem Balance.start (h : Balance s o) {t : T} (hs : s.stack t = []) (out : (O → ℤ) × W)
    (cmds : List (Cmd O J C)) :
    Balance (s.move t (s.shared.outside out) (cmds.map .cmd)) o := by
  have hnone : ∀ w : Instr O J C → ℕ, (∀ c, w (.cmd c) = 0) →
      total w (s.move t (s.shared.outside out) (cmds.map .cmd)).stack = total w s.stack := by
    intro w hw
    rw [total_start w hs, sum_cmds hw, Nat.add_zero]
  refine Balanced.congr h (fun p => ?_) (fun p => ?_) ?_
  · exact hnone (Instr.waiting o p) fun _ => rfl
  · exact hnone (Instr.running o p) fun _ => rfl
  · rw [hnone (Instr.owner o) fun _ => rfl]
    rfl

omit [DecidableEq T] in
theorem Balance.init (world : W) (o : O) :
    Balance (⟨.init world, fun _ => []⟩ : State T O J C W) o where
  count := rfl
  added p := by rw [Threads.total_idle]; rfl
  order := rfl
  executed p := by rw [Threads.total_idle]; rfl
  owner := by
    rw [Threads.total_idle, Nat.zero_add]
    exact Threads.total_idle (T := T) (listed o)

end Balance

section Local

structure Local (current : Option O) (list : List O) (stack : List (Instr O J C)) : Prop where
  drains : (stack.map Instr.draining).sum = if current.isSome then 1 else 0
  idle : current = none → list = []
  suspends : ∀ i ∈ stack.tail, i.Suspends

theorem mem_tail_append {α : Type} {a b : List α} {i : α} (h : i ∈ (a ++ b).tail) :
    i ∈ a.tail ∨ i ∈ b := by
  cases a with
  | nil => exact .inr (List.mem_of_mem_tail h)
  | cons j a => exact List.mem_append.mp h

variable {current current' : Option O} {list list' : List O} {i : Instr O J C}
  {rest next : List (Instr O J C)}

theorem Local.move (h : Local current list (i :: rest))
    (hd : (next.map Instr.draining).sum + (if current.isSome then 1 else 0) =
      i.draining + if current'.isSome then 1 else 0)
    (hidle : current' = none → list' = []) (hn : ∀ j ∈ next.tail, j.Suspends) :
    Local current' list' (next ++ rest) where
  drains := by
    have hdrains := h.drains
    rw [List.map_cons, List.sum_cons] at hdrains
    rw [List.map_append, List.sum_append]
    omega
  idle := hidle
  suspends j hj := by
    rcases mem_tail_append hj with hj | hj
    · exact hn j hj
    · exact h.suspends j hj

variable [DecidableEq T] [DecidableEq O] {P : Program T O J C W} {x x' : Shared T O J W}

theorem exec_elsewhere {t u : T} (hu : u ≠ t) (he : exec P t x i x' next) :
    x'.currentExecuter u = x.currentExecuter u ∧ x'.executerList u = x.executerList u := by
  cases i with
  | cmd c =>
    cases c with
    | code c =>
      obtain ⟨_, _, -, rfl, -⟩ := he
      exact ⟨rfl, rfl⟩
    | doTask o job =>
      obtain ⟨rfl, -⟩ := he
      exact ⟨rfl, rfl⟩
  | check o =>
    rcases exec_check he with ⟨current, hc, rfl, -⟩ | ⟨hc, rfl, -⟩
    · exact ⟨rfl, Function.update_of_ne hu ..⟩
    · exact ⟨Function.update_of_ne hu .., rfl⟩
  | flush o =>
    rcases he with ⟨rfl, -⟩ | ⟨_, _, -, rfl, -⟩
    · exact ⟨rfl, rfl⟩
    · exact ⟨rfl, rfl⟩
  | drain o =>
    rcases exec_drain he with ⟨hl, rfl, -⟩ | ⟨dispatcher, tail, hl, rfl, -⟩
    · exact ⟨Function.update_of_ne hu .., rfl⟩
    · exact ⟨rfl, Function.update_of_ne hu ..⟩
  | _ =>
    obtain ⟨rfl, -⟩ := he
    exact ⟨rfl, rfl⟩

theorem Local.exec {t : T} (h : Local (x.currentExecuter t) (x.executerList t) (i :: rest))
    (he : exec P t x i x' next) :
    Local (x'.currentExecuter t) (x'.executerList t) (next ++ rest) := by
  have hcmds : ∀ cmds : List (Cmd O J C), ∀ j ∈ cmds.map Instr.cmd, j.Suspends := by
    intro cmds j hj
    obtain ⟨c, -, rfl⟩ := List.mem_map.mp hj
    trivial
  cases i with
  | cmd c =>
    cases c with
    | code c =>
      obtain ⟨out, cmds, -, rfl, rfl⟩ := he
      refine h.move ?_ h.idle fun j hj => hcmds cmds j (List.mem_of_mem_tail hj)
      rw [sum_cmds fun _ => rfl]
      rfl
    | doTask o job =>
      obtain ⟨rfl, hnext⟩ := he
      split_ifs at hnext
      · subst hnext
        exact h.move rfl h.idle (by simp)
      · subst hnext
        exact h.move rfl h.idle (by simp)
  | check o =>
    rcases exec_check he with ⟨current, hc, rfl, rfl⟩ | ⟨hc, rfl, rfl⟩
    · refine h.move rfl (fun hnone => ?_) (by simp)
      exact absurd (hc.symm.trans hnone) (by simp)
    · refine h.move ?_ (fun hnone => ?_) (by simp [Instr.Suspends])
      · simp [hc, Shared.setCurrent]
      · exact absurd hnone (by simp [Shared.setCurrent])
  | flush o =>
    rcases he with ⟨rfl, rfl⟩ | ⟨job, tail, -, rfl, rfl⟩
    · exact h.move rfl h.idle (by simp)
    · refine h.move ?_ h.idle fun j hj => ?_
      · rw [List.map_append, List.sum_append, sum_cmds fun _ => rfl]
        rfl
      · rcases mem_tail_append hj with hj | hj
        · exact hcmds _ j (List.mem_of_mem_tail hj)
        · rw [List.mem_singleton.mp hj]
          trivial
  | drain o =>
    rcases exec_drain he with ⟨hl, rfl, rfl⟩ | ⟨dispatcher, tail, hl, rfl, rfl⟩
    · have hdrains := h.drains
      rw [List.map_cons, List.sum_cons] at hdrains
      have hsome : (x.currentExecuter t).isSome := by
        by_contra hnone
        rw [if_neg hnone, Instr.draining] at hdrains
        omega
      refine h.move ?_ (fun _ => hl) (by simp)
      simp [hsome, Shared.setCurrent]
    · refine h.move rfl (fun hnone => ?_) (by simp [Instr.Suspends])
      exact absurd (hl.symm.trans (h.idle hnone)) (by simp)
  | sub o job =>
    obtain ⟨rfl, hnext⟩ := he
    split_ifs at hnext
    · subst hnext
      exact h.move rfl h.idle (by simp)
    · subst hnext
      exact h.move rfl h.idle (by simp)
  | _ =>
    obtain ⟨rfl, rfl⟩ := he
    exact h.move rfl h.idle (by simp)

end Local

section Covered
variable [DecidableEq O]

/-- Below each flush on the stack there is the reference it was taken with. -/
def Covered : List (Instr O J C) → Prop
  | [] => True
  | i :: rest => (∀ o, i.flushes o + (rest.map (Instr.flushes o)).sum ≤
      i.keeps o + (rest.map (Instr.keeps o)).sum) ∧ Covered rest

variable {i : Instr O J C} {rest next : List (Instr O J C)}

theorem Covered.sum_le (h : Covered rest) (o : O) :
    (rest.map (Instr.flushes o)).sum ≤ (rest.map (Instr.keeps o)).sum := by
  cases rest with
  | nil => exact Nat.le_refl 0
  | cons i rest =>
    rw [List.map_cons, List.map_cons, List.sum_cons, List.sum_cons]
    exact h.1 o

theorem Covered.cons (h : Covered rest) (hi : ∀ o, i.flushes o = 0) : Covered (i :: rest) := by
  refine ⟨fun o => ?_, h⟩
  have hle := h.sum_le o
  have hzero := hi o
  omega

theorem Covered.cmds (h : Covered rest) (cmds : List (Cmd O J C)) :
    Covered (cmds.map .cmd ++ rest) := by
  induction cmds with
  | nil => exact h
  | cons c cmds ih => exact ih.cons fun _ => rfl

variable [DecidableEq T] {P : Program T O J C W} {x x' : Shared T O J W} {t : T}

theorem Covered.exec (h : Covered (i :: rest)) (he : exec P t x i x' next) :
    Covered (next ++ rest) := by
  have hrest := h.2
  cases i with
  | cmd c =>
    cases c with
    | code c =>
      obtain ⟨_, cmds, -, -, rfl⟩ := he
      exact hrest.cmds cmds
    | doTask o job =>
      obtain ⟨-, hnext⟩ := he
      split_ifs at hnext
      · subst hnext
        exact hrest.cons fun _ => rfl
      · subst hnext
        exact hrest.cons fun _ => rfl
  | pushOnly o job =>
    obtain ⟨-, rfl⟩ := he
    exact hrest
  | pushOwn o job =>
    obtain ⟨-, rfl⟩ := he
    exact hrest.cons fun _ => rfl
  | addRef o =>
    obtain ⟨-, rfl⟩ := he
    exact hrest.cons fun _ => rfl
  | check o =>
    rcases exec_check he with ⟨current, hc, -, rfl⟩ | ⟨hc, -, rfl⟩
    · exact hrest
    · refine ⟨fun o' => ?_, hrest.cons fun _ => rfl⟩
      have hle := hrest.sum_le o'
      simp
      omega
  | flush o =>
    rcases he with ⟨-, rfl⟩ | ⟨job, tail, -, -, rfl⟩
    · exact h
    · have hsub : Covered (.sub o job :: rest) := ⟨h.1, hrest⟩
      rw [List.append_assoc]
      exact hsub.cmds _
  | sub o job =>
    obtain ⟨-, hnext⟩ := he
    split_ifs at hnext
    · subst hnext
      exact hrest
    · subst hnext
      exact h
  | drain o =>
    rcases exec_drain he with ⟨hl, -, rfl⟩ | ⟨dispatcher, tail, hl, -, rfl⟩
    · exact hrest.cons fun _ => rfl
    · refine ⟨fun o' => ?_, h.cons fun _ => rfl⟩
      have hle := h.sum_le o'
      simp at hle ⊢
      omega
  | release o =>
    obtain ⟨-, rfl⟩ := he
    exact hrest

end Covered

variable [Fintype T] [DecidableEq O] {s : State T O J C W}

structure Inv (s : State T O J C W) : Prop where
  balance : ∀ o, Balance s o
  locals : ∀ t, Local (s.shared.currentExecuter t) (s.shared.executerList t) (s.stack t)
  covered : ∀ t, Covered (s.stack t)

theorem Inv.init (world : W) : Inv (⟨.init world, fun _ => []⟩ : State T O J C W) where
  balance o := .init world o
  locals _ := ⟨rfl, fun _ => rfl, by simp⟩
  covered _ := trivial

/-- From the start of `Flush` until its `fetch_sub` returns 1. -/
def Flushes (s : State T O J C W) (t : T) (o : O) : Prop :=
  .flush o ∈ s.stack t ∨ ∃ job, .sub o job ∈ s.stack t

/-- It flushes the object, is about to, or has it in its list to be flushed. -/
def Owns (s : State T O J C W) (t : T) (o : O) : Prop :=
  (∃ i ∈ s.stack t, i.owner o = 1) ∨
    o ∈ s.shared.executerList t ∧ ∃ o', .drain o' ∈ s.stack t

omit [Fintype T] in
theorem Flushes.owner {t : T} {o : O} (h : Flushes s t o) :
    ∃ i ∈ s.stack t, i.owner o = 1 := by
  rcases h with h | ⟨job, h⟩
  · exact ⟨_, h, by simp⟩
  · exact ⟨_, h, by simp⟩

theorem sum_listed (o : O) (list : List O) : (list.map (listed o)).sum = list.count o := by
  induction list with
  | nil => rfl
  | cons o' list ih =>
    rw [List.map_cons, List.sum_cons, ih, List.count_cons, listed, Nat.add_comm]
    simp only [beq_iff_eq]

namespace Inv

theorem owner_le (h : Inv s) (o : O) :
    total (Instr.owner o) s.stack + total (listed o) s.shared.executerList ≤ 1 := by
  rw [(h.balance o).owner]
  split_ifs
  · exact Nat.zero_le 1
  · exact Nat.le_refl 1

theorem keeps_of_flushes (h : Inv s) {o : O} {t : T} (ht : Flushes s t o) :
    1 ≤ ((s.stack t).map (Instr.keeps o)).sum := by
  have hle := (h.covered t).sum_le o
  have hone : 1 ≤ ((s.stack t).map (Instr.flushes o)).sum := by
    rcases ht with ht | ⟨job, ht⟩
    · have hsingle := List.single_le_sum (fun _ _ => Nat.zero_le _) _
        (List.mem_map_of_mem (f := Instr.flushes o) ht)
      simpa using hsingle
    · have hsingle := List.single_le_sum (fun _ _ => Nat.zero_le _) _
        (List.mem_map_of_mem (f := Instr.flushes o) ht)
      simpa using hsingle
  exact hone.trans hle

theorem owner_unique (h : Inv s) {o : O} {t u : T} (ht : Owns s t o) (hu : Owns s u o) :
    t = u := by
  by_contra hne
  have hle := h.owner_le o
  have hlist : ∀ {v}, o ∈ s.shared.executerList v →
      1 ≤ total (listed o) s.shared.executerList := by
    intro v hv
    simpa [listed] using Threads.le_total (listed o) hv
  rcases ht with ⟨i, hi, hit⟩ | ⟨ht, -⟩
  · have hone := Threads.le_total (Instr.owner o) hi
    rcases hu with ⟨j, hj, hju⟩ | ⟨hu, -⟩
    · have htwo := Threads.add_le_total (Instr.owner o) hne hi hj
      omega
    · have hone' := hlist hu
      omega
  · have hone' := hlist ht
    rcases hu with ⟨j, hj, hju⟩ | ⟨hu, -⟩
    · have hone := Threads.le_total (Instr.owner o) hj
      omega
    · have htwo := Threads.add_le_total (listed o) hne ht hu
      simp only [listed, if_true] at htwo
      omega

theorem drain_mem (h : Inv s) {o : O} {t : T} (ht : o ∈ s.shared.executerList t) :
    ∃ o', .drain o' ∈ s.stack t := by
  have hlocal := h.locals t
  have hsome : (s.shared.currentExecuter t).isSome := by
    by_contra hnone
    rw [hlocal.idle (Option.not_isSome_iff_eq_none.mp hnone)] at ht
    exact absurd ht (by simp)
  have hdrains := hlocal.drains
  rw [if_pos hsome] at hdrains
  obtain ⟨n, hn, hne⟩ := List.exists_mem_ne_zero_of_sum_ne_zero (hdrains ▸ Nat.one_ne_zero)
  obtain ⟨i, hi, rfl⟩ := List.mem_map.mp hn
  cases i with
  | drain o' => exact ⟨o', hi⟩
  | _ => exact absurd rfl hne

theorem exists_owner (h : Inv s) {o : O} (hpos : 0 < s.shared.mRemainTaskCount o) :
    ∃ t, Owns s t o := by
  have howner := (h.balance o).owner
  rw [ledger_count, if_neg hpos.ne'] at howner
  by_cases hzero : total (Instr.owner o) s.stack = 0
  · have hlists : 0 < total (listed o) s.shared.executerList := by omega
    obtain ⟨t, o', ho', hlisted⟩ := Threads.exists_of_total_pos hlists
    obtain rfl : o' = o := by
      by_contra hne
      rw [listed, if_neg hne] at hlisted
      exact absurd hlisted (Nat.lt_irrefl 0)
    exact ⟨t, .inr ⟨ho', h.drain_mem ho'⟩⟩
  · obtain ⟨t, i, hi, hpos⟩ := Threads.exists_of_total_pos (Nat.pos_of_ne_zero hzero)
    have hle := Threads.le_total (Instr.owner o) hi
    exact ⟨t, .inl ⟨i, hi, by omega⟩⟩

/-- A flush that finds nothing waits for a thread that is about to push. -/
theorem push_pending (h : Inv s) {o : O} {t : T} (ht : .flush o ∈ s.stack t)
    (hq : s.shared.mJobQueue o = []) : ∃ u job rest, s.stack u = .pushOnly o job :: rest := by
  have hcount := (h.balance o).count_eq
  have howner := (h.balance o).owner
  have hone : 1 ≤ total (Instr.owner o) s.stack := by
    simpa using Threads.le_total (Instr.owner o) ht
  have hhead : 1 ≤ total (Instr.flushing o) s.stack := by
    simpa using Threads.le_total (Instr.flushing o) ht
  have hle := h.owner_le o
  have hparts : total (fun i : Instr O J C => i.waiting o (fun _ => true) +
      (i.running o (fun _ => true) + i.flushing o)) s.stack ≤
      total (fun i : Instr O J C => i.pushing o + i.owner o) s.stack := by
    refine Threads.total_mono (fun i => ?_) _
    cases i <;> simp
  rw [Threads.total_add, Threads.total_add, Threads.total_add] at hparts
  have hne : (s.shared.ledger o).count ≠ 0 := by
    intro hzero
    rw [if_pos hzero] at howner
    omega
  rw [ledger_queue, hq, List.length_nil] at hcount
  have hpushing : 0 < total (Instr.pushing o) s.stack := by omega
  obtain ⟨u, i, hi, hpos⟩ := Threads.exists_of_total_pos hpushing
  cases i with
  | pushOnly o' job =>
    obtain rfl : o' = o := by
      by_contra hoo
      rw [Instr.pushing, if_neg hoo] at hpos
      exact absurd hpos (Nat.lt_irrefl 0)
    have hsuspends := (h.locals u).suspends
    cases hu : s.stack u with
    | nil =>
      rw [hu] at hi
      exact absurd hi (by simp)
    | cons j rest =>
      rw [hu] at hi hsuspends
      rcases List.mem_cons.mp hi with rfl | hi
      · exact ⟨u, job, rest, hu⟩
      · exact absurd (hsuspends _ hi) id
  | _ => exact absurd hpos (Nat.lt_irrefl 0)

end Inv

section
variable [DecidableEq T] {P : Program T O J C W} {world : W}

theorem Inv.step (h : Inv s) {t : T} {s' : State T O J C W}
    (hs : Threads.Step (machine P) s t s') : Inv s' := by
  cases hs with
  | start hidle hstart =>
    obtain ⟨out, cmds, -, rfl, rfl⟩ := hstart
    refine ⟨fun o => (h.balance o).start hidle out cmds, fun u => ?_, fun u => ?_⟩
    · have hu := h.locals u
      by_cases hut : u = t
      · subst hut
        rw [hidle] at hu
        rw [Threads.State.move_stack_self]
        refine ⟨(sum_cmds (fun _ => rfl) cmds).trans hu.drains, hu.idle, fun i hi => ?_⟩
        obtain ⟨c, -, rfl⟩ := List.mem_map.mp (List.mem_of_mem_tail hi)
        trivial
      · rw [Threads.State.move_stack_of_ne _ hut]
        exact hu
    · by_cases hut : u = t
      · subst hut
        have hnone : Covered ([] : List (Instr O J C)) := trivial
        rw [Threads.State.move_stack_self, ← List.append_nil (cmds.map Instr.cmd)]
        exact hnone.cmds cmds
      · rw [Threads.State.move_stack_of_ne _ hut]
        exact h.covered u
  | exec htop hexec =>
    refine ⟨fun o => (h.balance o).exec htop hexec, fun u => ?_, fun u => ?_⟩
    · have hu := h.locals u
      by_cases hut : u = t
      · subst hut
        rw [htop] at hu
        rw [Threads.State.move_stack_self]
        exact hu.exec hexec
      · obtain ⟨hcurrent, hlist⟩ := exec_elsewhere hut hexec
        rw [Threads.State.move_stack_of_ne _ hut, Threads.State.move_shared, hcurrent, hlist]
        exact hu
    · have hu := h.covered u
      by_cases hut : u = t
      · subst hut
        rw [htop] at hu
        rw [Threads.State.move_stack_self]
        exact hu.exec hexec
      · rw [Threads.State.move_stack_of_ne _ hut]
        exact hu

theorem Reached.inv (h : Reached P world s) : Inv s :=
  Threads.Reachable.invariant (fun _ hx => hx ▸ Inv.init world) (fun _ _ _ hi hs _ => hi.step hs) h

/-- One thread at a time flushes an object, in one place; its count is that of the
tasks not finished, each executed once at most and in the order of the pushes; an
object with tasks left has one owner; a flush that finds nothing waits for a push
about to come; and when the threads rest nothing is left. -/
theorem exclusive_in_order {s : State T O J C W} (h : Reached P world s) :
    (∀ o t u, Flushes s t o → Flushes s u o → t = u) ∧
      (∀ o, total (Instr.owner o) s.stack ≤ 1) ∧
      (∀ o, s.shared.mRemainTaskCount o + (s.shared.finished o).length =
          (s.shared.added o).length ∧
        ∀ p, (s.shared.finished o).countP p ≤ (s.shared.executed o).countP p ∧
          (s.shared.executed o).countP p ≤ (s.shared.added o).countP p) ∧
      (∀ o, s.shared.executed o ++ s.shared.mJobQueue o = s.shared.pushed o) ∧
      (∀ o, 0 < s.shared.mRemainTaskCount o → (∃! t, Owns s t o) ∧
        ∀ t, (s.shared.executerList t).count o ≤ 1) ∧
      (∀ o t, .flush o ∈ s.stack t → s.shared.mJobQueue o = [] →
        ∃ u job rest, s.stack u = .pushOnly o job :: rest) ∧
      ((∀ t, s.stack t = []) → ∀ o, s.shared.mRemainTaskCount o = 0 ∧
        s.shared.executed o = s.shared.pushed o ∧
          ∀ p, (s.shared.finished o).countP p = (s.shared.added o).countP p) := by
  have hinv := h.inv
  refine ⟨fun o t u ht hu => ?_, fun o => ?_, fun o => ⟨(hinv.balance o).count, fun p => ?_⟩,
    fun o => (hinv.balance o).order, fun o hpos => ⟨?_, fun t => ?_⟩,
    fun o t ht hq => hinv.push_pending ht hq, fun hidle o => ?_⟩
  · exact hinv.owner_unique (.inl ht.owner) (.inl hu.owner)
  · have hle := hinv.owner_le o
    omega
  · have hadded := (hinv.balance o).added p
    have hexecuted := (hinv.balance o).executed p
    have horder := congrArg (List.countP p) (hinv.balance o).order
    rw [List.countP_append] at horder
    simp only [Shared.ledger] at hadded hexecuted horder
    omega
  · obtain ⟨t, ht⟩ := hinv.exists_owner hpos
    exact ⟨t, ht, fun u hu => hinv.owner_unique hu ht⟩
  · have hle := hinv.owner_le o
    have hsum := Threads.sum_le_total (listed o) s.shared.executerList t
    rw [sum_listed] at hsum
    omega
  · have hstack : s.stack = fun _ => [] := funext hidle
    have hbalance := hinv.balance o
    rw [Balance, hstack] at hbalance
    have hcount := hbalance.count_eq
    have hlist : s.shared.executerList = fun _ => [] := by
      refine funext fun t => (hinv.locals t).idle ?_
      by_contra hsome
      have hdrains := (hinv.locals t).drains
      rw [hidle t, if_pos (Option.isSome_iff_ne_none.mpr hsome)] at hdrains
      exact absurd hdrains (Nat.zero_ne_one)
    have howner := hbalance.owner
    rw [hlist, Threads.total_idle, Threads.total_idle] at howner
    have hzero : (s.shared.ledger o).count = 0 := by
      by_contra hne
      rw [if_neg hne] at howner
      exact absurd howner (Nat.zero_ne_one)
    rw [hzero, Threads.total_idle, Threads.total_idle] at hcount
    have hqueue : (s.shared.ledger o).queue = [] := List.eq_nil_of_length_eq_zero (by omega)
    have horder := hbalance.order
    rw [hqueue, List.append_nil] at horder
    refine ⟨hzero, horder, fun p => ?_⟩
    have hadded := hbalance.added p
    have hexecuted := hbalance.executed p
    rw [Threads.total_idle, Nat.add_zero] at hadded hexecuted
    exact hexecuted.symm.trans ((congrArg _ horder).trans hadded.symm)

omit [Fintype T] in
theorem Reached.start {s : State T O J C W} (h : Reached P world s) {t : T}
    (hs : s.stack t = []) {out : (O → ℤ) × W} {cmds : List (Cmd O J C)}
    (hb : P.begin t (s.shared.mRefCount, s.shared.world) out cmds) :
    Reached P world (s.move t (s.shared.outside out) (cmds.map .cmd)) :=
  .step h (.start hs ⟨out, cmds, hb, rfl, rfl⟩) trivial

omit [Fintype T] in
theorem Reached.exec {s : State T O J C W} (h : Reached P world s) {t : T} {i : Instr O J C}
    {rest next : List (Instr O J C)} (hs : s.stack t = i :: rest) {x : Shared T O J W}
    (he : Dispatcher.exec P t s.shared i x next) : Reached P world (s.move t x (next ++ rest)) :=
  .step h (.exec hs he) trivial

end

def posting : Program (Fin 2) Bool ℕ Unit Unit where
  begin _ out out' cmds := out' = out ∧ cmds = [.doTask false 0]
  code _ _ _ _ _ := False
  onExecute _ job := if job = 0 then [.doTask true 1] else []

theorem posting_defers : ∃ s, Reached posting () s ∧ 0 < s.shared.mRemainTaskCount true ∧
    ∃! t, Owns s t true := by
  have h0 : Reached posting () (⟨.init (), fun _ => []⟩ : State (Fin 2) Bool ℕ Unit Unit) :=
    .init rfl
  have h1 := h0.start (t := 0) rfl ⟨rfl, rfl⟩
  have h2 := h1.exec (t := 0) rfl ⟨rfl, rfl⟩
  have h3 := h2.exec (t := 0) (i := .pushOwn false 0) rfl ⟨rfl, rfl⟩
  have h4 := h3.exec (t := 0) rfl ⟨rfl, rfl⟩
  have h5 := h4.exec (t := 0) rfl ⟨rfl, rfl⟩
  have h6 := h5.exec (t := 0) rfl (.inr ⟨0, [], rfl, rfl, rfl⟩)
  have h7 := h6.exec (t := 0) rfl ⟨rfl, rfl⟩
  have h8 := h7.exec (t := 0) (i := .pushOwn true 1) rfl ⟨rfl, rfl⟩
  have h9 := h8.exec (t := 0) rfl ⟨rfl, rfl⟩
  have h10 := h9.exec (t := 0) rfl ⟨rfl, rfl⟩
  exact ⟨_, h10, Int.one_pos, ((exclusive_in_order h10).2.2.2.2.1 true Int.one_pos).1⟩

end Dispatcher

end GameLift
