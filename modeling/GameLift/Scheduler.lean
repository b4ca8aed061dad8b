import GameLift.BinaryHeap
import GameLift.Loop
import Mathlib.Data.Int.Order.Basic

/-! Scheduler.cpp, and the same loop in Timer.cpp. A task runs while its element is still
in the queue and may push others there; what it pushes is up to the task. -/

namespace GameLift

/-- `serial` tells apart what is pushed for one tick; the code has no such number. -/
structure JobElement (A : Type) where
  serial : ℕ
  mTask : A
  mExecutionTick : ℤ

/-- `pushed` is every element that was ever pushed. -/
structure Scheduler (A : Type) where
  mTaskQueue : Array (JobElement A)
  mCurrentTick : ℤ
  pushed : List (JobElement A)

namespace Scheduler

variable {A : Type}

def init (clock : ℤ) : Scheduler A := ⟨#[], clock, []⟩

def element (q : Scheduler A) (task : A) (after : ℕ) : JobElement A :=
  ⟨q.pushed.length, task, after + q.mCurrentTick⟩

def pushTask (q : Scheduler A) (task : A) (after : ℕ) : Scheduler A :=
  { q with
    mTaskQueue := BinaryHeap.push JobElement.mExecutionTick q.mTaskQueue (q.element task after)
    pushed := q.pushed ++ [q.element task after] }

def pushTasks (q : Scheduler A) : List (A × ℕ) → Scheduler A
  | [] => q
  | (task, after) :: tasks => (q.pushTask task after).pushTasks tasks

/-- The top that `DoTasks` does not break on. -/
def due (q : Scheduler A) : Option (JobElement A) :=
  match q.mTaskQueue[0]? with
  | none => none
  | some timerJobElem =>
    if q.mCurrentTick < timerJobElem.mExecutionTick then none else some timerJobElem

def popTask (q : Scheduler A) : Scheduler A :=
  { q with mTaskQueue := BinaryHeap.pop JobElement.mExecutionTick q.mTaskQueue }

/-- A task that ran, the element removed after it, and `mCurrentTick` while it ran. -/
structure Execution (A : Type) where
  ran : JobElement A
  removed : Option (JobElement A)
  tick : ℤ

/-- `batch` is what ran in the last `DoTasks`, which has not returned while `running`. -/
structure Run (A : Type) where
  scheduler : Scheduler A
  history : List (Execution A)
  batch : List (Execution A)
  running : Bool

def Run.init (clock : ℤ) : Run A := ⟨Scheduler.init clock, [], [], false⟩

def Run.pushTask (s : Run A) (task : A) (after : ℕ) : Run A :=
  { s with scheduler := s.scheduler.pushTask task after }

def Run.begin (s : Run A) (clock : ℤ) : Run A :=
  { s with scheduler := { s.scheduler with mCurrentTick := clock }, batch := [], running := true }

def Run.execution (s : Run A) (e : JobElement A) (tasks : List (A × ℕ)) : Execution A :=
  ⟨e, (s.scheduler.pushTasks tasks).mTaskQueue[0]?, s.scheduler.mCurrentTick⟩

/-- The task of `e` runs and pushes `tasks`, then the top is popped. -/
def Run.doTask (s : Run A) (e : JobElement A) (tasks : List (A × ℕ)) : Run A :=
  { s with
    scheduler := (s.scheduler.pushTasks tasks).popTask
    history := s.history ++ [s.execution e tasks]
    batch := s.batch ++ [s.execution e tasks] }

def Run.finish (s : Run A) : Run A := { s with running := false }

inductive Step : Run A → Run A → Prop where
  | pushTask {s : Run A} (task : A) (after : ℕ) (h : s.running = false) :
    Step s (s.pushTask task after)
  | begin {s : Run A} (clock : ℤ) (h : s.running = false) : Step s (s.begin clock)
  | doTask {s : Run A} {e : JobElement A} (tasks : List (A × ℕ)) (h : s.running = true)
    (hd : s.scheduler.due = some e) : Step s (s.doTask e tasks)
  | finish {s : Run A} (h : s.running = true) (hd : s.scheduler.due = none) : Step s s.finish

inductive Reached : Run A → Prop where
  | init (clock : ℤ) : Reached (Run.init clock)
  | step {s t : Run A} (h : Reached s) (hs : Step s t) : Reached t

/-- The loop of `DoTasks`; `effects` is what the tasks it comes to push, in turn. -/
def loopBody (p : Run A × (ℕ → List (A × ℕ))) :
    Loop.Iter (Run A × (ℕ → List (A × ℕ))) (Run A) :=
  match p.1.scheduler.due with
  | none => .done p.1.finish
  | some e => .next (p.1.doTask e (p.2 0), fun n => p.2 (n + 1))

theorem due_eq_some {q : Scheduler A} {e : JobElement A} (h : q.due = some e) :
    q.mTaskQueue[0]? = some e ∧ e.mExecutionTick ≤ q.mCurrentTick := by
  unfold due at h
  cases htop : q.mTaskQueue[0]? with
  | none =>
    rw [htop] at h
    exact absurd h (by simp)
  | some top =>
    rw [htop] at h
    by_cases hlt : q.mCurrentTick < top.mExecutionTick
    · simp [hlt] at h
    · have htop' : top = e := by simpa [hlt] using h
      exact ⟨congrArg some htop', htop' ▸ not_lt.mp hlt⟩

theorem due_eq_none {q : Scheduler A} (h : q.due = none) (h0 : 0 < q.mTaskQueue.size) :
    q.mCurrentTick < q.mTaskQueue[0].mExecutionTick := by
  unfold due at h
  rw [Array.getElem?_eq_getElem h0] at h
  by_contra hle
  simp [hle] at h

theorem pushTask_top {q : Scheduler A} {e : JobElement A} (task : A) (after : ℕ)
    (htop : q.mTaskQueue[0]? = some e) (hle : e.mExecutionTick ≤ q.mCurrentTick) :
    (q.pushTask task after).mTaskQueue[0]? = some e := by
  obtain ⟨h0, hroot⟩ := Array.getElem?_eq_some_iff.mp htop
  have hkey : q.mTaskQueue[0].mExecutionTick ≤ (q.element task after).mExecutionTick := by
    rw [hroot]
    simp only [element]
    omega
  have hsize : 0 < (q.pushTask task after).mTaskQueue.size := by
    have hlen := (BinaryHeap.push_perm JobElement.mExecutionTick q.mTaskQueue
      (q.element task after)).length_eq
    simp only [Array.length_toList, List.length_cons] at hlen
    simp only [pushTask]
    omega
  rw [Array.getElem?_eq_getElem hsize]
  exact congrArg some ((BinaryHeap.push_root h0 hkey hsize).trans hroot)

theorem pushTasks_top {q : Scheduler A} {e : JobElement A} (tasks : List (A × ℕ))
    (htop : q.mTaskQueue[0]? = some e) (hle : e.mExecutionTick ≤ q.mCurrentTick) :
    (q.pushTasks tasks).mTaskQueue[0]? = some e := by
  induction tasks generalizing q with
  | nil => exact htop
  | cons p tasks ih => exact ih (pushTask_top p.1 p.2 htop hle) hle

theorem pushTasks_ordered {q : Scheduler A} (tasks : List (A × ℕ))
    (h : BinaryHeap.Ordered JobElement.mExecutionTick q.mTaskQueue) :
    BinaryHeap.Ordered JobElement.mExecutionTick (q.pushTasks tasks).mTaskQueue := by
  induction tasks generalizing q with
  | nil => exact h
  | cons p tasks ih => exact ih (BinaryHeap.push_ordered h (q.element p.1 p.2))

@[simp] theorem pushTasks_mCurrentTick (q : Scheduler A) (tasks : List (A × ℕ)) :
    (q.pushTasks tasks).mCurrentTick = q.mCurrentTick := by
  induction tasks generalizing q with
  | nil => rfl
  | cons p tasks ih => exact ih (q.pushTask p.1 p.2)

/-- `news` is what a list of pushes adds to the queue. -/
theorem pushTasks_news (q : Scheduler A) (tasks : List (A × ℕ)) :
    ∃ news, (q.pushTasks tasks).pushed = q.pushed ++ news ∧
      (q.pushTasks tasks).mTaskQueue.toList.Perm (q.mTaskQueue.toList ++ news) ∧
      ∀ e ∈ news, ∃ p ∈ tasks, e.mExecutionTick = p.2 + q.mCurrentTick := by
  induction tasks generalizing q with
  | nil => exact ⟨[], (List.append_nil _).symm, by simp [pushTasks], by simp⟩
  | cons p tasks ih =>
    obtain ⟨news, hpushed, hperm, hnews⟩ := ih (q.pushTask p.1 p.2)
    refine ⟨q.element p.1 p.2 :: news, ?_, ?_, fun e he => ?_⟩
    · exact hpushed.trans (List.append_assoc ..)
    · have hpush := BinaryHeap.push_perm JobElement.mExecutionTick q.mTaskQueue
        (q.element p.1 p.2)
      have hmove : (q.element p.1 p.2 :: q.mTaskQueue.toList ++ news).Perm
          (q.mTaskQueue.toList ++ q.element p.1 p.2 :: news) := List.perm_middle.symm
      exact hperm.trans ((hpush.append_right news).trans hmove)
    · rcases List.mem_cons.mp he with rfl | he
      · exact ⟨p, List.mem_cons_self, rfl⟩
      · obtain ⟨p', hp', htick⟩ := hnews e he
        exact ⟨p', List.mem_cons_of_mem p hp', htick⟩

theorem pushTasks_serials {q : Scheduler A} (tasks : List (A × ℕ))
    (h : q.pushed.map JobElement.serial = List.range q.pushed.length) :
    (q.pushTasks tasks).pushed.map JobElement.serial =
      List.range (q.pushTasks tasks).pushed.length := by
  induction tasks generalizing q with
  | nil => exact h
  | cons p tasks ih =>
    refine ih ?_
    simp only [pushTask, element, List.map_append, List.map_cons, List.map_nil, h,
      List.length_append, List.length_singleton, List.range_succ]

theorem doTask_removed {s : Run A} {e : JobElement A} (tasks : List (A × ℕ))
    (hd : s.scheduler.due = some e) : (s.execution e tasks).removed = some e := by
  obtain ⟨htop, hle⟩ := due_eq_some hd
  exact pushTasks_top tasks htop hle

theorem doTask_news {s : Run A} {e : JobElement A} (tasks : List (A × ℕ))
    (hd : s.scheduler.due = some e) :
    ∃ news, (s.doTask e tasks).scheduler.pushed = s.scheduler.pushed ++ news ∧
      (e :: (s.doTask e tasks).scheduler.mTaskQueue.toList).Perm
        (s.scheduler.mTaskQueue.toList ++ news) ∧
      ∀ x ∈ news, ∃ p ∈ tasks, x.mExecutionTick = p.2 + s.scheduler.mCurrentTick := by
  obtain ⟨news, hpushed, hperm, hnews⟩ := pushTasks_news s.scheduler tasks
  obtain ⟨h0, hroot⟩ := Array.getElem?_eq_some_iff.mp (doTask_removed tasks hd)
  have hpop := BinaryHeap.pop_perm JobElement.mExecutionTick h0
  rw [hroot] at hpop
  exact ⟨news, hpushed, hpop.trans hperm, hnews⟩

theorem mem_queue_le {q : Scheduler A} {e x : JobElement A}
    (ho : BinaryHeap.Ordered JobElement.mExecutionTick q.mTaskQueue)
    (htop : q.mTaskQueue[0]? = some e) (hx : x ∈ q.mTaskQueue.toList) :
    e.mExecutionTick ≤ x.mExecutionTick := by
  obtain ⟨h0, hroot⟩ := Array.getElem?_eq_some_iff.mp htop
  obtain ⟨i, hi, hget⟩ := Array.getElem_of_mem (Array.mem_toList_iff.mp hx)
  have hle := ho.root_le h0 i hi
  rwa [hroot, hget] at hle

structure Inv (s : Run A) : Prop where
  ordered : BinaryHeap.Ordered JobElement.mExecutionTick s.scheduler.mTaskQueue
  perm : (s.history.map Execution.ran ++ s.scheduler.mTaskQueue.toList).Perm s.scheduler.pushed
  serials : s.scheduler.pushed.map JobElement.serial = List.range s.scheduler.pushed.length
  removed : ∀ x ∈ s.history, x.removed = some x.ran
  notEarly : ∀ x ∈ s.history, x.ran.mExecutionTick ≤ x.tick
  sorted : s.batch.Pairwise fun x y => x.ran.mExecutionTick ≤ y.ran.mExecutionTick
  below : s.running = true → ∀ x ∈ s.batch, ∀ e ∈ s.scheduler.mTaskQueue.toList,
    x.ran.mExecutionTick ≤ e.mExecutionTick

theorem Inv.init (clock : ℤ) : Inv (Run.init (A := A) clock) where
  ordered i hi := absurd hi (Nat.not_lt_zero i)
  perm := .refl _
  serials := rfl
  removed x hx := absurd hx (List.not_mem_nil)
  notEarly x hx := absurd hx (List.not_mem_nil)
  sorted := .nil
  below h := absurd h (by simp [Run.init])

theorem Inv.pushTask {s : Run A} (h : Inv s) (task : A) (after : ℕ) (hr : s.running = false) :
    Inv (s.pushTask task after) where
  ordered := pushTasks_ordered [(task, after)] h.ordered
  perm := by
    obtain ⟨news, hpushed, hperm, -⟩ := pushTasks_news s.scheduler [(task, after)]
    have hall := (hperm.append_left (s.history.map Execution.ran)).trans
      (List.append_assoc .. ▸ h.perm.append_right news)
    exact hpushed ▸ hall
  serials := pushTasks_serials [(task, after)] h.serials
  removed := h.removed
  notEarly := h.notEarly
  sorted := h.sorted
  below hr' := absurd hr' (by simp [Run.pushTask, hr])

theorem Inv.begin {s : Run A} (h : Inv s) (clock : ℤ) : Inv (s.begin clock) where
  ordered := h.ordered
  perm := h.perm
  serials := h.serials
  removed := h.removed
  notEarly := h.notEarly
  sorted := .nil
  below _ _ hx := absurd hx (List.not_mem_nil)

theorem Inv.doTask {s : Run A} (h : Inv s) {e : JobElement A} (tasks : List (A × ℕ))
    (hr : s.running = true) (hd : s.scheduler.due = some e) : Inv (s.doTask e tasks) := by
  obtain ⟨htop, hle⟩ := due_eq_some hd
  obtain ⟨news, hpushed, hperm, hnews⟩ := doTask_news tasks hd
  have hmem : e ∈ s.scheduler.mTaskQueue.toList :=
    Array.mem_toList_iff.mpr (Array.mem_of_getElem? htop)
  -- Everything left in the queue is due no earlier than the task that ran.
  have hleft : ∀ x ∈ (s.doTask e tasks).scheduler.mTaskQueue.toList,
      x ∈ s.scheduler.mTaskQueue.toList ∨ s.scheduler.mCurrentTick ≤ x.mExecutionTick := by
    intro x hx
    rcases List.mem_append.mp (hperm.mem_iff.mp (List.mem_cons_of_mem e hx)) with hold | hnew
    · exact .inl hold
    · obtain ⟨p, -, htick⟩ := hnews x hnew
      exact .inr (by omega)
  refine ⟨BinaryHeap.pop_ordered (pushTasks_ordered tasks h.ordered), ?_,
    pushTasks_serials tasks h.serials, ?_, ?_, ?_, fun _ x hx y hy => ?_⟩
  · have hall : (s.history.map Execution.ran ++
        e :: (s.doTask e tasks).scheduler.mTaskQueue.toList).Perm (s.scheduler.pushed ++ news) :=
      (hperm.append_left _).trans (List.append_assoc .. ▸ h.perm.append_right news)
    have hmap : (s.doTask e tasks).history.map Execution.ran =
        s.history.map Execution.ran ++ [e] := List.map_append
    rw [hpushed, hmap, List.append_assoc]
    exact hall
  · intro x hx
    rcases List.mem_append.mp hx with hold | hnew
    · exact h.removed x hold
    · rw [List.mem_singleton.mp hnew]
      exact doTask_removed tasks hd
  · intro x hx
    rcases List.mem_append.mp hx with hold | hnew
    · exact h.notEarly x hold
    · rw [List.mem_singleton.mp hnew]
      exact hle
  · refine List.pairwise_append.mpr ⟨h.sorted, List.pairwise_singleton .., fun x hx y hy => ?_⟩
    rw [List.mem_singleton.mp hy]
    exact h.below hr x hx e hmem
  · have hran : x.ran.mExecutionTick ≤ e.mExecutionTick := by
      rcases List.mem_append.mp hx with hold | hnew
      · exact h.below hr x hold e hmem
      · rw [List.mem_singleton.mp hnew]
        exact le_rfl
    rcases hleft y hy with hold | hnew
    · exact le_trans hran (mem_queue_le h.ordered htop hold)
    · exact le_trans hran (le_trans hle hnew)

theorem Inv.finish {s : Run A} (h : Inv s) : Inv s.finish where
  ordered := h.ordered
  perm := h.perm
  serials := h.serials
  removed := h.removed
  notEarly := h.notEarly
  sorted := h.sorted
  below hr := absurd hr (by simp [Run.finish])

theorem Step.inv {s t : Run A} (hs : Step s t) (h : Inv s) : Inv t := by
  cases hs with
  | pushTask task after hr => exact h.pushTask task after hr
  | begin clock hr => exact h.begin clock
  | doTask tasks hr hd => exact h.doTask tasks hr hd
  | finish hr hd => exact h.finish

theorem Reached.inv {s : Run A} (h : Reached s) : Inv s := by
  induction h with
  | init clock => exact .init clock
  | step _ hs ih => exact hs.inv ih

theorem Inv.pushed_nodup {s : Run A} (h : Inv s) : s.scheduler.pushed.Nodup := by
  have hserials : (s.scheduler.pushed.map JobElement.serial).Nodup := by
    rw [h.serials]
    exact List.nodup_range
  have hne : ∀ a b : JobElement A, a.serial ≠ b.serial → a ≠ b := fun _ _ =>
    mt (congrArg JobElement.serial)
  exact List.Pairwise.of_map JobElement.serial hne hserials

theorem Inv.drained {s : Run A} (h : Inv s) (hd : s.scheduler.due = none) :
    ∀ e ∈ s.scheduler.mTaskQueue.toList, s.scheduler.mCurrentTick < e.mExecutionTick := by
  intro e he
  have h0 := Array.size_pos_of_mem (Array.mem_toList_iff.mp he)
  exact lt_of_lt_of_le (due_eq_none hd h0)
    (mem_queue_le h.ordered (Array.getElem?_eq_getElem h0) he)

theorem returns_reached {s t : Run A} {effects : ℕ → List (A × ℕ)} (h : Reached s)
    (hr : s.running = true) (ht : Loop.Returns loopBody (s, effects) t) :
    Reached t ∧ ∀ e ∈ t.scheduler.mTaskQueue.toList,
      t.scheduler.mCurrentTick < e.mExecutionTick := by
  refine ht.invariant (fun p => Reached p.1 ∧ p.1.running = true)
    (fun t => Reached t ∧ ∀ e ∈ t.scheduler.mTaskQueue.toList,
      t.scheduler.mCurrentTick < e.mExecutionTick) ⟨h, hr⟩ fun p hp => ?_
  unfold loopBody
  cases hd : p.1.scheduler.due with
  | none => exact ⟨hp.1.step (.finish hp.2 hd), hp.1.inv.drained hd⟩
  | some e => exact ⟨hp.1.step (.doTask (p.2 0) hp.2 hd), hp.2⟩

def dueCount (s : Run A) : ℕ :=
  s.scheduler.mTaskQueue.toList.countP (·.mExecutionTick ≤ s.scheduler.mCurrentTick)

theorem dueCount_doTask {s : Run A} {e : JobElement A} {tasks : List (A × ℕ)}
    (hd : s.scheduler.due = some e) (hafter : ∀ p ∈ tasks, 1 ≤ p.2) :
    dueCount (s.doTask e tasks) < dueCount s := by
  obtain ⟨-, hle⟩ := due_eq_some hd
  obtain ⟨news, -, hperm, hnews⟩ := doTask_news tasks hd
  have htick : (s.doTask e tasks).scheduler.mCurrentTick = s.scheduler.mCurrentTick :=
    pushTasks_mCurrentTick s.scheduler tasks
  have hlater : news.countP (·.mExecutionTick ≤ s.scheduler.mCurrentTick) = 0 := by
    refine List.countP_eq_zero.mpr fun x hx => ?_
    obtain ⟨p, hp, hx⟩ := hnews x hx
    have hone := hafter p hp
    simp only [decide_eq_true_eq]
    omega
  have hcount := hperm.countP_eq (·.mExecutionTick ≤ s.scheduler.mCurrentTick)
  rw [List.countP_append, hlater, List.countP_cons_of_pos (by simpa using hle)] at hcount
  unfold dueCount
  rw [htick]
  omega

theorem loop_terminates (s : Run A) (effects : ℕ → List (A × ℕ))
    (hafter : ∀ n, ∀ p ∈ effects n, 1 ≤ p.2) : Loop.Terminates loopBody (s, effects) := by
  refine Loop.terminates_of_measure (fun p => dueCount p.1) (fun p => ∀ n, ∀ x ∈ p.2 n, 1 ≤ x.2)
    (fun p p' hp hnext => ?_) (fun p _ => ?_) (s, effects) hafter
  · unfold loopBody at hnext
    cases hd : p.1.scheduler.due with
    | none => simp [hd] at hnext
    | some e =>
      simp only [hd, Loop.Iter.next.injEq] at hnext
      subst hnext
      exact ⟨fun n => hp (n + 1), dueCount_doTask hd (hp 0)⟩
  · unfold loopBody
    cases p.1.scheduler.due with
    | none => simp
    | some e => simp

theorem tasks_run_once {s : Run A} (h : Reached s) :
    (∀ x ∈ s.history, x.removed = some x.ran) ∧
    (s.history.map Execution.ran ++ s.scheduler.mTaskQueue.toList).Perm s.scheduler.pushed ∧
    s.scheduler.pushed.Nodup ∧
    (∀ x ∈ s.history, x.ran.mExecutionTick ≤ x.tick) ∧
    (s.batch.Pairwise fun x y => x.ran.mExecutionTick ≤ y.ran.mExecutionTick) ∧
    (s.running = true → ∀ effects,
      (∀ t, Loop.Returns loopBody (s, effects) t →
        Reached t ∧ ∀ e ∈ t.scheduler.mTaskQueue.toList,
          t.scheduler.mCurrentTick < e.mExecutionTick) ∧
      ((∀ n, ∀ p ∈ effects n, 1 ≤ p.2) → Loop.Terminates loopBody (s, effects))) := by
  have hinv := h.inv
  refine ⟨hinv.removed, hinv.perm, hinv.pushed_nodup, hinv.notEarly, hinv.sorted, ?_⟩
  intro hr effects
  exact ⟨fun t ht => returns_reached h hr ht, loop_terminates s effects⟩

/-- A task that was due at once has pushed another one that is due at once. -/
def repushed : Run ℕ := (((Run.init 0).pushTask 7 0).begin 0).doTask ⟨0, 7, 0⟩ [(8, 0)]

theorem repushed_due : (((Run.init 0).pushTask 7 0).begin 0).scheduler.due = some ⟨0, 7, 0⟩ := by
  simp [Run.begin, Run.pushTask, Run.init, init, pushTask, element, due, BinaryHeap.push,
    BinaryHeap.siftUp]

theorem repushed_reached : Reached repushed := by
  have hpushed : Reached ((Run.init 0).pushTask 7 0) := (Reached.init 0).step (.pushTask 7 0 rfl)
  exact (hpushed.step (.begin 0 rfl)).step (.doTask [(8, 0)] rfl repushed_due)

theorem repushed_runs_once :
    (∀ x ∈ repushed.history, x.removed = some x.ran) ∧
    (repushed.history.map Execution.ran ++ repushed.scheduler.mTaskQueue.toList).Perm
      repushed.scheduler.pushed ∧
    Loop.Terminates loopBody (repushed, fun _ => [(9, 1)]) := by
  have h := tasks_run_once repushed_reached
  obtain ⟨hremoved, hperm, -, -, -, hloop⟩ := h
  have hafter : ∀ n, ∀ p ∈ (fun _ : ℕ => [((9 : ℕ), (1 : ℕ))]) n, 1 ≤ p.2 := by simp
  exact ⟨hremoved, hperm, (hloop rfl _).2 hafter⟩

end Scheduler

end GameLift
