import GameLift.Scheduler
import Mathlib.Logic.Relation

/-! The delays of Scheduler.cpp against the clock. `PushTask` counts from `mCurrentTick`,
which was read when the last `DoTasks` began; the clock may have gone on since. -/

namespace GameLift

namespace Scheduler

variable {A : Type}

/-- A call of `PushTask`, and what the clock reads then. -/
structure Call (A : Type) where
  clock : ℤ
  task : A
  after : ℕ

def Call.args (c : Call A) : A × ℕ := (c.task, c.after)

/-- A call that was made: the element it pushed, and `mCurrentTick` at the time. -/
structure Request (A : Type) where
  element : JobElement A
  clock : ℤ
  after : ℕ
  cached : ℤ

def request (q : Scheduler A) (c : Call A) : Request A :=
  ⟨q.element c.task c.after, c.clock, c.after, q.mCurrentTick⟩

def requestsOf (q : Scheduler A) : List (Call A) → List (Request A)
  | [] => []
  | c :: calls => q.request c :: (q.pushTask c.task c.after).requestsOf calls

/-- No delay was asked for, or `mCurrentTick` was what the clock read. -/
def Request.OnTime (r : Request A) : Prop := r.after = 0 ∨ r.clock = r.cached

/-- A run of the scheduler with the clock. `started` are the elements whose task ran,
each with the clock's reading at its start. -/
structure Timed (A : Type) where
  run : Run A
  clock : ℤ
  requests : List (Request A)
  started : List (JobElement A × ℤ)

namespace Timed

def init (clock : ℤ) : Timed A := ⟨Run.init clock, clock, [], []⟩

def tick (s : Timed A) (now : ℤ) : Timed A := { s with clock := now }

def pushTask (s : Timed A) (task : A) (after : ℕ) : Timed A :=
  { s with
    run := s.run.pushTask task after
    requests := s.requests ++ [s.run.scheduler.request ⟨s.clock, task, after⟩] }

def begin (s : Timed A) : Timed A := { s with run := s.run.begin s.clock }

/-- The task of `e` makes `calls` while the clock goes on to `now`. -/
def doTask (s : Timed A) (e : JobElement A) (calls : List (Call A)) (now : ℤ) : Timed A where
  run := s.run.doTask e (calls.map Call.args)
  clock := now
  requests := s.requests ++ s.run.scheduler.requestsOf calls
  started := s.started ++ [(e, s.clock)]

def finish (s : Timed A) : Timed A := { s with run := s.run.finish }

inductive Step : Timed A → Timed A → Prop where
  | tick {s : Timed A} {now : ℤ} (h : s.clock ≤ now) : Step s (s.tick now)
  | pushTask {s : Timed A} (task : A) (after : ℕ) (h : s.run.running = false) :
    Step s (s.pushTask task after)
  | begin {s : Timed A} (h : s.run.running = false) : Step s s.begin
  | doTask {s : Timed A} {e : JobElement A} (calls : List (Call A)) {now : ℤ}
    (h : s.run.running = true) (hd : s.run.scheduler.due = some e)
    (hsorted : (calls.map Call.clock).Pairwise (· ≤ ·))
    (hcalls : ∀ c ∈ calls, s.clock ≤ c.clock ∧ c.clock ≤ now) (hnow : s.clock ≤ now) :
    Step s (s.doTask e calls now)
  | finish {s : Timed A} (h : s.run.running = true) (hd : s.run.scheduler.due = none) :
    Step s s.finish

inductive Reached : Timed A → Prop where
  | init (clock : ℤ) : Reached (Timed.init clock)
  | step {s t : Timed A} (h : Reached s) (hs : Step s t) : Reached t

abbrev Onward : Timed A → Timed A → Prop := Relation.ReflTransGen Step

theorem Reached.onward {s t : Timed A} (h : Reached s) (ht : Onward s t) : Reached t := by
  induction ht with
  | refl => exact h
  | tail _ hs ih => exact ih.step hs

/-- Every task that ran for this request started no earlier than it asked for. -/
def Kept (s : Timed A) (r : Request A) : Prop :=
  ∀ p ∈ s.started, p.1 = r.element → r.clock + r.after ≤ p.2

def Waiting (s : Timed A) (r : Request A) : Prop :=
  r.element ∈ s.run.scheduler.mTaskQueue.toList

theorem Step.run {s t : Timed A} (hs : Step s t) (h : Scheduler.Reached s.run) :
    Scheduler.Reached t.run := by
  cases hs with
  | tick _ => exact h
  | pushTask task after hr => exact h.step (.pushTask task after hr)
  | begin hr => exact h.step (.begin _ hr)
  | doTask calls hr hd _ _ _ => exact h.step (.doTask _ hr hd)
  | finish hr hd => exact h.step (.finish hr hd)

theorem Reached.run {s : Timed A} (h : Reached s) : Scheduler.Reached s.run := by
  induction h with
  | init clock => exact .init clock
  | step _ hs ih => exact hs.run ih

theorem requestsOf_elements (q : Scheduler A) (calls : List (Call A)) :
    (q.pushTasks (calls.map Call.args)).pushed =
      q.pushed ++ (q.requestsOf calls).map Request.element := by
  induction calls generalizing q with
  | nil => exact (List.append_nil _).symm
  | cons c calls ih => exact (ih (q.pushTask c.task c.after)).trans (List.append_assoc ..)

theorem mem_requestsOf {q : Scheduler A} {calls : List (Call A)} {r : Request A}
    (h : r ∈ q.requestsOf calls) :
    r.element.mExecutionTick = r.after + r.cached ∧ r.cached = q.mCurrentTick ∧
      ∃ c ∈ calls, r.clock = c.clock := by
  induction calls generalizing q with
  | nil => cases h
  | cons c calls ih =>
    rcases List.mem_cons.mp h with rfl | h
    · exact ⟨rfl, rfl, c, List.mem_cons_self, rfl⟩
    · obtain ⟨htick, hcached, c', hc', hclock⟩ := ih h
      exact ⟨htick, hcached, c', List.mem_cons_of_mem c hc', hclock⟩

/-- What the code computes for a request: an element due `after` past the cached tick. -/
structure Counted (s : Timed A) (r : Request A) : Prop where
  tick : r.element.mExecutionTick = r.after + r.cached
  cached : r.cached ≤ r.clock
  clock : r.clock ≤ s.clock

structure Inv (s : Timed A) : Prop where
  cached : s.run.scheduler.mCurrentTick ≤ s.clock
  counted : ∀ r ∈ s.requests, s.Counted r
  elements : s.requests.map Request.element = s.run.scheduler.pushed
  ran : s.started.map Prod.fst = s.run.history.map Execution.ran
  due : ∀ p ∈ s.started, p.1.mExecutionTick ≤ p.2
  after : ∀ p ∈ s.started, ∀ r ∈ s.requests, p.1 = r.element → r.clock ≤ p.2

theorem Counted.later {s t : Timed A} {r : Request A} (h : s.Counted r)
    (hle : s.clock ≤ t.clock) : t.Counted r := ⟨h.tick, h.cached, le_trans h.clock hle⟩

theorem Inv.init (clock : ℤ) : Inv (Timed.init (A := A) clock) where
  cached := le_rfl
  counted _ hr := absurd hr List.not_mem_nil
  elements := rfl
  ran := rfl
  due _ hp := absurd hp List.not_mem_nil
  after _ hp := absurd hp List.not_mem_nil

theorem Inv.pushed_of_started {s : Timed A} (h : Inv s) (hr : Scheduler.Reached s.run)
    {p : JobElement A × ℤ} (hp : p ∈ s.started) : p.1 ∈ s.run.scheduler.pushed := by
  have hran : p.1 ∈ s.run.history.map Execution.ran := h.ran ▸ List.mem_map_of_mem hp
  exact hr.inv.perm.mem_iff.mp (List.mem_append_left _ hran)

/-- Some calls are made, and the elements of `ran` start before them. -/
theorem Inv.grow {s : Timed A} (h : Inv s) (hr : Scheduler.Reached s.run) (calls : List (Call A))
    (ran : List (JobElement A)) {run : Run A} {now : ℤ} (hrun : Scheduler.Reached run)
    (hpushed : run.scheduler.pushed = (s.run.scheduler.pushTasks (calls.map Call.args)).pushed)
    (hcached : run.scheduler.mCurrentTick = s.run.scheduler.mCurrentTick)
    (hhistory : run.history.map Execution.ran = s.run.history.map Execution.ran ++ ran)
    (hran : ∀ e ∈ ran, e ∈ s.run.scheduler.pushed ∧ e.mExecutionTick ≤ s.clock)
    (hcalls : ∀ c ∈ calls, s.clock ≤ c.clock ∧ c.clock ≤ now) (hnow : s.clock ≤ now) :
    Inv ⟨run, now, s.requests ++ s.run.scheduler.requestsOf calls,
      s.started ++ ran.map fun e => (e, s.clock)⟩ := by
  rw [requestsOf_elements] at hpushed
  have hnodup := hrun.inv.pushed_nodup
  rw [hpushed] at hnodup
  have hfresh : ∀ e ∈ s.run.scheduler.pushed, ∀ r ∈ s.run.scheduler.requestsOf calls,
      e ≠ r.element := by
    rintro e he r hr rfl
    exact (List.nodup_append.mp hnodup).2.2 _ he _ (List.mem_map_of_mem hr) rfl
  have hstarted : ∀ p ∈ s.started ++ ran.map fun e => (e, s.clock),
      p ∈ s.started ∨ p.1 ∈ ran ∧ p.2 = s.clock := by
    intro p hp
    rcases List.mem_append.mp hp with hp | hp
    · exact .inl hp
    · obtain ⟨e, he, rfl⟩ := List.mem_map.mp hp
      exact .inr ⟨he, rfl⟩
  refine ⟨?_, fun r hreq => ?_, ?_, ?_, fun p hp => ?_, fun p hp r hreq he => ?_⟩
  · rw [hcached]
    exact le_trans h.cached hnow
  · rcases List.mem_append.mp hreq with hold | hnew
    · exact (h.counted r hold).later hnow
    · obtain ⟨htick, hcur, c, hc, hclock⟩ := mem_requestsOf hnew
      have hcall := hcalls c hc
      refine ⟨htick, ?_, ?_⟩
      · rw [hcur, hclock]
        exact le_trans h.cached hcall.1
      · rw [hclock]
        exact hcall.2
  · rw [hpushed, List.map_append, h.elements]
  · rw [hhistory, List.map_append, h.ran, List.map_map]
    exact congrArg (_ ++ ·) (List.map_id ran)
  · rcases hstarted p hp with hold | ⟨hnew, htime⟩
    · exact h.due p hold
    · rw [htime]
      exact (hran p.1 hnew).2
  · have hin : p.1 ∈ s.run.scheduler.pushed := by
      rcases hstarted p hp with hold | ⟨hnew, -⟩
      · exact h.pushed_of_started hr hold
      · exact (hran p.1 hnew).1
    rcases List.mem_append.mp hreq with hreq | hreq
    · rcases hstarted p hp with hold | ⟨-, htime⟩
      · exact h.after p hold r hreq he
      · rw [htime]
        exact (h.counted r hreq).clock
    · exact absurd he (hfresh p.1 hin r hreq)

theorem Step.inv {s t : Timed A} (hs : Step s t) (hr : Scheduler.Reached s.run) (h : Inv s) :
    Inv t := by
  have hrun := hs.run hr
  cases hs with
  | tick hle =>
    exact ⟨le_trans h.cached hle, fun r hreq => (h.counted r hreq).later hle, h.elements, h.ran,
      h.due, h.after⟩
  | pushTask task after hidle =>
    have hh := h.grow hr [⟨s.clock, task, after⟩] [] hrun rfl rfl
      (List.append_nil _).symm (by simp) (by simp) le_rfl
    rwa [List.map_nil, List.append_nil] at hh
  | begin hidle =>
    exact ⟨le_rfl, fun r hreq => (h.counted r hreq).later le_rfl, h.elements, h.ran, h.due,
      h.after⟩
  | @doTask e calls now hrunning hd hsorted hcalls hnow =>
    obtain ⟨htop, hle⟩ := due_eq_some hd
    have hin : e ∈ s.run.scheduler.pushed := by
      have hqueue := Array.mem_toList_iff.mpr (Array.mem_of_getElem? htop)
      exact hr.inv.perm.mem_iff.mp (List.mem_append_right _ hqueue)
    refine h.grow hr calls [e] hrun rfl (pushTasks_mCurrentTick _ _) List.map_append ?_
      hcalls hnow
    intro x hx
    rw [List.mem_singleton.mp hx]
    exact ⟨hin, le_trans hle h.cached⟩
  | finish hrunning hd =>
    exact ⟨h.cached, fun r hreq => (h.counted r hreq).later le_rfl, h.elements, h.ran, h.due,
      h.after⟩

theorem Reached.inv {s : Timed A} (h : Reached s) : Inv s := by
  induction h with
  | init clock => exact .init clock
  | step h hs ih => exact hs.inv h.run ih

/-- A request made on time is never cut short, whatever the others are. -/
theorem Reached.kept {s : Timed A} (h : Reached s) {r : Request A} (hr : r ∈ s.requests)
    (ht : r.OnTime) : s.Kept r := by
  intro p hp he
  have htick := (h.inv.counted r hr).tick
  have hdue := h.inv.due p hp
  rcases ht with hzero | hclock
  · have hafter := h.inv.after p hp r hr he
    omega
  · rw [he] at hdue
    omega

/-- A `DoTasks` has run all that is due while the clock stood still. -/
structure Drained (s t : Timed A) : Prop where
  onward : Onward s t
  running : t.run.running = true
  due : t.run.scheduler.due = none
  clock : t.clock = s.clock
  cached : t.run.scheduler.mCurrentTick = s.run.scheduler.mCurrentTick
  started : ∃ ran : List (JobElement A), t.started = s.started ++ ran.map fun e => (e, s.clock)
  requests : t.requests = s.requests

theorem drain (s : Timed A) (hr : s.run.running = true) : ∃ t, Drained s t := by
  induction hm : dueCount s.run using Nat.strongRecOn generalizing s with
  | _ n ih =>
    cases hd : s.run.scheduler.due with
    | none => exact ⟨s, .refl, hr, hd, rfl, rfl, ⟨[], (List.append_nil _).symm⟩, rfl⟩
    | some e =>
      have hstep : Step s (s.doTask e [] s.clock) :=
        .doTask [] hr hd .nil (fun c hc => absurd hc List.not_mem_nil) le_rfl
      have hlt : dueCount (s.doTask e [] s.clock).run < n :=
        hm ▸ dueCount_doTask hd fun p hp => absurd hp List.not_mem_nil
      obtain ⟨t, ht⟩ := ih _ hlt (s.doTask e [] s.clock) hr rfl
      obtain ⟨ran, hran⟩ := ht.started
      refine ⟨t, .head hstep ht.onward, ht.running, ht.due, ht.clock, ht.cached, ⟨e :: ran, ?_⟩,
        ht.requests.trans (List.append_nil _)⟩
      rw [hran]
      exact List.append_assoc ..

theorem Reached.started_or_waiting {s : Timed A} (h : Reached s) {r : Request A}
    (hr : r ∈ s.requests) : r.element ∈ s.started.map Prod.fst ∨ s.Waiting r := by
  have hin : r.element ∈ s.run.scheduler.pushed := h.inv.elements ▸ List.mem_map_of_mem hr
  rw [h.inv.ran]
  exact List.mem_append.mp (h.run.inv.perm.mem_iff.mpr hin)

theorem Reached.not_started {s : Timed A} (h : Reached s) {r : Request A} (hw : s.Waiting r) :
    r.element ∉ s.started.map Prod.fst := by
  intro hin
  rw [h.inv.ran] at hin
  have hnodup := h.run.inv.perm.nodup_iff.mpr h.run.inv.pushed_nodup
  exact (List.nodup_append.mp hnodup).2.2 _ hin _ hw rfl

theorem Drained.reading {s t : Timed A} (hd : Drained s t) (h : Reached s) {r : Request A}
    (hw : s.Waiting r) (hin : r.element ∈ t.started.map Prod.fst) :
    (r.element, s.clock) ∈ t.started := by
  obtain ⟨ran, hran⟩ := hd.started
  rw [hran, List.map_append, List.map_map] at hin
  rcases List.mem_append.mp hin with hold | hnew
  · exact absurd hold (h.not_started hw)
  · obtain ⟨e, he, heq⟩ := List.mem_map.mp hnew
    rw [hran]
    exact List.mem_append_right _ (List.mem_map.mpr ⟨e, he, congrArg (·, s.clock) heq⟩)

/-- Between two `DoTasks`: the next one comes as early as the element lets it. -/
theorem Reached.cut_idle {s : Timed A} (h : Reached s) (hidle : s.run.running = false)
    {r : Request A} (hr : r ∈ s.requests) (hw : s.Waiting r)
    (hclock : s.clock < r.clock + r.after) (ht : ¬ r.OnTime) :
    ∃ t, Onward s t ∧ ¬ t.Kept r := by
  have hcounted := h.inv.counted r hr
  have htick := hcounted.tick
  have hcached := hcounted.cached
  have hsoon : max s.clock r.element.mExecutionTick < r.clock + r.after := by
    have hne : r.clock ≠ r.cached := fun he => ht (Or.inr he)
    omega
  have hwait : Onward s (s.tick (max s.clock r.element.mExecutionTick)).begin :=
    .tail (.single (.tick (le_max_left ..))) (.begin hidle)
  obtain ⟨t, hd⟩ := drain (s.tick (max s.clock r.element.mExecutionTick)).begin rfl
  have hreached := h.onward hwait
  have hran : r.element ∈ t.started.map Prod.fst := by
    rcases (hreached.onward hd.onward).started_or_waiting (hd.requests ▸ hr) with hin | hin
    · exact hin
    · have hlater := (hreached.onward hd.onward).run.inv.drained hd.due _ hin
      rw [hd.cached] at hlater
      exact absurd hlater (not_lt.mpr (le_max_right ..))
  refine ⟨t, hwait.trans hd.onward, fun hkept => ?_⟩
  have hle := hkept _ (hd.reading hreached hw hran) rfl
  exact absurd hsoon (not_lt.mpr hle)

theorem Reached.cut {s : Timed A} (h : Reached s) {r : Request A} (hr : r ∈ s.requests)
    (hw : s.Waiting r) (hclock : s.clock < r.clock + r.after) (ht : ¬ r.OnTime) :
    ∃ t, Onward s t ∧ ¬ t.Kept r := by
  cases hrunning : s.run.running with
  | false => exact h.cut_idle hrunning hr hw hclock ht
  | true =>
    obtain ⟨u, hd⟩ := drain s hrunning
    have hu := h.onward hd.onward
    rcases hu.started_or_waiting (hd.requests ▸ hr) with hin | hin
    · refine ⟨u, hd.onward, fun hkept => ?_⟩
      have hle := hkept _ (hd.reading h hw hin) rfl
      exact absurd hclock (not_lt.mpr hle)
    · have hfinish : Step u u.finish := .finish hd.running hd.due
      obtain ⟨t, hont, hcut⟩ := (hu.step hfinish).cut_idle rfl (hd.requests ▸ hr) hin
        (hd.clock ▸ hclock) ht
      exact ⟨t, hd.onward.trans (.head hfinish hont), hcut⟩

theorem Step.requests {s t : Timed A} (hs : Step s t) {r : Request A} (hr : r ∈ s.requests) :
    r ∈ t.requests := by
  cases hs with
  | tick _ => exact hr
  | pushTask _ _ _ => exact List.mem_append_left _ hr
  | begin _ => exact hr
  | doTask _ _ _ _ _ _ => exact List.mem_append_left _ hr
  | finish _ _ => exact hr

theorem onward_requests {s t : Timed A} (h : Onward s t) {r : Request A} (hr : r ∈ s.requests) :
    r ∈ t.requests := by
  induction h with
  | refl => exact hr
  | tail _ hs ih => exact hs.requests ih

/-- In every run the delays asked for on time are kept. Any other delay that is still
running can be cut short: the run has a continuation that starts its task too early. -/
theorem delays_kept {s : Timed A} (h : Reached s) :
    (∀ r ∈ s.requests, r.OnTime → s.Kept r) ∧
    ∀ r ∈ s.requests, s.Waiting r → s.clock < r.clock + r.after →
      ((∀ t, Onward s t → t.Kept r) ↔ r.OnTime) := by
  refine ⟨fun r hr ht => h.kept hr ht, fun r hr hw hclock => ⟨fun hall => ?_, ?_⟩⟩
  · by_contra ht
    obtain ⟨t, hont, hcut⟩ := h.cut hr hw hclock ht
    exact hcut (hall t hont)
  · intro ht t hont
    exact (h.onward hont).kept (onward_requests hont hr) ht

/-- Pushed when the clock reads `pushedAt`; the next `DoTasks` begins at 100. -/
def delayed (pushedAt : ℤ) : Timed ℕ :=
  ((((Timed.init 0).tick pushedAt).pushTask 7 100).tick 100).begin.doTask ⟨0, 7, 100⟩ [] 100

theorem delayed_due (pushedAt : ℤ) :
    ((((Timed.init 0).tick pushedAt).pushTask 7 100).tick 100).begin.run.scheduler.due =
      some ⟨0, 7, 100⟩ := by
  simp [begin, tick, pushTask, Timed.init, Run.begin, Run.pushTask, Run.init, Scheduler.init,
    Scheduler.pushTask, element, Scheduler.due, BinaryHeap.push, BinaryHeap.siftUp]

theorem delayed_reached {pushedAt : ℤ} (h0 : 0 ≤ pushedAt) (h100 : pushedAt ≤ 100) :
    Reached (delayed pushedAt) := by
  have hpushed : Reached (((Timed.init 0).tick pushedAt).pushTask 7 100) :=
    ((Reached.init 0).step (.tick h0)).step (.pushTask 7 100 rfl)
  have hbegun := (hpushed.step (.tick h100)).step (.begin rfl)
  exact hbegun.step (.doTask [] rfl (delayed_due pushedAt) .nil (by simp) le_rfl)

theorem delayed_requests (pushedAt : ℤ) :
    (delayed pushedAt).requests = [⟨⟨0, 7, 100⟩, pushedAt, 100, 0⟩] := rfl

theorem delayed_started (pushedAt : ℤ) : (delayed pushedAt).started = [(⟨0, 7, 100⟩, 100)] := rfl

theorem delayed_kept : (delayed 0).Kept ⟨⟨0, 7, 100⟩, 0, 100, 0⟩ := by
  have hr := delayed_reached le_rfl (show (0 : ℤ) ≤ 100 by decide)
  exact (delays_kept hr).1 _ (by simp [delayed_requests]) (Or.inr rfl)

/-- A delay of 100 asked for at 90 is over at 100. -/
theorem delayed_cut : ∃ s : Timed ℕ, Reached s ∧ ∃ r ∈ s.requests, ¬ s.Kept r := by
  refine ⟨delayed 90, delayed_reached (by decide) (by decide), ⟨⟨0, 7, 100⟩, 90, 100, 0⟩, ?_, ?_⟩
  · simp [delayed_requests]
  · intro hkept
    have hle := hkept (⟨0, 7, 100⟩, 100) (by simp [delayed_started]) rfl
    exact absurd hle (by decide)

end Timed

end Scheduler

end GameLift
