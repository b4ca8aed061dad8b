import Mathlib.Data.List.Nodup
import Mathlib.Logic.Function.Iterate
import GameLift.HalfLinked

/-! JobDispatcher.h: the job queue. Any number of producers push, one consumer pops,
and every load, store and exchange is a step of its own. -/

namespace GameLift

namespace JobQueue

/-- `&mStub`, or the `mNodeEntry` of a job. -/
inductive Node (E : Type) where
  | stub
  | entry (e : E)
deriving DecidableEq, Repr

structure Queue (E : Type) where
  mHead : Node E
  mTail : Node E
  mNext : Node E → Option (Node E)

/-- The program points of `Pop`, with the locals that are live there. -/
inductive Pop (E : Type) where
  | start
  | loadNext (tail : Node E)
  | first (next : Node E)
  | firstNext (tail : Node E)
  | take (tail next : Node E)
  | loadHead (tail : Node E)
  | clear (tail : Node E)
  | exchange (tail : Node E)
  | link (tail prevNode : Node E)
  | reload (tail : Node E)
  | done (job : Option (Node E))

variable {E : Type} [DecidableEq E]

def Queue.setNext (q : Queue E) (n : Node E) (next : Option (Node E)) : Queue E :=
  { q with mNext := Function.update q.mNext n next }

@[simp] theorem Queue.setNext_self (q : Queue E) (n : Node E) (next : Option (Node E)) :
    (q.setNext n next).mNext n = next := Function.update_self ..

theorem Queue.setNext_of_ne (q : Queue E) {m n : Node E} (h : m ≠ n) (next : Option (Node E)) :
    (q.setNext n next).mNext m = q.mNext m := Function.update_of_ne h ..

def Pop.step (q : Queue E) : Pop E → Queue E × Pop E
  | start => (q, loadNext q.mTail)
  | loadNext tail =>
    if tail = .stub then
      -- in case of empty
      match q.mNext tail with
      | none => (q, done none)
      | some next => (q, first next)
    else
      match q.mNext tail with
      | some next => (q, take tail next)
      | none => (q, loadHead tail)
  | first next => ({ q with mTail := next }, firstNext next)
  | firstNext tail =>
    match q.mNext tail with
    | some next => (q, take tail next)
    | none => (q, loadHead tail)
  | take tail next => ({ q with mTail := next }, done (some tail))
  | loadHead tail => (q, if tail ≠ q.mHead then done none else clear tail)
  | clear tail => (q.setNext .stub none, exchange tail)
  | exchange tail => ({ q with mHead := .stub }, link tail q.mHead)
  | link tail prevNode => (q.setNext prevNode (some .stub), reload tail)
  | reload tail =>
    match q.mNext tail with
    | some next => (q, take tail next)
    | none => (q, done none)
  | done job => (q, done job)

/-- `linking e` is the `prevNode` of the push of `e` between its exchange and its
store, `pop` the call of `Pop` in progress. `pushed` lists the entries in the order
of their exchanges, `returned` what the calls gave back. -/
structure State (E : Type) where
  queue : Queue E
  linking : E → Option (Node E)
  pop : Option (Pop E)
  pushed : List E
  returned : List (Node E)

def init : State E where
  queue := ⟨.stub, .stub, fun _ => none⟩
  linking _ := none
  pop := none
  pushed := []
  returned := []

def State.exchange (s : State E) (e : E) : State E where
  queue := { s.queue with mHead := .entry e }
  linking := Function.update s.linking e (some s.queue.mHead)
  pop := s.pop
  pushed := s.pushed ++ [e]
  returned := s.returned

def State.store (s : State E) (e : E) (prevNode : Node E) : State E :=
  { s with
    queue := s.queue.setNext prevNode (some (.entry e))
    linking := Function.update s.linking e none }

@[simp] theorem State.exchange_linking (s : State E) (e : E) :
    (s.exchange e).linking = Function.update s.linking e (some s.queue.mHead) := rfl

@[simp] theorem State.store_linking (s : State E) (e : E) (prevNode : Node E) :
    (s.store e prevNode).linking = Function.update s.linking e none := rfl

def State.goto (s : State E) (r : Queue E × Pop E) : State E :=
  { s with queue := r.1, pop := some r.2 }

inductive Produce (s : State E) : State E → Prop where
  | exchange {e} : e ∉ s.pushed → Produce s (s.exchange e)
  | store {e prevNode} : s.linking e = some prevNode → Produce s (s.store e prevNode)

/-- One step of the consumer: the call of `Pop`, a step in it, or its return. -/
def State.consume (s : State E) : State E :=
  match s.pop with
  | none => { s with pop := some .start }
  | some (.done job) => { s with pop := none, returned := s.returned ++ job.toList }
  | some p => s.goto (p.step s.queue)

theorem State.consume_call {s : State E} (hp : s.pop = none) :
    s.consume = { s with pop := some .start } := by
  rw [State.consume, hp]

theorem State.consume_ret {s : State E} {job : Option (Node E)} (hp : s.pop = some (.done job)) :
    s.consume = { s with pop := none, returned := s.returned ++ job.toList } := by
  rw [State.consume, hp]

theorem State.consume_run {s : State E} {p : Pop E} (hp : s.pop = some p)
    (hdone : ∀ job, p ≠ .done job) : s.consume = s.goto (p.step s.queue) := by
  rw [State.consume, hp]
  cases p with
  | done job => exact absurd rfl (hdone job)
  | _ => rfl

inductive Reached : State E → Prop where
  | init : Reached init
  | produce {s s'} : Reached s → Produce s s' → Reached s'
  | consume {s} : Reached s → Reached s.consume

inductive Owed (s : State E) : Node E → Node E → Prop where
  | push {e a} : s.linking e = some a → Owed s a (.entry e)
  | stub {tail a} : s.pop = some (.link tail a) → Owed s a .stub

/-- What `Pop` knows at each point, of the queue and of the nodes `l` in it. -/
def Pop.Knows (q : Queue E) (l : List (Node E)) : Pop E → Prop
  | start => True
  | loadNext tail => tail = q.mTail
  | first next => q.mTail = .stub ∧ q.mNext .stub = some next
  | firstNext tail => tail = q.mTail ∧ tail ≠ .stub
  | take tail next => tail = q.mTail ∧ tail ≠ .stub ∧ q.mNext tail = some next
  | loadHead tail => tail = q.mTail ∧ tail ≠ .stub
  | clear tail => tail = q.mTail ∧ tail ≠ .stub ∧ .stub ∉ l
  | exchange tail => tail = q.mTail ∧ tail ≠ .stub ∧ .stub ∉ l ∧ q.mNext .stub = none
  | link tail _ => tail = q.mTail ∧ tail ≠ .stub
  | reload tail => tail = q.mTail ∧ tail ≠ .stub
  | done job => job ≠ some .stub

/-- What the calls returned, the one that has just taken its node included. -/
def State.taken (s : State E) : List (Node E) :=
  match s.pop with
  | some (.done job) => s.returned ++ job.toList
  | _ => s.returned

def Pop.Linking : Pop E → Prop
  | link _ _ => True
  | _ => False

omit [DecidableEq E] in
theorem owed_congr {s s' : State E} (hlinking : s'.linking = s.linking)
    (hs : ∀ p, s.pop = some p → ¬p.Linking) (hs' : ∀ p, s'.pop = some p → ¬p.Linking)
    (a b : Node E) : Owed s' a b ↔ Owed s a b := by
  constructor
  · rintro (hl | hl)
    · exact .push (hlinking ▸ hl)
    · exact absurd trivial (hs' _ hl)
  · rintro (hl | hl)
    · exact .push (hlinking.symm ▸ hl)
    · exact absurd trivial (hs _ hl)

omit [DecidableEq E] in
theorem owed_goto {s : State E} {p : Pop E} (hp : s.pop = some p) (hlink : ¬ p.Linking)
    (q : Queue E) {p' : Pop E} (hlink' : ¬ p'.Linking) (a b : Node E) :
    Owed (s.goto (q, p')) a b ↔ Owed s a b := by
  have hlinking : (s.goto (q, p')).linking = s.linking := rfl
  refine owed_congr hlinking (fun p₁ hp₁ => ?_) (fun p₁ hp₁ => ?_) a b
  · obtain rfl : p = p₁ := Option.some.inj (hp.symm.trans hp₁)
    exact hlink
  · obtain rfl : p' = p₁ := Option.some.inj hp₁
    exact hlink'

structure Inv (s : State E) (l : List (Node E)) : Prop where
  chain : HalfLinked.Chain s.queue.mNext (Owed s) s.queue.mTail s.queue.mHead l
  contents : s.taken ++ l.filter (· ≠ .stub) = s.pushed.map .entry
  nodup : s.pushed.Nodup
  fresh : ∀ e ∉ s.pushed, s.queue.mNext (.entry e) = none
  point : ∀ p, s.pop = some p → p.Knows s.queue l

namespace Inv

variable {s : State E} {l : List (Node E)}

theorem init : Inv (init : State E) [.stub] where
  chain :=
    { nodup := by simp
      head := rfl
      getLast := rfl
      joined := fun a b hab => absurd hab.length_le (by simp)
      adjacent := by rintro a b (h | h) <;> simp [JobQueue.init] at h
      unset := by rintro a b (h | h) <;> simp [JobQueue.init] at h
      open_last := rfl }
  contents := rfl
  nodup := List.nodup_nil
  fresh _ _ := rfl
  point p hp := absurd hp (by simp [JobQueue.init])

theorem pushed_of_mem (h : Inv s l) {e : E} (he : .entry e ∈ l) : e ∈ s.pushed := by
  have hmem : Node.entry e ∈ s.taken ++ l.filter (· ≠ .stub) :=
    List.mem_append_right _ (List.mem_filter.mpr ⟨he, by simp⟩)
  rw [h.contents] at hmem
  simpa using hmem

theorem exchange (h : Inv s l) {e : E} (he : e ∉ s.pushed) :
    Inv (s.exchange e) (l ++ [.entry e]) where
  chain := by
    have hn : .entry e ∉ l := fun hmem => he (h.pushed_of_mem hmem)
    refine h.chain.push hn (h.fresh e he) fun a b => ⟨?_, ?_⟩
    · rintro (@⟨e', _, hl⟩ | hp)
      · by_cases hee : e' = e
        · subst hee
          rw [State.exchange_linking, Function.update_self] at hl
          exact .inr ⟨(Option.some.inj hl).symm, rfl⟩
        · rw [State.exchange_linking, Function.update_of_ne hee] at hl
          exact .inl (.push hl)
      · exact .inl (.stub hp)
    · rintro ((@⟨e', _, hl⟩ | hp) | ⟨rfl, rfl⟩)
      · have hee : e' ≠ e := by
          rintro rfl
          exact hn (h.chain.owed_mem (.push hl)).2
        exact .push (by rwa [State.exchange_linking, Function.update_of_ne hee])
      · exact .stub hp
      · exact .push (by rw [State.exchange_linking, Function.update_self])
  contents := by
    have hf : (l ++ [Node.entry e]).filter (· ≠ .stub) = l.filter (· ≠ .stub) ++ [.entry e] := by
      simp
    rw [hf, ← List.append_assoc]
    change (s.taken ++ _) ++ _ = (s.pushed ++ [e]).map _
    rw [h.contents, List.map_append, List.map_singleton]
  nodup := by
    have hcons := List.nodup_cons.mpr ⟨he, h.nodup⟩
    exact (List.perm_append_singleton e s.pushed).nodup_iff.mpr hcons
  fresh e' he' := h.fresh e' fun hmem => he' (List.mem_append_left _ hmem)
  point p hp := by
    have hk := h.point p hp
    cases p with
    | clear tail => exact ⟨hk.1, hk.2.1, by simpa using hk.2.2⟩
    | exchange tail => exact ⟨hk.1, hk.2.1, by simpa using hk.2.2.1, hk.2.2.2⟩
    | _ => exact hk

theorem store (h : Inv s l) {e : E} {prevNode : Node E} (hl : s.linking e = some prevNode) :
    Inv (s.store e prevNode) l where
  chain := by
    have howed : Owed s prevNode (.entry e) := .push hl
    refine h.chain.join howed fun x y => ⟨?_, ?_⟩
    · rintro (@⟨e', _, hx⟩ | hp)
      · have hee : e' ≠ e := by
          rintro rfl
          simp at hx
        rw [State.store_linking, Function.update_of_ne hee] at hx
        refine ⟨.push hx, ?_⟩
        rintro rfl
        exact hee (Node.entry.inj (h.chain.owed_unique (.push hx) howed))
      · refine ⟨.stub hp, ?_⟩
        rintro rfl
        exact absurd (h.chain.owed_unique (.stub hp) howed) (by simp)
    · rintro ⟨@⟨e', _, hx⟩ | hp, hne⟩
      · have hee : e' ≠ e := by
          rintro rfl
          exact hne (Option.some.inj (hx.symm.trans hl))
        exact .push (by rwa [State.store_linking, Function.update_of_ne hee])
      · exact .stub hp
  contents := h.contents
  nodup := h.nodup
  fresh e' he' := by
    have hne : .entry e' ≠ prevNode := by
      rintro rfl
      exact he' (h.pushed_of_mem (h.chain.owed_mem (.push hl)).1)
    exact (s.queue.setNext_of_ne hne _).trans (h.fresh e' he')
  point p hp := by
    have hk := h.point p hp
    have hmem := (h.chain.owed_mem (.push hl)).1
    have hnone := h.chain.unset _ _ (.push hl)
    cases p with
    | first next =>
      have hne : .stub ≠ prevNode := by
        rintro rfl
        exact absurd (hk.2.symm.trans hnone) (by simp)
      exact ⟨hk.1, (s.queue.setNext_of_ne hne _).trans hk.2⟩
    | take tail next =>
      have hne : tail ≠ prevNode := by
        rintro rfl
        exact absurd (hk.2.2.symm.trans hnone) (by simp)
      exact ⟨hk.1, hk.2.1, (s.queue.setNext_of_ne hne _).trans hk.2.2⟩
    | exchange tail =>
      have hne : .stub ≠ prevNode := by
        rintro rfl
        exact hk.2.2.1 hmem
      exact ⟨hk.1, hk.2.1, hk.2.2.1, (s.queue.setNext_of_ne hne _).trans hk.2.2.2⟩
    | _ => exact hk

theorem look (h : Inv s l) {p p' : Pop E} (hp : s.pop = some p) (hlink : ¬ p.Linking)
    (hlink' : ¬ p'.Linking) (htaken : (s.goto (s.queue, p')).taken = s.taken)
    (hk : p'.Knows s.queue l) : Inv (s.goto (s.queue, p')) l where
  chain := h.chain.congr_owed (owed_goto hp hlink s.queue hlink')
  contents := by
    rw [htaken]
    exact h.contents
  nodup := h.nodup
  fresh := h.fresh
  point p'' hp' := by
    obtain rfl : p' = p'' := Option.some.inj hp'
    exact hk

theorem advance (h : Inv s l) {p p' : Pop E} (hp : s.pop = some p) (hlink : ¬ p.Linking)
    {next : Node E} (hnext : s.queue.mNext s.queue.mTail = some next) (hlink' : ¬ p'.Linking)
    (htaken : (s.goto ({ s.queue with mTail := next }, p')).taken =
      s.taken ++ [s.queue.mTail].filter (· ≠ .stub))
    (hk : s.queue.mTail ≠ next → p'.Knows { s.queue with mTail := next } l.tail) :
    Inv (s.goto ({ s.queue with mTail := next }, p')) l.tail := by
  obtain ⟨r, rfl, hchain⟩ := h.chain.pop hnext
  have hne : s.queue.mTail ≠ next := by
    intro he
    exact (List.nodup_cons.mp h.chain.nodup).1 (he ▸ hchain.first_mem)
  refine ⟨hchain.congr_owed (owed_goto hp hlink _ hlink'), ?_, h.nodup, h.fresh, fun p'' hp' => ?_⟩
  · have hc := h.contents
    rw [show s.queue.mTail :: r = [s.queue.mTail] ++ r from rfl, List.filter_append,
      ← List.append_assoc, ← htaken] at hc
    exact hc
  · obtain rfl : p' = p'' := Option.some.inj hp'
    exact hk hne

theorem singleton (h : Inv s l) (he : s.queue.mTail = s.queue.mHead) : l = [s.queue.mTail] := by
  refine h.chain.eq_singleton (he ▸ h.chain.open_last) fun b hb => ?_
  exact HalfLinked.adjacent_ne_last h.chain.nodup (h.chain.adjacent _ b hb)
    (he ▸ h.chain.getLast)

omit [DecidableEq E] in
theorem taken_eq {p : Pop E} (hp : s.pop = some p) (hdone : ∀ job, p ≠ .done job) :
    s.taken = s.returned := by
  unfold State.taken
  split
  · next job hj => exact absurd (Option.some.inj (hp.symm.trans hj)) (hdone job)
  · rfl

theorem run (h : Inv s l) {p : Pop E} (hp : s.pop = some p) (hdone : ∀ job, p ≠ .done job) :
    ∃ l', Inv (s.goto (p.step s.queue)) l' := by
  have hk := h.point p hp
  have htaken := taken_eq hp hdone
  have hcontents : s.returned ++ l.filter (· ≠ .stub) = s.pushed.map .entry :=
    htaken ▸ h.contents
  have hnone : s.returned ++ (none : Option (Node E)).toList = s.taken := by
    rw [htaken, Option.toList_none, List.append_nil]
  cases p with
  | start => exact ⟨l, h.look hp id id htaken.symm rfl⟩
  | loadNext tail =>
    obtain rfl : tail = s.queue.mTail := hk
    rw [Pop.step]
    split_ifs with hstub
    · cases hn : s.queue.mNext s.queue.mTail with
      | none => exact ⟨l, h.look hp id id hnone (by simp [Pop.Knows])⟩
      | some next => exact ⟨l, h.look hp id id htaken.symm ⟨hstub, hstub ▸ hn⟩⟩
    · cases hn : s.queue.mNext s.queue.mTail with
      | none => exact ⟨l, h.look hp id id htaken.symm ⟨rfl, hstub⟩⟩
      | some next => exact ⟨l, h.look hp id id htaken.symm ⟨rfl, hstub, hn⟩⟩
  | first next =>
    obtain ⟨htail, hn⟩ := hk
    refine ⟨l.tail, h.advance hp id (htail ▸ hn) id ?_ fun hne => ⟨rfl, ?_⟩⟩
    · rw [htail]
      exact htaken.symm.trans (by simp)
    · exact fun he => hne (htail.trans he.symm)
  | firstNext tail =>
    obtain ⟨rfl, hstub⟩ := hk
    rw [Pop.step]
    cases hn : s.queue.mNext s.queue.mTail with
    | none => exact ⟨l, h.look hp id id htaken.symm ⟨rfl, hstub⟩⟩
    | some next => exact ⟨l, h.look hp id id htaken.symm ⟨rfl, hstub, hn⟩⟩
  | take tail next =>
    obtain ⟨rfl, hstub, hn⟩ := hk
    refine ⟨l.tail, h.advance hp id hn id ?_ fun _ => ?_⟩
    · rw [htaken, List.filter_cons_of_pos (by simpa using hstub)]
      rfl
    · simpa [Pop.Knows] using hstub
  | loadHead tail =>
    obtain ⟨rfl, hstub⟩ := hk
    rw [Pop.step]
    split_ifs with hhead
    · exact ⟨l, h.look hp id id hnone (by simp [Pop.Knows])⟩
    · refine ⟨l, h.look hp id id htaken.symm ⟨rfl, hstub, ?_⟩⟩
      rw [h.singleton (not_not.mp hhead), List.mem_singleton]
      exact fun he => hstub he.symm
  | clear tail =>
    obtain ⟨rfl, hstub, hout⟩ := hk
    refine ⟨l, ?_, ?_, h.nodup, ?_, ?_⟩
    · exact (h.chain.store_outside hout none).congr_owed (owed_goto hp id _ id)
    · exact hcontents
    · intro e he
      exact (Queue.setNext_of_ne s.queue (by simp) none).trans (h.fresh e he)
    · intro p' hp'
      obtain rfl := Option.some.inj hp'
      exact ⟨rfl, hstub, hout, s.queue.setNext_self .stub none⟩
  | exchange tail =>
    obtain ⟨rfl, hstub, hout, hn⟩ := hk
    refine ⟨l ++ [.stub], ?_, ?_, h.nodup, h.fresh, ?_⟩
    · refine h.chain.push hout hn fun a b => ⟨?_, ?_⟩
      · rintro (hl | hl)
        · exact .inl (.push hl)
        · obtain ⟨rfl, rfl⟩ := Pop.link.inj (Option.some.inj hl)
          exact .inr ⟨rfl, rfl⟩
      · rintro ((hl | hl) | ⟨rfl, rfl⟩)
        · exact .push hl
        · exact absurd (hp.symm.trans hl) (by simp)
        · exact .stub rfl
    · rw [List.filter_append, List.filter_cons_of_neg (by simp), List.filter_nil, List.append_nil]
      exact hcontents
    · intro p' hp'
      obtain rfl := Option.some.inj hp'
      exact ⟨rfl, hstub⟩
  | link tail prevNode =>
    obtain ⟨rfl, hstub⟩ := hk
    have howed : Owed s prevNode .stub := .stub hp
    refine ⟨l, ?_, ?_, h.nodup, ?_, ?_⟩
    · refine h.chain.join howed fun a b => ⟨?_, ?_⟩
      · rintro (hl | hl)
        · refine ⟨.push hl, ?_⟩
          rintro rfl
          exact absurd (h.chain.owed_unique (.push hl) howed) (by simp)
        · exact absurd hl (by simp [State.goto, Pop.step])
      · rintro ⟨hl | hl, hne⟩
        · exact .push hl
        · obtain ⟨-, rfl⟩ := Pop.link.inj (Option.some.inj (hp.symm.trans hl))
          exact absurd rfl hne
    · exact hcontents
    · intro e he
      have hne : .entry e ≠ prevNode := by
        rintro rfl
        exact he (h.pushed_of_mem (h.chain.owed_mem howed).1)
      exact (s.queue.setNext_of_ne hne _).trans (h.fresh e he)
    · intro p' hp'
      obtain rfl := Option.some.inj hp'
      exact ⟨rfl, hstub⟩
  | reload tail =>
    obtain ⟨rfl, hstub⟩ := hk
    rw [Pop.step]
    cases hn : s.queue.mNext s.queue.mTail with
    | none => exact ⟨l, h.look hp id id hnone (by simp [Pop.Knows])⟩
    | some next => exact ⟨l, h.look hp id id htaken.symm ⟨rfl, hstub, hn⟩⟩
  | done job => exact absurd rfl (hdone job)

theorem call (h : Inv s l) (hp : s.pop = none) : Inv { s with pop := some .start } l where
  chain := by
    refine h.chain.congr_owed (owed_congr rfl (fun p hp' => ?_) fun p hp' => ?_)
    · exact absurd (hp.symm.trans hp') (by simp)
    · obtain rfl : .start = p := Option.some.inj hp'
      exact id
  contents := by
    have hc := h.contents
    rw [State.taken, hp] at hc
    exact hc
  nodup := h.nodup
  fresh := h.fresh
  point p hp' := by
    obtain rfl := Option.some.inj hp'
    trivial

theorem ret (h : Inv s l) {job : Option (Node E)} (hp : s.pop = some (.done job)) :
    Inv { s with pop := none, returned := s.returned ++ job.toList } l where
  chain := by
    refine h.chain.congr_owed (owed_congr rfl (fun p hp' => ?_) fun p hp' => ?_)
    · obtain rfl : .done job = p := Option.some.inj (hp.symm.trans hp')
      exact id
    · exact absurd hp' (by simp)
  contents := by
    have hc := h.contents
    rw [State.taken, hp] at hc
    exact hc
  nodup := h.nodup
  fresh := h.fresh
  point p hp' := absurd hp' (by simp)

theorem consume (h : Inv s l) : ∃ l', Inv s.consume l' := by
  cases hp : s.pop with
  | none =>
    rw [State.consume_call hp]
    exact ⟨l, h.call hp⟩
  | some p =>
    by_cases hdone : ∃ job, p = .done job
    · obtain ⟨job, rfl⟩ := hdone
      rw [State.consume_ret hp]
      exact ⟨l, h.ret hp⟩
    · rw [State.consume_run hp (not_exists.mp hdone)]
      exact h.run hp (not_exists.mp hdone)

theorem returned_sublist (h : Inv s l) : s.returned <+: s.pushed.map .entry := by
  rw [← h.contents]
  refine List.IsPrefix.trans ?_ (List.prefix_append _ _)
  unfold State.taken
  split
  · exact List.prefix_append _ _
  · exact List.prefix_refl _

theorem not_returned (h : Inv s l) {n : Node E} (hn : n ∈ l) : n ∉ s.returned := by
  intro hr
  have hmem := h.returned_sublist.subset hr
  obtain ⟨e, -, rfl⟩ := List.mem_map.mp hmem
  have hnodup : (s.taken ++ l.filter (· ≠ .stub)).Nodup := by
    rw [h.contents]
    exact h.nodup.map fun _ _ => Node.entry.inj
  have htaken : .entry e ∈ s.taken := by
    unfold State.taken
    split
    · exact List.mem_append_left _ hr
    · exact hr
  have hin : .entry e ∈ l.filter (· ≠ .stub) := List.mem_filter.mpr ⟨hn, by simp⟩
  exact (List.nodup_append.mp hnodup).2.2 _ htaken _ hin rfl

end Inv

theorem Reached.inv {s : State E} (h : Reached s) : ∃ l, Inv s l := by
  induction h with
  | init => exact ⟨_, .init⟩
  | produce _ hs ih =>
    obtain ⟨l, hl⟩ := ih
    cases hs with
    | exchange he => exact ⟨_, hl.exchange he⟩
    | store he => exact ⟨_, hl.store he⟩
  | consume _ ih =>
    obtain ⟨l, hl⟩ := ih
    exact hl.consume

/-- What `Pop` knows besides when no push is in progress. -/
def Pop.KnowsAlone (q : Queue E) : Pop E → Prop
  | loadHead tail => q.mNext tail = none
  | clear tail => tail = q.mHead
  | exchange tail => tail = q.mHead
  | link tail prevNode => tail = prevNode
  | reload tail => q.mNext tail ≠ none
  | done none => q.mTail = .stub ∧ q.mHead = .stub
  | _ => True

structure Alone (s : State E) : Prop where
  linking : ∀ e, s.linking e = none
  point : ∀ p, s.pop = some p → p.KnowsAlone s.queue

namespace Alone

variable {s : State E} {l : List (Node E)}

theorem last (h : Alone s) (hinv : Inv s l) {p : Pop E} (hp : s.pop = some p)
    (hlink : ¬ p.Linking) (hnone : s.queue.mNext s.queue.mTail = none) :
    s.queue.mTail = s.queue.mHead := by
  have hl := hinv.chain.eq_singleton hnone fun b hb => by
    rcases hb with hb | hb
    · exact absurd hb (by simp [h.linking])
    · obtain rfl := Option.some.inj (hp.symm.trans hb)
      exact hlink trivial
  have hlast := hinv.chain.getLast
  rw [hl] at hlast
  exact Option.some.inj hlast

theorem run (h : Alone s) (hinv : Inv s l) {p : Pop E} (hp : s.pop = some p) :
    (p.step s.queue).2.KnowsAlone (p.step s.queue).1 := by
  have hk := hinv.point p hp
  have ha := h.point p hp
  cases p with
  | loadNext tail =>
    obtain rfl : tail = s.queue.mTail := hk
    rw [Pop.step]
    split_ifs with hstub
    · cases hn : s.queue.mNext s.queue.mTail with
      | none => exact ⟨hstub, (h.last hinv hp id hn).symm.trans hstub⟩
      | some next => trivial
    · cases hn : s.queue.mNext s.queue.mTail with
      | none => exact hn
      | some next => trivial
  | firstNext tail =>
    rw [Pop.step]
    cases hn : s.queue.mNext tail with
    | none => exact hn
    | some next => trivial
  | loadHead tail =>
    obtain ⟨rfl, -⟩ := hk
    have hlast := h.last hinv hp id ha
    rw [Pop.step, if_neg (not_not.mpr hlast)]
    exact hlast
  | clear tail => exact ha
  | exchange tail => exact ha
  | link tail prevNode =>
    obtain rfl : tail = prevNode := ha
    have hset := s.queue.setNext_self tail (some .stub)
    exact fun hn => absurd (hset.symm.trans hn) (by simp)
  | reload tail =>
    rw [Pop.step]
    cases hn : s.queue.mNext tail with
    | none => exact absurd hn ha
    | some next => trivial
  | done job => exact ha
  | _ => trivial

theorem consume (h : Alone s) (hinv : Inv s l) : Alone s.consume := by
  cases hp : s.pop with
  | none =>
    rw [State.consume_call hp]
    refine ⟨h.linking, fun p' hp' => ?_⟩
    obtain rfl := Option.some.inj hp'
    trivial
  | some p =>
    by_cases hdone : ∃ job, p = .done job
    · obtain ⟨job, rfl⟩ := hdone
      rw [State.consume_ret hp]
      exact ⟨h.linking, fun p' hp' => absurd hp' (by simp)⟩
    · rw [State.consume_run hp (not_exists.mp hdone)]
      refine ⟨h.linking, fun p' hp' => ?_⟩
      obtain rfl := Option.some.inj hp'
      exact h.run hinv hp

theorem drained (h : Alone s) (hinv : Inv s l) (hp : s.pop = some (.done none)) :
    s.returned = s.pushed.map .entry := by
  obtain ⟨htail, hhead⟩ := h.point _ hp
  have hc := hinv.contents
  rw [hinv.singleton (htail.trans hhead.symm), htail, State.taken, hp] at hc
  simpa using hc

end Alone

theorem alone_run {s : State E} {l : List (Node E)} (hinv : Inv s l) (ha : Alone s) (n : ℕ) :
    Alone (State.consume^[n] s) ∧ ∃ l', Inv (State.consume^[n] s) l' := by
  induction n with
  | zero => exact ⟨ha, l, hinv⟩
  | succ n ih =>
    obtain ⟨ha, l', hinv⟩ := ih
    rw [Function.iterate_succ_apply']
    exact ⟨ha.consume hinv, hinv.consume⟩

/-- The calls of `Pop` return the entries in the order of the exchanges, each once
and never the stub; no push has a store left into what was returned; and calls with
no push in progress fail only when all is returned. -/
theorem pop_in_order {s : State E} (h : Reached s) :
    s.returned <+: s.pushed.map .entry ∧ s.returned.Nodup ∧ .stub ∉ s.returned ∧
      (∀ e prevNode, s.linking e = some prevNode → prevNode ∉ s.returned) ∧
      (s.pop = some .start → (∀ e, s.linking e = none) → ∀ n,
        (State.consume^[n] s).pop = some (.done none) →
          (State.consume^[n] s).returned = (State.consume^[n] s).pushed.map .entry) := by
  obtain ⟨l, hinv⟩ := h.inv
  have hnodup : (s.pushed.map Node.entry).Nodup := hinv.nodup.map fun _ _ => Node.entry.inj
  refine ⟨hinv.returned_sublist, hinv.returned_sublist.sublist.nodup hnodup, fun hmem => ?_,
    fun e prevNode he => ?_, fun hp hl n hnull => ?_⟩
  · have hin := hinv.returned_sublist.subset hmem
    simp at hin
  · exact hinv.not_returned (hinv.chain.owed_mem (.push he)).1
  · have ha : Alone s := by
      refine ⟨hl, fun p hp' => ?_⟩
      obtain rfl := Option.some.inj (hp.symm.trans hp')
      trivial
    obtain ⟨ha', l', hinv'⟩ := alone_run hinv ha n
    exact ha'.drained hinv' hnull

theorem Reached.iterate {s : State E} (h : Reached s) (n : ℕ) :
    Reached (State.consume^[n] s) := by
  induction n with
  | zero => exact h
  | succ n ih =>
    rw [Function.iterate_succ_apply']
    exact ih.consume

/-- One entry is popped while the push of the next has its link left to store. -/
def overlapped : State ℕ :=
  (State.consume^[13] ((init.exchange 7).store 7 .stub)).exchange 8

theorem overlapped_reached : Reached overlapped := by
  have h0 : Reached (init.exchange 7) := .produce .init (.exchange (by decide))
  have h1 : Reached ((init.exchange 7).store 7 .stub) := h0.produce (.store rfl)
  exact (h1.iterate 13).produce (.exchange (by decide))

theorem overlapped_in_order :
    overlapped.returned = [.entry 7] ∧ overlapped.returned <+: overlapped.pushed.map .entry :=
  ⟨by decide, (pop_in_order overlapped_reached).1⟩

end JobQueue

end GameLift
