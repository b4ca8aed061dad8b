import GameLift.SessionIo

/-! How often an accepted socket is closed. Closing is left to whoever takes `mConnected`
down, so a socket whose session was never connected stays open. -/

namespace GameLift

namespace SessionIo

variable {T : Type}

def Setup.connects (setup : Setup) : Bool := setup.receiveBuffer && setup.completionPort

/-- The instructions that will come to `setConnected`. -/
def Instr.promise (setup : Setup) : Instr → ℕ
  | setReceiveBuffer => setup.connects.toNat
  | createIoCompletionPort => setup.completionPort.toNat
  | setConnected => 1
  | _ => 0

def Instr.leaving : Instr → ℕ
  | onDisconnect => 1
  | _ => 0

def Instr.closing : Instr → ℕ
  | closesocket => 1
  | _ => 0

/-- What is still to come of `OnConnect` before `accept`. -/
def Io.owed (setup : Setup) (x : Io) : ℕ := if x.accepted then 0 else setup.connects.toNat

/-- `connects` counts the openings, and each is matched by a flag that is up, or by an
`OnDisconnect` and a `closesocket`, run or about to be. -/
structure Counted [Fintype T] (setup : Setup) (s : State T) : Prop where
  connects : s.shared.connects + Threads.total (Instr.promise setup) s.stack +
    s.shared.owed setup = setup.connects.toNat
  leaves : s.shared.onDisconnects + Threads.total Instr.leaving s.stack +
    s.shared.mConnected.toNat = s.shared.connects
  closes : s.shared.closes + Threads.total Instr.closing s.stack +
    s.shared.mConnected.toNat = s.shared.connects

structure Counts (setup : Setup) (x : Io) (i : Instr) (x' : Io) (push : List Instr) : Prop where
  accepted : x'.accepted = x.accepted
  connects : x'.connects + (push.map (Instr.promise setup)).sum = x.connects + i.promise setup
  leaves : x'.onDisconnects + (push.map Instr.leaving).sum + x'.mConnected.toNat + x.connects =
    x.onDisconnects + i.leaving + x.mConnected.toNat + x'.connects
  closes : x'.closes + (push.map Instr.closing).sum + x'.mConnected.toNat + x.connects =
    x.closes + i.closing + x.mConnected.toNat + x'.connects

theorem run_counts {setup : Setup} {ok : Bool} {call : ReadCall} {x x' : Io} {i : Instr}
    {push : List Instr} (h : x.run setup ok call i = .ok (x', push))
    (hfirst : i = .setConnected → x.mConnected = false) : Counts setup x i x' push := by
  cases i with
  | onRead =>
    rcases run_onRead h with ⟨rfl, rfl | rfl | rfl⟩ | ⟨_, _, _, -, rfl, rfl⟩ <;>
      exact ⟨rfl, rfl, rfl, rfl⟩
  | setConnected =>
    simp only [Io.run, pure_eq_ok, Except.ok.injEq, Prod.mk.injEq] at h
    obtain ⟨rfl, rfl⟩ := h
    have hoff := hfirst rfl
    refine ⟨rfl, rfl, ?_, ?_⟩ <;>
      simp only [Instr.leaving, Instr.closing, hoff, List.map_cons, List.map_nil, List.sum_cons,
        List.sum_nil, Bool.toNat_true, Bool.toNat_false] <;>
      omega
  | setReceiveBuffer =>
    simp only [Io.run, pure_eq_ok, Except.ok.injEq, Prod.mk.injEq] at h
    obtain ⟨rfl, rfl⟩ := h
    refine ⟨rfl, ?_, ?_, ?_⟩ <;> cases hr : setup.receiveBuffer <;>
      simp [Instr.promise, Instr.leaving, Instr.closing, Setup.connects, hr]
  | createIoCompletionPort =>
    simp only [Io.run, pure_eq_ok, Except.ok.injEq, Prod.mk.injEq] at h
    obtain ⟨rfl, rfl⟩ := h
    refine ⟨rfl, ?_, ?_, ?_⟩ <;> cases hp : setup.completionPort <;>
      simp [Instr.promise, Instr.leaving, Instr.closing, hp]
  | _ =>
    simp only [Io.run, pure_eq_ok] at h
    try split_ifs at h
    all_goals
      simp only [Except.ok.injEq, Prod.mk.injEq] at h
      obtain ⟨rfl, rfl⟩ := h
      refine ⟨rfl, ?_, ?_, ?_⟩ <;> try split_ifs
    all_goals
      simp [Instr.promise, Instr.leaving, Instr.closing, Io.request, Io.setRecv, *]

theorem Begin.counts (setup : Setup) {x x' : Io} {push : List Instr} (h : Begin x x' push) :
    x'.connects = x.connects ∧ x'.mConnected = x.mConnected ∧
      x'.onDisconnects = x.onDisconnects ∧ x'.closes = x.closes ∧
      (push.map (Instr.promise setup)).sum + x'.owed setup = x.owed setup ∧
      (push.map Instr.leaving).sum = 0 ∧ (push.map Instr.closing).sum = 0 := by
  cases h with
  | accept hacc =>
    refine ⟨rfl, rfl, rfl, rfl, ?_, rfl, rfl⟩
    simp [Instr.promise, Io.owed, hacc]
  | _ => refine ⟨rfl, rfl, rfl, rfl, ?_, rfl, rfl⟩; exact Nat.zero_add _

section Runs
variable [Fintype T] [DecidableEq T]

omit [DecidableEq T] in
theorem counted_new (setup : Setup) (block : Block) :
    Counted setup (⟨.new block, fun _ => []⟩ : State T) where
  connects := by simp [Threads.total_idle, Io.owed, Io.new]
  leaves := by simp [Threads.total_idle, Io.new]
  closes := by simp [Threads.total_idle, Io.new]

theorem Counted.step {setup : Setup} {s s' : State T} {t : T} (h : Counted setup s)
    (hstep : Threads.Step (machine setup) s t s') : Counted setup s' := by
  have hconn := h.connects
  have hleave := h.leaves
  have hclose := h.closes
  cases hstep with
  | @start x push hs hbegin =>
    obtain ⟨h1, h2, h3, h4, h5, h6, h7⟩ := Begin.counts setup hbegin
    have hp := Threads.total_start (Instr.promise setup) hs x push
    have hl := Threads.total_start Instr.leaving hs x push
    have hc := Threads.total_start Instr.closing hs x push
    refine ⟨?_, ?_, ?_⟩
    · rw [hp, Threads.State.move_shared, h1]
      omega
    · rw [hl, Threads.State.move_shared, h1, h2, h3, h6]
      omega
    · rw [hc, Threads.State.move_shared, h1, h2, h4, h7]
      omega
  | @exec i rest x push hs hrun =>
    obtain ⟨ok, call, hrun⟩ := hrun
    have hle : i.promise setup ≤ Threads.total (Instr.promise setup) s.stack :=
      Threads.le_total (Instr.promise setup) (hs ▸ List.mem_cons_self)
    -- The flag goes up once: no opening has been counted before.
    have hfirst : i = .setConnected → s.shared.mConnected = false := by
      rintro rfl
      have hbit := Bool.toNat_le setup.connects
      have hone : Instr.promise setup .setConnected = 1 := rfl
      cases hm : s.shared.mConnected with
      | false => rfl
      | true =>
        rw [hm, Bool.toNat_true] at hclose
        omega
    obtain ⟨hacc, h1, h2, h3⟩ := run_counts hrun hfirst
    have howed : x.owed setup = s.shared.owed setup := by rw [Io.owed, hacc, Io.owed]
    have hp := Threads.total_exec (Instr.promise setup) hs x push
    have hl := Threads.total_exec Instr.leaving hs x push
    have hc := Threads.total_exec Instr.closing hs x push
    refine ⟨?_, ?_, ?_⟩
    · rw [Threads.State.move_shared, howed]
      omega
    · rw [Threads.State.move_shared]
      omega
    · rw [Threads.State.move_shared]
      omega

theorem Reached.counted {setup : Setup} {block : Block} {s : State T}
    (h : Reached setup block s) : Counted setup s :=
  Threads.Reachable.invariant (fun _ hx => hx ▸ counted_new setup block)
    (fun _ _ _ hi hs _ => hi.step hs) h

/-- Nothing is left that could use the session: no thread works on it, and no request
of it is out. -/
structure Released (s : State T) : Prop where
  idle : ∀ t, s.stack t = []
  outstanding : s.shared.outstanding = []

/-- An accepted socket has been closed once when its session is released, and its
`OnDisconnect` run at most once, exactly if the receive buffer could be set and the socket
associated with the completion port. -/
theorem closesocket_once_iff (setup : Setup) (block : Block) (s : State T)
    (h : Reached setup block s) (hacc : s.shared.accepted = true) (hrel : Released s) :
    s.shared.closes = 1 ∧ s.shared.onDisconnects ≤ 1 ↔
      setup.receiveBuffer = true ∧ setup.completionPort = true := by
  have hch := h.chained
  obtain ⟨hconn, hleave, hclose⟩ := h.counted
  have hidle : s.stack = fun _ => [] := funext hrel.idle
  have hout : s.shared.receiving = 0 := by rw [Io.receiving, hrel.outstanding]; rfl
  have hoff : s.shared.mConnected = false := by
    cases hm : s.shared.mConnected with
    | false => rfl
    | true =>
      have hlive := hch.live hm
      rw [hidle, Threads.total_idle, hout] at hlive
      cases hlive
  rw [hidle, Threads.total_idle, Io.owed, if_pos hacc] at hconn
  rw [hidle, Threads.total_idle, hoff, Bool.toNat_false] at hleave hclose
  rw [← Bool.and_eq_true, ← Setup.connects]
  cases hc : setup.connects with
  | false =>
    rw [hc, Bool.toNat_false] at hconn
    simp only [Bool.false_eq_true, iff_false, not_and]
    omega
  | true =>
    rw [hc, Bool.toNat_true] at hconn
    simp only [iff_true]
    omega

end Runs

theorem solo_refused (block : Block) : Solo ⟨true, true⟩ block
    { Io.connected block with mConnected := false, onDisconnects := 1, closes := 1 } [] := by
  have hfail := (solo_connected block).exec false .done rfl
  have hdown := hfail.exec true .done rfl
  have hleft := hdown.exec true .done rfl
  have hclosed := hleft.exec true .done rfl
  exact hclosed.exec true .done rfl

theorem closesocket_once_refused :
    ∃ s : State Unit, Reached ⟨true, true⟩ clientBlock s ∧ s.shared.closes = 1 ∧
      s.shared.onDisconnects ≤ 1 := by
  have hrun := solo_refused clientBlock
  have hiff := closesocket_once_iff ⟨true, true⟩ clientBlock _ hrun rfl ⟨fun _ => rfl, rfl⟩
  exact ⟨_, hrun, hiff.mpr ⟨rfl, rfl⟩⟩

/-- The receive buffer of an accepted socket cannot be set: `Disconnect` finds the session
not connected and returns, and nothing is left that could close the socket. -/
theorem closesocket_never :
    ∃ s : State Unit, Reached ⟨false, true⟩ clientBlock s ∧ s.shared.accepted = true ∧
      Released s ∧ s.shared.closes = 0 := by
  have hfail := (solo_accept ⟨false, true⟩ clientBlock).exec true .done rfl
  have hdisconnect := hfail.exec true .done rfl
  have hdropped := hdisconnect.exec true .done rfl
  exact ⟨_, hdropped, rfl, ⟨fun _ => rfl, rfl⟩, rfl⟩

end SessionIo

end GameLift
