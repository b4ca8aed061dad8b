import GameLift.SessionIo

/-! Receiving on the Windows server: the ring is touched by one thread at a time or filled
by the system, and what is read out of it is the stream that came in. -/

namespace GameLift

namespace CircularBuffer

theorem Inv.commit_settled {b : CircularBuffer} (h : b.Inv) (hb : b.prepare = b) {n : Nat}
    (hn : n ≤ b.freeSpace) :
    b.Appended (Region.slice b.mBuffer b.getBuffer n) (b.commit n) := by
  have hin := h.window_inside
  rw [hb] at hin
  have hlen : (Region.slice b.mBuffer b.getBuffer n).length = n :=
    Region.length_slice (by omega)
  obtain ⟨b', hplace, ha⟩ := h.place_prepare (Nat.le_of_eq hlen.symm) hn
  have htake : (Region.slice b.mBuffer b.getBuffer n).take n =
      Region.slice b.mBuffer b.getBuffer n := List.take_of_length_le (Nat.le_of_eq hlen)
  rw [hb, place, storeAt, if_pos ⟨Nat.le_of_eq hlen.symm, by omega⟩, htake,
    Region.store_slice (by omega)] at hplace
  cases hplace
  rwa [htake] at ha

theorem Inv.read_stream {b b' : CircularBuffer} (h : b.Inv) {n : Nat} {image : Option (List Byte)}
    (hread : b.read n = .ok (image, b')) :
    b'.Inv ∧ b'.mBuffer.length = b.mBuffer.length ∧
      image.getD [] ++ b'.contents = b.contents := by
  by_cases hle : n ≤ b.contents.length
  · obtain ⟨b₁, hb, hd⟩ := h.read_enough hle
    rw [hb, Except.ok.injEq, Prod.mk.injEq] at hread
    obtain ⟨rfl, rfl⟩ := hread
    refine ⟨hd.inv, hd.length_eq, ?_⟩
    rw [Option.getD_some, hd.contents_eq, List.take_append_drop]
  · rw [h.read_short (Nat.lt_of_not_le hle), Except.ok.injEq, Prod.mk.injEq] at hread
    obtain ⟨rfl, rfl⟩ := hread
    exact ⟨h, rfl, rfl⟩

/-- Bytes that come into the free room are no part of the contents yet. -/
structure Filled (b b' : CircularBuffer) : Prop where
  inv : b'.Inv
  contents_eq : b'.contents = b.contents
  length_eq : b'.mBuffer.length = b.mBuffer.length
  room : b'.getFreeSpaceSize.1 = b.getFreeSpaceSize.1
  settled : b'.prepare = b'
  buf : b'.getBuffer = b.getBuffer

theorem getFreeSpaceSize_cells (b : CircularBuffer) {m : List Byte}
    (hm : m.length = b.mBuffer.length) :
    ({ b with mBuffer := m } : CircularBuffer).getFreeSpaceSize =
      (b.freeSpace, { b.prepare with mBuffer := m }) := by
  have hA : ({ b with mBuffer := m } : CircularBuffer).getAFreeSpace = b.getAFreeSpace := by
    simp only [getAFreeSpace, mBufferEnd, hm]
  have hbefore : ({ b with mBuffer := m } : CircularBuffer).getSpaceBeforeA = b.getSpaceBeforeA :=
    rfl
  rw [getFreeSpaceSize, freeSpace, prepare, getFreeSpaceSize, hA, hbefore]
  split_ifs <;> rfl

theorem Inv.filled {b b' : CircularBuffer} (h : b.Inv) (hb : b.prepare = b) {p : Nat}
    {bytes : List Byte} (hp : b.getBuffer ≤ p) (hle : p + bytes.length ≤ b.getBuffer + b.freeSpace)
    (hs : b.storeAt p bytes bytes.length = .ok b') : Filled b b' := by
  have hin := h.window_inside
  rw [hb] at hin
  have hfit : p + bytes.length ≤ b.mBuffer.length := by omega
  have hlen := Region.length_store hfit
  rw [storeAt, if_pos ⟨Nat.le_refl _, hfit⟩, List.take_length, Except.ok.injEq] at hs
  subst hs
  have hfree := b.getFreeSpaceSize_cells hlen
  refine ⟨⟨hlen ▸ h.size_lt, hlen ▸ h.a_le, h.b_absent, ?_, h.a_empty⟩, ?_, hlen,
    ?_, ?_, rfl⟩
  · intro q hq
    simp only [hlen]
    exact h.b_start q hq
  · -- The window lies between region B and region A, or behind region A.
    rcases h.prepare_cases with ⟨-, hp', hf⟩ | ⟨he, hp', -⟩ | ⟨-, hp', -, -, -⟩
    · have hbuf : b.getBuffer = b.mBRegionSize := by simp only [getBuffer, hp', Nat.zero_add]
      have hroom := (h.b_start 0 hp').2.1
      simp only [contents, hp']
      rw [Region.slice_store_of_disjoint hfit (Or.inr (by omega)),
        Region.slice_store_of_disjoint hfit (Or.inl (by omega))]
    · rw [hb] at he
      rw [he] at hp'
      cases hp'
    · have hbuf : b.getBuffer = b.mARegionPointer + b.mARegionSize := by
        simp only [getBuffer, hp']
      simp only [contents, hp']
      rw [Region.slice_store_of_disjoint hfit (Or.inl (by omega))]
  · rw [hfree]
    rfl
  · rw [prepare, hfree, hb]

end CircularBuffer

namespace SessionIo

namespace Io

/-- The window of a receive is where the ring would put the next bytes. -/
structure Window (x : Io) (buf len : Nat) : Prop where
  settled : x.mRecvBuffer.prepare = x.mRecvBuffer
  buf_eq : buf = x.mRecvBuffer.getBuffer
  pos : 0 < len
  le : len ≤ x.mRecvBuffer.freeSpace

/-- The completed receive is the last thing that came in, and not committed yet. -/
structure Due (x : Io) (n : Nat) : Prop where
  settled : x.mRecvBuffer.prepare = x.mRecvBuffer
  le : n ≤ x.mRecvBuffer.freeSpace
  stream : x.consumed ++ (x.mRecvBuffer.contents ++
    Region.slice x.mRecvBuffer.mBuffer x.mRecvBuffer.getBuffer n) = x.received

def Fits (x : Io) : Instr → Prop
  | .postRecvRequest => 0 < x.mRecvBuffer.freeSpace
  | .recvCompletion n => x.Due n
  | _ => True

end Io

theorem fits_of_plain {x : Io} {i : Instr} (h : i ≠ .postRecvRequest)
    (hc : ∀ n, i ≠ .recvCompletion n) : x.Fits i := by
  cases i with
  | postRecvRequest => exact absurd rfl h
  | recvCompletion n => exact absurd rfl (hc n)
  | _ => trivial

theorem fits_of_not_chain {x : Io} {i : Instr} (h : i.chain = 0) : x.Fits i := by
  refine fits_of_plain ?_ ?_
  · rintro rfl
    cases h
  · rintro n rfl
    cases h

/-- The instruction that commits a receive: no other moves the stream. -/
def Instr.Commits (i : Instr) : Prop := ∃ n, i = recvCompletion n

inductive Effect (x : Io) : Instr → Io → List Instr → Prop where
  | calm {i x' push} : ¬i.Commits → x'.mRecvBuffer = x.mRecvBuffer →
      x'.consumed = x.consumed → x'.received = x.received →
      (∀ buf len, .recv buf len ∈ x'.outstanding → .recv buf len ∈ x.outstanding) →
      (∀ j ∈ push, j ≠ .postRecvRequest ∧ ¬j.Commits) → Effect x i x' push
  | room {push} : (.postRecvRequest ∈ push → 0 < x.mRecvBuffer.freeSpace) →
      (∀ j ∈ push, ¬j.Commits) → Effect x .postRecvRoom (x.setRecv x.mRecvBuffer.prepare) push
  | window : Effect x .postRecvRequest ((x.setRecv x.mRecvBuffer.prepare).request
      (.recv x.mRecvBuffer.prepare.getBuffer (x.mRecvBuffer.freeSpace % 0x100000000))) []
  | noWindow : Effect x .postRecvRequest (x.setRecv x.mRecvBuffer.prepare)
      [.disconnect (some .doIocpJob)]
  | commit {n} : Effect x (.recvCompletion n) (x.setRecv (x.mRecvBuffer.commit n)) [.onRead]
  | read {bytes image b} : x.mRecvBuffer.read bytes = .ok (image, b) →
      Effect x .onRead { x with mRecvBuffer := b, consumed := x.consumed ++ image.getD [] }
        [.onRead]

theorem run_effect {setup : Setup} {ok : Bool} {call : ReadCall} {x x' : Io} {i : Instr}
    {push : List Instr} (h : x.run setup ok call i = .ok (x', push)) : Effect x i x' push := by
  cases i with
  | postRecvRoom =>
    simp only [Io.run, pure_eq_ok, Except.ok.injEq, Prod.mk.injEq] at h
    obtain ⟨rfl, rfl⟩ := h
    refine .room (fun hm => ?_) ?_
    · by_contra hz
      have hzero : x.mRecvBuffer.getFreeSpaceSize.1 = 0 := Nat.eq_zero_of_not_pos hz
      rw [if_pos hzero] at hm
      simp at hm
    · split_ifs <;> simp [Instr.Commits]
  | postRecvRequest =>
    simp only [Io.run, pure_eq_ok] at h
    split_ifs at h <;>
      simp only [Except.ok.injEq, Prod.mk.injEq] at h <;>
      obtain ⟨rfl, rfl⟩ := h
    · exact .window
    · exact .noWindow
  | recvCompletion n =>
    simp only [Io.run, pure_eq_ok, Except.ok.injEq, Prod.mk.injEq] at h
    obtain ⟨rfl, rfl⟩ := h
    exact .commit
  | onRead =>
    rcases run_onRead h with ⟨rfl, hpush⟩ | ⟨bytes, image, b, hb, rfl, rfl⟩
    · refine .calm (by simp [Instr.Commits]) rfl rfl rfl (fun _ _ => id) ?_
      rcases hpush with rfl | rfl | rfl <;> simp [Instr.Commits]
    · exact .read hb
  | _ =>
    simp only [Io.run, pure_eq_ok] at h
    try split_ifs at h
    all_goals
      simp only [Except.ok.injEq, Prod.mk.injEq] at h
      obtain ⟨rfl, rfl⟩ := h
      refine .calm ?_ rfl rfl rfl ?_ ?_ <;> try split_ifs
    all_goals simp [Instr.Commits, Io.request]

theorem Io.Fits.congr {x x' : Io} {i : Instr} (h : x.Fits i)
    (hb : x'.mRecvBuffer = x.mRecvBuffer) (hc : x'.consumed = x.consumed)
    (hr : x'.received = x.received) : x'.Fits i := by
  cases i with
  | postRecvRequest =>
    have hpos : 0 < x.mRecvBuffer.freeSpace := h
    rwa [← hb] at hpos
  | recvCompletion n =>
    have hdue : x.Due n := h
    exact ⟨hb ▸ hdue.settled, hb ▸ hdue.le, hb ▸ hc ▸ hr ▸ hdue.stream⟩
  | _ => trivial

theorem Io.Window.congr {x x' : Io} {buf len : Nat} (h : x.Window buf len)
    (hb : x'.mRecvBuffer = x.mRecvBuffer) : x'.Window buf len :=
  ⟨hb ▸ h.settled, hb ▸ h.buf_eq, h.pos, hb ▸ h.le⟩

theorem Instr.chain_of_commits {i : Instr} (h : i.Commits) : i.chain = 1 := by
  obtain ⟨n, rfl⟩ := h
  rfl

section Runs
variable [Fintype T] [DecidableEq T]

theorem Chained.alone {s : State T} (h : Chained s) {t : T} {i : Instr} {rest : List Instr}
    (hs : s.stack t = i :: rest) (hi : i.chain = 1) :
    (∀ c ∈ s.shared.outstanding, c.receives = false) ∧
      ∀ x push u j, j ∈ (s.move t x (push ++ rest)).stack u → j ∈ push ∨ j.chain = 0 := by
  have hsingle := h.single
  have hle : i.chain ≤ Threads.total Instr.chain s.stack :=
    Threads.le_total Instr.chain (hs ▸ List.mem_cons_self)
  have hnone : s.shared.receiving = 0 := by omega
  refine ⟨fun c hc => ?_, fun x push u j => Threads.mem_push_or_eq_zero hs (by omega)⟩
  simpa using List.countP_eq_zero.mp hnone c hc

omit [DecidableEq T] in
theorem Chained.quiet {s : State T} (h : Chained s) {c : Context} (hc : c ∈ s.shared.outstanding)
    (hr : c.receives = true) : (∀ u, ∀ j ∈ s.stack u, j.chain = 0) ∧
      ∀ c' ∈ s.shared.outstanding.erase c, c'.receives = false := by
  have hsingle := h.single
  have hone := Io.receiving_complete hc
  rw [hr, Bool.toNat_true] at hone
  refine ⟨fun u j hj => ?_, fun c' hc' => ?_⟩
  · have hle := Threads.le_total Instr.chain hj
    omega
  · have hnone : (s.shared.complete c).receiving = 0 := by omega
    simpa using List.countP_eq_zero.mp hnone c' hc'

/-- What the ring and the stream are like, wherever the threads stand. -/
structure Piped (s : State T) : Prop where
  ring : s.shared.mRecvBuffer.Inv
  size : s.shared.mRecvBuffer.mBuffer.length = clientBufsize
  fits : ∀ t, ∀ i ∈ s.stack t, s.shared.Fits i
  window : ∀ buf len, .recv buf len ∈ s.shared.outstanding → s.shared.Window buf len
  stream : (∀ t, ∀ i ∈ s.stack t, ¬i.Commits) →
    s.shared.consumed ++ s.shared.mRecvBuffer.contents = s.shared.received

omit [Fintype T] [DecidableEq T] in
theorem piped_new {block : Block} (hsize : block.cells.length = clientBufsize) :
    Piped (⟨.new block, fun _ => []⟩ : State T) where
  ring := CircularBuffer.inv_new block
  size := hsize
  fits _ _ hi := nomatch hi
  window _ _ hm := nomatch hm
  stream _ := CircularBuffer.contents_new block

omit [Fintype T] in
theorem Piped.keep {s : State T} (h : Piped s) {t : T} {x : Io} {stack : List Instr}
    (hb : x.mRecvBuffer = s.shared.mRecvBuffer) (hc : x.consumed = s.shared.consumed)
    (hr : x.received = s.shared.received)
    (ho : ∀ buf len, .recv buf len ∈ x.outstanding → .recv buf len ∈ s.shared.outstanding)
    (hfits : ∀ i ∈ stack, s.shared.Fits i)
    (hcommits : (∀ u, ∀ i ∈ (s.move t x stack).stack u, ¬i.Commits) →
      ∀ u, ∀ i ∈ s.stack u, ¬i.Commits) : Piped (s.move t x stack) where
  ring := hb ▸ h.ring
  size := hb ▸ h.size
  fits u i hi := by
    have hold : s.shared.Fits i := (Threads.mem_push_or_mem hi).elim (hfits i) (h.fits u i)
    exact hold.congr hb hc hr
  window buf len hm := (h.window buf len (ho buf len hm)).congr hb
  stream hno := by
    have hold := h.stream (hcommits hno)
    rw [Threads.State.move_shared, hb, hc, hr]
    exact hold

theorem Piped.own {s : State T} (h : Chained s) {t : T} {i : Instr} {rest push : List Instr}
    {x : Io} (hs : s.stack t = i :: rest) (hi : i.chain = 1) (hring : x.mRecvBuffer.Inv)
    (hsize : x.mRecvBuffer.mBuffer.length = clientBufsize) (hpush : ∀ j ∈ push, x.Fits j)
    (hwindow : ∀ buf len, .recv buf len ∈ x.outstanding →
      .recv buf len ∈ s.shared.outstanding ∨ x.Window buf len)
    (hstream : (∀ u, ∀ j ∈ (s.move t x (push ++ rest)).stack u, ¬j.Commits) →
      x.consumed ++ x.mRecvBuffer.contents = x.received) : Piped (s.move t x (push ++ rest)) := by
  obtain ⟨hnone, halone⟩ := h.alone hs hi
  refine ⟨hring, hsize, fun u j hj => ?_, fun buf len hm => ?_, hstream⟩
  · exact (halone x push u j hj).elim (hpush j) fits_of_not_chain
  · exact (hwindow buf len hm).resolve_left fun hold => nomatch hnone _ hold

theorem Piped.exec {s : State T} (h : Piped s) (hch : Chained s) {t : T} {i : Instr}
    {rest push : List Instr} {x : Io} (hs : s.stack t = i :: rest)
    (he : Effect s.shared i x push) : Piped (s.move t x (push ++ rest)) := by
  have hfits : s.shared.Fits i := h.fits t i (by rw [hs]; exact List.mem_cons_self)
  have hbefore : ¬i.Commits →
      (∀ u, ∀ j ∈ (s.move t x (push ++ rest)).stack u, ¬j.Commits) →
        s.shared.consumed ++ s.shared.mRecvBuffer.contents = s.shared.received :=
    fun hi hno => h.stream (Threads.forall_of_exec hs hi hno)
  have ha := h.ring.appended_prepare
  have hprepared : ¬i.Commits →
      (∀ u, ∀ j ∈ (s.move t x (push ++ rest)).stack u, ¬j.Commits) →
        s.shared.consumed ++ s.shared.mRecvBuffer.prepare.contents = s.shared.received := by
    intro hi hno
    rw [ha.contents_eq, List.append_nil]
    exact hbefore hi hno
  have hsame := s.shared.mRecvBuffer.getFreeSpaceSize_prepare
  cases he with
  | calm hi hb hc hr ho hpush =>
    refine h.keep hb hc hr ho (fun j hj => ?_) (Threads.forall_of_exec hs hi)
    rcases List.mem_append.mp hj with hp | hrest
    · exact fits_of_plain (hpush j hp).1 fun n hn => (hpush j hp).2 ⟨n, hn⟩
    · exact h.fits t j (hs ▸ List.mem_cons_of_mem _ hrest)
  | room hroom hpush =>
    refine .own hch hs rfl ha.inv (ha.length_eq.trans h.size) (fun j hp => ?_)
      (fun _ _ => Or.inl) (hprepared (by simp [Instr.Commits]))
    by_cases hreq : j = .postRecvRequest
    · subst hreq
      exact Nat.lt_of_lt_of_eq (hroom hp) (congrArg Prod.fst hsame).symm
    · exact fits_of_plain hreq fun n hn => hpush j hp ⟨n, hn⟩
  | window =>
    have hpos : 0 < s.shared.mRecvBuffer.freeSpace := hfits
    have hle := h.ring.freeSpace_le
    rw [h.size, clientBufsize] at hle
    have hcast : s.shared.mRecvBuffer.freeSpace % 0x100000000 = s.shared.mRecvBuffer.freeSpace :=
      Nat.mod_eq_of_lt (by omega)
    refine .own hch hs rfl ha.inv (ha.length_eq.trans h.size) (fun j hj => by cases hj)
      (fun buf len hm => ?_) (hprepared (by simp [Instr.Commits]))
    rcases List.mem_cons.mp hm with he | hold
    · cases he
      rw [hcast]
      exact Or.inr ⟨congrArg Prod.snd hsame, rfl, hpos,
        Nat.le_of_eq (congrArg Prod.fst hsame).symm⟩
    · exact Or.inl hold
  | noWindow =>
    refine .own hch hs rfl ha.inv (ha.length_eq.trans h.size) (fun j hp => ?_)
      (fun _ _ => Or.inl) (hprepared (by simp [Instr.Commits]))
    rw [List.mem_singleton.mp hp]
    trivial
  | @commit n =>
    have hdue : s.shared.Due n := hfits
    have hcommit := h.ring.commit_settled hdue.settled hdue.le
    refine .own hch hs rfl hcommit.inv (hcommit.length_eq.trans h.size) (fun j hp => ?_)
      (fun _ _ => Or.inl) fun _ => ?_
    · rw [List.mem_singleton.mp hp]
      trivial
    · change s.shared.consumed ++ (s.shared.mRecvBuffer.commit n).contents = s.shared.received
      rw [hcommit.contents_eq]
      exact hdue.stream
  | @read bytes image b hread =>
    obtain ⟨hinv, hlen, hstream⟩ := h.ring.read_stream hread
    refine .own hch hs rfl hinv (hlen.trans h.size) (fun j hp => ?_) (fun _ _ => Or.inl)
      fun hno => ?_
    · rw [List.mem_singleton.mp hp]
      trivial
    · have hold := hbefore (by simp [Instr.Commits]) hno
      simp only [List.append_assoc, hstream]
      exact hold

theorem Piped.start {s : State T} (h : Piped s) (hch : Chained s) {t : T} {push : List Instr}
    {x : Io} (hs : s.stack t = []) (hb : Begin s.shared x push) : Piped (s.move t x push) := by
  have hcommits : (∀ u, ∀ j ∈ (s.move t x push).stack u, ¬j.Commits) →
      ∀ u, ∀ j ∈ s.stack u, ¬j.Commits := Threads.forall_of_start hs
  have hcomplete : ∀ c buf len, .recv buf len ∈ (s.shared.complete c).outstanding →
      .recv buf len ∈ s.shared.outstanding := fun c _ _ => List.mem_of_mem_erase
  cases hb with
  | @recv buf len n hm hpos hle =>
    obtain ⟨hquiet, hnone⟩ := hch.quiet hm rfl
    have hw := h.window buf len hm
    have hold := h.stream fun u j hj hc => by
      have hone := Instr.chain_of_commits hc
      rw [hquiet u j hj] at hone
      cases hone
    refine ⟨h.ring, h.size, fun u j hj => ?_, fun buf' len' hm' => ?_, fun hno => ?_⟩
    · rcases Threads.mem_push_or_mem hj with hp | hmem
      · rcases List.mem_cons.mp hp with rfl | hdelete
        · refine ⟨hw.settled, hle.trans hw.le, ?_⟩
          change s.shared.consumed ++ (s.shared.mRecvBuffer.contents ++ _) =
            s.shared.received ++ Region.slice s.shared.mRecvBuffer.mBuffer buf n
          rw [hw.buf_eq, ← List.append_assoc, hold]
          rfl
        · rw [List.mem_singleton.mp hdelete]
          trivial
      · exact fits_of_not_chain (hquiet u j hmem)
    · have hfalse := hnone _ hm'
      cases hfalse
    · refine absurd ⟨n, rfl⟩ (hno t (.recvCompletion n) ?_)
      rw [Threads.State.move_stack_self]
      exact List.mem_cons_self
  | @fill buf len p bytes b hm hp hle hstore =>
    obtain ⟨hquiet, -⟩ := hch.quiet hm rfl
    have hw := h.window buf len hm
    have hf := h.ring.filled hw.settled (hw.buf_eq ▸ hp) (by
      have hroom := hw.le
      rw [← hw.buf_eq]
      omega) hstore
    refine ⟨hf.inv, hf.length_eq.trans h.size, fun u j hj => ?_, fun buf' len' hm' => ?_,
      fun hno => ?_⟩
    · rcases Threads.mem_push_or_mem hj with hp | hmem
      · cases hp
      · exact fits_of_not_chain (hquiet u j hmem)
    · have hw' := h.window buf' len' hm'
      exact ⟨hf.settled, hw'.buf_eq.trans hf.buf.symm, hw'.pos,
        Nat.le_trans hw'.le (Nat.le_of_eq hf.room.symm)⟩
    · change s.shared.consumed ++ b.contents = s.shared.received
      rw [hf.contents_eq]
      exact h.stream (hcommits hno)
  | _ =>
    refine h.keep rfl rfl rfl ?_ ?_ hcommits
    · first
        | exact fun _ _ => id
        | exact hcomplete _
    · simp [Io.Fits]

theorem Piped.step {setup : Setup} {s s' : State T} {t : T} (h : Piped s) (hch : Chained s)
    (hstep : Threads.Step (machine setup) s t s') : Piped s' := by
  cases hstep with
  | start hs hbegin => exact h.start hch hs hbegin
  | exec hs hrun =>
    obtain ⟨ok, call, hrun⟩ := hrun
    exact h.exec hch hs (run_effect hrun)

theorem Reached.piped {setup : Setup} {block : Block} (hsize : block.cells.length = clientBufsize)
    {s : State T} (h : Reached setup block s) : Piped s := by
  have hboth : Chained s ∧ Piped s :=
    Threads.Reachable.invariant (I := fun s => Chained s ∧ Piped s)
      (fun _ hx => hx ▸ ⟨chained_new block, piped_new hsize⟩)
      (fun _ _ _ hi hs _ => ⟨hi.1.step hs, hi.2.step hi.1 hs⟩) h
  exact hboth.2

omit [Fintype T] [DecidableEq T] in
theorem Piped.run_ok {s : State T} (h : Piped s) (setup : Setup) (ok : Bool) (call : ReadCall)
    (i : Instr) : ∃ r, s.shared.run setup ok call i = .ok r := by
  cases i with
  | onRead =>
    cases call with
    | read bytes =>
      by_cases hle : bytes ≤ s.shared.mRecvBuffer.contents.length
      · obtain ⟨b, hb, -⟩ := h.ring.read_enough hle
        exact ⟨_, by rw [Io.run, hb]; rfl⟩
      · exact ⟨_, by rw [Io.run, h.ring.read_short (Nat.lt_of_not_le hle)]; rfl⟩
    | _ => exact ⟨_, rfl⟩
  | preRecvRequest _ | postRecvRequest | flushSend | disconnect _ =>
    simp only [Io.run]
    split_ifs <;> exact ⟨_, rfl⟩
  | _ => exact ⟨_, rfl⟩

/-- In every state of every run: no instruction faults; at most one receive is out, and
exactly one while the session is connected, `OnConnect` has returned and no completion is
being processed; its window is not empty, lies in the block and holds no stored byte; and
when no completed receive is still to be committed, what was read followed by what the
ring holds is the stream that came in. -/
theorem receive_pipeline (setup : Setup) (block : Block)
    (hsize : block.cells.length = clientBufsize) (s : State T) (h : Reached setup block s) :
    (∀ ok call i, ∃ r, s.shared.run setup ok call i = .ok r) ∧
    s.shared.receiving ≤ 1 ∧
    (s.shared.mConnected = true →
      (∀ t, ∀ i ∈ s.stack t, ¬i.Connecting ∧ i ≠ .deleteIoContext) → s.shared.receiving = 1) ∧
    (∀ buf len, .recv buf len ∈ s.shared.outstanding →
      0 < len ∧ buf + len ≤ s.shared.mRecvBuffer.mBuffer.length ∧
        ∀ i, buf ≤ i → i < buf + len → ¬s.shared.mRecvBuffer.Stored i) ∧
    ((∀ t, ∀ i ∈ s.stack t, ¬i.Commits) →
      s.shared.consumed ++ s.shared.mRecvBuffer.contents = s.shared.received) := by
  have hch := h.chained
  have hp := h.piped hsize
  refine ⟨hp.run_ok setup, ?_, hch.receiving_eq, fun buf len hm => ?_, hp.stream⟩
  · have hsingle := hch.single
    omega
  · obtain ⟨hsettled, rfl, hpos, hle⟩ := hp.window buf len hm
    have hin := hp.ring.window_inside
    rw [hsettled] at hin
    refine ⟨hpos, by omega, fun i hi hlt => ?_⟩
    exact hp.ring.window_unused (hsettled.symm ▸ hi) (by rw [hsettled]; omega)

end Runs

theorem Solo.posts {setup : Setup} {block : Block} {x : Io} {rest : List Instr}
    (h : Solo setup block x (.postRecvRoom :: rest)) (hroom : 0 < x.mRecvBuffer.freeSpace) :
    Solo setup block ((x.setRecv x.mRecvBuffer.prepare).request
      (.recv x.mRecvBuffer.prepare.getBuffer (x.mRecvBuffer.freeSpace % 0x100000000))) rest := by
  have hopen : x.run setup true .done .postRecvRoom =
      .ok (x.setRecv x.mRecvBuffer.prepare, [.postRecvRequest]) := by
    have hne : x.mRecvBuffer.getFreeSpaceSize.1 ≠ 0 := Nat.pos_iff_ne_zero.mp hroom
    rw [Io.run]
    dsimp only
    rw [if_neg hne]
    rfl
  have hsame := x.mRecvBuffer.getFreeSpaceSize_prepare
  have hrequest : (x.setRecv x.mRecvBuffer.prepare).run setup true .done .postRecvRequest =
      .ok ((x.setRecv x.mRecvBuffer.prepare).request
        (.recv x.mRecvBuffer.prepare.getBuffer (x.mRecvBuffer.freeSpace % 0x100000000)), []) := by
    rw [Io.run, Io.setRecv]
    dsimp only
    rw [hsame]
    rfl
  exact (h.exec true .done hopen).exec true .done hrequest

theorem exists_received {block : Block} (hsize : block.cells.length = clientBufsize) :
    ∃ s : State Unit, Reached ⟨true, true⟩ block s ∧ s.shared.received.length = 1 ∧
      ∀ t, ∀ i ∈ s.stack t, ¬i.Commits := by
  have hnew := CircularBuffer.inv_new block
  have hroom := hnew.room_at_start rfl
  rw [CircularBuffer.contents_new, List.length_nil, Nat.add_zero] at hroom
  have hfree : (CircularBuffer.new block).freeSpace = 65536 := hroom.trans hsize
  have hout := (solo_connected block).exec true .done rfl
  have hzero := ((hout.exec true .done rfl).begin (.recvZero List.mem_cons_self)).exec true .done rfl
  have hpost := Solo.posts hzero (Nat.lt_of_lt_of_eq (by decide) hfree.symm)
  have hwait := hpost.exec true .done rfl
  have hone : 1 ≤ (CircularBuffer.new block).freeSpace % 0x100000000 := by
    rw [hfree]
    decide
  have hcame := hwait.begin (.recv (n := 1) List.mem_cons_self (by decide) hone)
  refine ⟨_, hcame.exec true .done rfl, ?_, fun _ i hi => ?_⟩
  · have hin := hnew.window_inside
    have hlen := hnew.appended_prepare.length_eq
    have hbyte : (Region.slice (CircularBuffer.new block).prepare.mBuffer
        (CircularBuffer.new block).prepare.getBuffer 1).length = 1 :=
      Region.length_slice (by omega)
    exact hbyte
  · rcases List.mem_cons.mp hi with rfl | hi
    · rintro ⟨n, hn⟩
      cases hn
    · rw [List.mem_singleton.mp hi]
      rintro ⟨n, hn⟩
      cases hn

theorem receive_pipeline_commits :
    ∃ s : State Unit, Reached ⟨true, true⟩ clientBlock s ∧ s.shared.received.length = 1 ∧
      s.shared.receiving ≤ 1 ∧
      s.shared.consumed ++ s.shared.mRecvBuffer.contents = s.shared.received := by
  have hsize : clientBlock.cells.length = clientBufsize := List.length_replicate ..
  obtain ⟨s, hs, hlen, hdone⟩ := exists_received hsize
  obtain ⟨-, hone, -, -, hstream⟩ := receive_pipeline ⟨true, true⟩ clientBlock hsize s hs
  exact ⟨s, hs, hlen, hone, hstream hdone⟩

end SessionIo

end GameLift
