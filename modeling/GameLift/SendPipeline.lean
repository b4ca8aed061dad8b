import Mathlib.Data.List.Infix
import GameLift.BufferQueue

/-! Sending on the Windows server: PostSend, FlushSend and SendCompletion of
Session.cpp, and every interleaving of them. `WSASend` is handed a window into
the live ring, which other threads go on writing to. -/

namespace GameLift

def clientBufsize : Nat := 65536

def clientBlock : Block :=
  ⟨List.replicate clientBufsize 0, (List.length_replicate ..).trans_lt (by decide)⟩

structure Session where
  mConnected : Bool
  mSendBuffer : CircularBuffer
  mSendPendingCount : Int
deriving DecidableEq

/-- The window in `mWsaBuf`; `bytes` is what it held when `WSASend` took it. -/
structure SendContext where
  buf : Option Nat
  len : Nat
  bytes : List Byte
deriving DecidableEq, Repr

namespace Session

/-- Where `PostSend` returns, after its connection check. -/
inductive Posted where
  | refused
  | queued
  | sent (context : SendContext)
  | failed
deriving DecidableEq, Repr

def Posted.answer : Posted → Bool
  | .refused => false
  | .queued => true
  | .sent _ => true
  | .failed => false

def disconnect (s : Session) : Session := { s with mConnected := false }

/-- `posted` tells whether `WSASend` went through. -/
def flushSend (posted : Bool) (s : Session) : Except Fault (Option SendContext × Session) :=
  if posted then do
    let buf := s.mSendBuffer.getBufferStart
    -- `GetContiguiousBytes` is cast to `ULONG`.
    let len := s.mSendBuffer.getContiguiousBytes % 0x100000000
    let bytes ← s.mSendBuffer.loadAt buf len
    let s := { s with mSendPendingCount := s.mSendPendingCount + 1 }
    if s.mSendPendingCount = 1 then return (some ⟨buf, len, bytes⟩, s) else .error .crashAssert
  else return (none, s.disconnect)

/-- The part of `PostSend` under `mSendBufferLock`. -/
def postSend (posted : Bool) (data : List Byte) (s : Session) :
    Except Fault (Posted × Session) := do
  let (ok, b) ← s.mSendBuffer.write data data.length
  let s := { s with mSendBuffer := b }
  if ok then
    if 0 < s.mSendPendingCount then return (.queued, s)
    else do
      let (context, s) ← s.flushSend posted
      return ((context.map Posted.sent).getD .failed, s)
  else return (.refused, s)

def sendCompletion (posted : Bool) (transferred : Nat) (s : Session) :
    Except Fault (Option SendContext × Session) :=
  if 0 < s.mSendPendingCount then do
    let b ← s.mSendBuffer.remove transferred
    let s := { s with mSendBuffer := b, mSendPendingCount := s.mSendPendingCount - 1 }
    if s.mSendPendingCount = 0 then
      if 0 < s.mSendBuffer.getContiguiousBytes then s.flushSend posted else return (none, s)
    else .error .crashAssert
  else .error .crashAssert

end Session

/-- A session, the threads waiting for its lock with their data, the sends not
yet completed, the data of the successful writes, and what the peer was sent. -/
structure Pipeline where
  session : Session
  waiting : List (List Byte)
  outstanding : List SendContext
  written : List (List Byte)
  transmitted : List Byte

namespace Pipeline

def check (data : List Byte) (p : Pipeline) : Pipeline :=
  if p.session.mConnected then { p with waiting := data :: p.waiting } else p

def post (posted : Bool) (data : List Byte) (p : Pipeline) : Except Fault Pipeline := do
  let (r, s) ← p.session.postSend posted data
  return { p with
    session := s
    waiting := p.waiting.erase data
    written := if r = .refused then p.written else p.written ++ [data]
    outstanding := match r with
      | .sent context => context :: p.outstanding
      | _ => p.outstanding }

/-- The transport reads the window out of the live ring. -/
def complete (posted : Bool) (context : SendContext) (transferred : Nat) (p : Pipeline) :
    Except Fault Pipeline := do
  let taken ← p.session.mSendBuffer.loadAt context.buf transferred
  let (next, s) ← p.session.sendCompletion posted transferred
  return { p with
    session := s
    outstanding := next.toList ++ p.outstanding.erase context
    transmitted := p.transmitted ++ taken }

/-- A completion with an error, or with no bytes: `DoIocpJob` only disconnects.
Part of the window may have gone out. -/
def fail (context : SendContext) (transferred : Nat) (p : Pipeline) : Except Fault Pipeline := do
  let taken ← p.session.mSendBuffer.loadAt context.buf transferred
  return { p with
    session := p.session.disconnect
    outstanding := p.outstanding.erase context
    transmitted := p.transmitted ++ taken }

def disconnect (p : Pipeline) : Pipeline := { p with session := p.session.disconnect }

inductive Step (p : Pipeline) : Except Fault Pipeline → Prop where
  | check {data} : data ≠ [] → Step p (.ok (p.check data))
  | post {posted data} : data ∈ p.waiting → Step p (p.post posted data)
  | complete {posted context n} : context ∈ p.outstanding → 0 < n → n ≤ context.len →
      Step p (p.complete posted context n)
  | fail {context n} : context ∈ p.outstanding → n ≤ context.len → Step p (p.fail context n)
  | disconnect : Step p (.ok p.disconnect)

def fresh (block : Block) : Pipeline :=
  ⟨⟨true, .new block, 0⟩, [], [], [], []⟩

inductive Reachable (block : Block) : Pipeline → Prop where
  | fresh : Reachable block (fresh block)
  | step {p p'} : Reachable block p → p.Step (.ok p') → Reachable block p'

/-- No send is out, and nothing waits to be sent while connected. -/
structure Resting (p : Pipeline) : Prop where
  outstanding : p.outstanding = []
  pending : p.session.mSendPendingCount = 0
  empty : p.session.mConnected = true → p.session.mSendBuffer.contents = []
  bytes : p.transmitted ++ p.session.mSendBuffer.contents = p.written.flatten

/-- One send is out, on a window at the front of region A. -/
structure Busy (context : SendContext) (p : Pipeline) : Prop where
  outstanding : p.outstanding = [context]
  pending : p.session.mSendPendingCount = 1
  buf : context.buf = some p.session.mSendBuffer.mARegionPointer
  len : context.len ≤ p.session.mSendBuffer.mARegionSize
  kept : Region.slice p.session.mSendBuffer.mBuffer p.session.mSendBuffer.mARegionPointer
    context.len = context.bytes
  bytes : p.transmitted ++ p.session.mSendBuffer.contents = p.written.flatten

/-- A send failed: the count stays up and nothing is sent any more. -/
structure Dead (p : Pipeline) : Prop where
  outstanding : p.outstanding = []
  pending : p.session.mSendPendingCount = 1
  connected : p.session.mConnected = false
  bytes : p.transmitted <+: p.written.flatten

structure Inv (p : Pipeline) : Prop where
  buffer : p.session.mSendBuffer.Inv
  size : p.session.mSendBuffer.mBuffer.length = clientBufsize
  waiting : ∀ data ∈ p.waiting, data ≠ []
  mode : p.Resting ∨ (∃ context, p.Busy context) ∨ p.Dead

theorem window_kept {b b' : CircularBuffer} {data : List Byte} (ha : b.Appended data b') {n : Nat}
    (hn : n ≤ b.mARegionSize) :
    Region.slice b'.mBuffer b'.mARegionPointer n = Region.slice b.mBuffer b.mARegionPointer n := by
  apply List.ext_getElem?
  intro i
  rw [Region.getElem?_slice, Region.getElem?_slice, ha.front.1]
  by_cases hi : i < n
  · rw [if_pos hi, if_pos hi]
    exact (ha.kept _ (Or.inl ⟨by omega, by omega⟩)).1
  · rw [if_neg hi, if_neg hi]

theorem Busy.grow {context : SendContext} {p p' : Pipeline} {data : List Byte}
    (h : Busy context p)
    (ha : p.session.mSendBuffer.Appended data p'.session.mSendBuffer)
    (ho : p'.outstanding = p.outstanding)
    (hc : p'.session.mSendPendingCount = p.session.mSendPendingCount)
    (ht : p'.transmitted = p.transmitted)
    (hw : p'.written.flatten = p.written.flatten ++ data) : Busy context p' where
  outstanding := ho.trans h.outstanding
  pending := hc.trans h.pending
  buf := by rw [ha.front.1, h.buf]
  len := h.len.trans ha.front.2
  kept := (window_kept ha h.len).trans h.kept
  bytes := by rw [ht, ha.contents_eq, hw, ← h.bytes, List.append_assoc]

theorem Dead.grow {p p' : Pipeline} {data : List Byte} (h : Dead p)
    (ho : p'.outstanding = p.outstanding)
    (hc : p'.session.mSendPendingCount = p.session.mSendPendingCount)
    (hd : p'.session.mConnected = p.session.mConnected)
    (ht : p'.transmitted = p.transmitted)
    (hw : p'.written.flatten = p.written.flatten ++ data) : Dead p' where
  outstanding := ho.trans h.outstanding
  pending := hc.trans h.pending
  connected := hd.trans h.connected
  bytes := by
    rw [ht, hw]
    exact h.bytes.trans (List.prefix_append ..)

theorem flushSend_cases {s : Session} (h : s.mSendBuffer.Inv)
    (hsize : s.mSendBuffer.mBuffer.length = clientBufsize) (hc : s.mSendPendingCount = 0)
    (hne : s.mSendBuffer.contents ≠ []) (posted : Bool) :
    (∃ context, s.flushSend posted = .ok (some context, { s with mSendPendingCount := 1 }) ∧
      context.buf = some s.mSendBuffer.mARegionPointer ∧
      context.len = s.mSendBuffer.mARegionSize ∧
      Region.slice s.mSendBuffer.mBuffer s.mSendBuffer.mARegionPointer context.len =
        context.bytes) ∨
    posted = false ∧ s.flushSend posted = .ok (none, s.disconnect) := by
  obtain ⟨hext, -, hpos⟩ := h.extent
  have hend := h.a_le
  have hstart := h.getBufferStart_eq (hpos hne)
  have hcast : s.mSendBuffer.getContiguiousBytes % 0x100000000 = s.mSendBuffer.mARegionSize := by
    rw [hext, Nat.mod_eq_of_lt]
    simp only [clientBufsize] at hsize
    omega
  cases posted with
  | false => exact Or.inr ⟨rfl, rfl⟩
  | true =>
    refine Or.inl ⟨⟨some s.mSendBuffer.mARegionPointer, s.mSendBuffer.mARegionSize,
      Region.slice s.mSendBuffer.mBuffer s.mSendBuffer.mARegionPointer
        s.mSendBuffer.mARegionSize⟩, ?_, rfl, rfl, rfl⟩
    simp only [Session.flushSend, if_true, hstart, hcast, CircularBuffer.loadAt,
      CircularBuffer.load, if_pos hend, ok_bind, hc, Int.zero_add, pure_eq_ok]

theorem Inv.launch {p' : Pipeline} {s : Session} {r : Option SendContext} {posted : Bool}
    (h : s.mSendBuffer.Inv) (hsize : s.mSendBuffer.mBuffer.length = clientBufsize)
    (hc : s.mSendPendingCount = 0) (hne : s.mSendBuffer.contents ≠ [])
    (hw : ∀ data ∈ p'.waiting, data ≠ [])
    (hb : p'.transmitted ++ s.mSendBuffer.contents = p'.written.flatten)
    (hf : s.flushSend posted = .ok (r, p'.session)) (ho : p'.outstanding = r.toList) :
    p'.Inv := by
  rcases flushSend_cases h hsize hc hne posted with ⟨context, he, hbuf, hlen, hkept⟩ | ⟨-, he⟩ <;>
    rw [he, Except.ok.injEq, Prod.mk.injEq] at hf <;>
    obtain ⟨rfl, hs⟩ := hf
  · refine ⟨hs ▸ h, hs ▸ hsize, hw, Or.inr (Or.inl ⟨context, ho, hs ▸ rfl, hs ▸ hbuf, ?_, ?_, ?_⟩)⟩
    · exact hs ▸ Nat.le_of_eq hlen
    · exact hs ▸ hkept
    · exact hs ▸ hb
  · refine ⟨hs ▸ h, hs ▸ hsize, hw, Or.inl ⟨ho, hs ▸ hc, ?_, ?_⟩⟩
    · intro hconn
      rw [← hs] at hconn
      cases hconn
    · exact hs ▸ hb

theorem Inv.post {p : Pipeline} (h : p.Inv) {data : List Byte} (hd : data ∈ p.waiting)
    (posted : Bool) : ∃ p', p.post posted data = .ok p' ∧ p'.Inv := by
  have hwait : ∀ d ∈ p.waiting.erase data, d ≠ [] := fun d hm =>
    h.waiting d (List.mem_of_mem_erase hm)
  by_cases hfree : p.session.mSendBuffer.freeSpace < data.length
  · have ha := h.buffer.appended_prepare
    refine ⟨{ p with
      session := { p.session with mSendBuffer := p.session.mSendBuffer.prepare }
      waiting := p.waiting.erase data }, ?_, ha.inv, ha.length_eq.trans h.size, hwait, ?_⟩
    · simp only [Pipeline.post, Session.postSend, h.buffer.write_refused data hfree, ok_bind,
        pure_eq_ok, Bool.false_eq_true, if_false, if_true]
    · rcases h.mode with hr | ⟨context, hb⟩ | hdead
      · refine Or.inl ⟨hr.outstanding, hr.pending, fun hc => ?_, ?_⟩
        · rw [ha.contents_eq, hr.empty hc, List.append_nil]
        · rw [ha.contents_eq, List.append_nil, hr.bytes]
      · exact Or.inr (Or.inl ⟨context, hb.grow ha rfl rfl rfl (List.append_nil _).symm⟩)
      · exact Or.inr (Or.inr ⟨hdead.outstanding, hdead.pending, hdead.connected, hdead.bytes⟩)
  · obtain ⟨b, hw, ha⟩ := h.buffer.write_accepted (Nat.le_refl data.length)
      (Nat.le_of_not_lt hfree)
    rw [List.take_length] at ha
    have hflat : (p.written ++ [data]).flatten = p.written.flatten ++ data := by simp
    by_cases hpend : 0 < p.session.mSendPendingCount
    · refine ⟨{ p with
        session := { p.session with mSendBuffer := b }
        waiting := p.waiting.erase data
        written := p.written ++ [data] }, ?_, ha.inv, ha.length_eq.trans h.size, hwait, ?_⟩
      · simp only [Pipeline.post, Session.postSend, hw, ok_bind, pure_eq_ok, if_true, if_pos hpend,
          reduceCtorEq, if_false]
      · rcases h.mode with hr | ⟨context, hb⟩ | hdead
        · have hz := hr.pending
          omega
        · exact Or.inr (Or.inl ⟨context, hb.grow ha rfl rfl rfl hflat⟩)
        · exact Or.inr (Or.inr (hdead.grow rfl rfl rfl rfl hflat))
    · obtain ⟨ho, hc, hb⟩ : p.outstanding = [] ∧ p.session.mSendPendingCount = 0 ∧
          p.transmitted ++ p.session.mSendBuffer.contents = p.written.flatten := by
        rcases h.mode with hr | ⟨context, hb⟩ | hdead
        · exact ⟨hr.outstanding, hr.pending, hr.bytes⟩
        · exact absurd hb.pending (by omega)
        · exact absurd hdead.pending (by omega)
      let s : Session := { p.session with mSendBuffer := b }
      have hne : s.mSendBuffer.contents ≠ [] := by
        change b.contents ≠ []
        rw [ha.contents_eq]
        exact fun he => h.waiting data hd (List.append_eq_nil_iff.mp he).2
      obtain ⟨r, s', hf⟩ : ∃ r s', s.flushSend posted = .ok (r, s') := by
        rcases flushSend_cases (s := s) ha.inv (ha.length_eq.trans h.size) hc hne posted with
          ⟨context, he, -⟩ | ⟨-, he⟩
        · exact ⟨_, _, he⟩
        · exact ⟨_, _, he⟩
      refine ⟨{ p with
        session := s'
        waiting := p.waiting.erase data
        written := p.written ++ [data]
        outstanding := r.toList }, ?_, Inv.launch (s := s) ha.inv (ha.length_eq.trans h.size) hc hne
          hwait ?_ hf rfl⟩
      · simp only [Pipeline.post, Session.postSend, hw, ok_bind, pure_eq_ok, if_true, if_neg hpend]
        rw [hf]
        cases r <;> simp [ok_bind, ho]
      · change p.transmitted ++ b.contents = (p.written ++ [data]).flatten
        rw [ha.contents_eq, hflat, ← hb, List.append_assoc]

theorem Busy.load {context : SendContext} {p : Pipeline} (h : Busy context p)
    (hi : p.session.mSendBuffer.Inv) {n : Nat} (hn : n ≤ context.len) :
    p.session.mSendBuffer.loadAt context.buf n = .ok (p.session.mSendBuffer.contents.take n) := by
  have hend := hi.a_le
  have hlen := h.len
  have hl : (Region.slice p.session.mSendBuffer.mBuffer p.session.mSendBuffer.mARegionPointer
      p.session.mSendBuffer.mARegionSize).length = p.session.mSendBuffer.mARegionSize :=
    Region.length_slice hend
  rw [h.buf, CircularBuffer.loadAt, CircularBuffer.load, if_pos (by omega),
    CircularBuffer.contents, List.take_append_of_le_length (by omega),
    Region.take_slice _ _ _ _ (by omega)]

theorem Inv.busy {p : Pipeline} (h : p.Inv) {context : SendContext}
    (hm : context ∈ p.outstanding) : Busy context p := by
  rcases h.mode with hr | ⟨c, hb⟩ | hd
  · rw [hr.outstanding] at hm
    cases hm
  · rw [hb.outstanding, List.mem_singleton] at hm
    exact hm ▸ hb
  · rw [hd.outstanding] at hm
    cases hm

theorem Inv.complete {p : Pipeline} (h : p.Inv) {context : SendContext}
    (hm : context ∈ p.outstanding) {n : Nat} (hn : n ≤ context.len) (posted : Bool) :
    ∃ p', p.complete posted context n = .ok p' ∧ p'.Inv := by
  have hb := h.busy hm
  have hload := hb.load h.buffer hn
  have hle : n ≤ p.session.mSendBuffer.contents.length := by
    have hlen := hb.len
    have hsum := h.buffer.length_contents
    omega
  obtain ⟨b, hr, hd⟩ := h.buffer.remove_eq n
  rw [Nat.min_eq_left hle] at hd
  have hsize := hd.length_eq.trans h.size
  have hbytes : (p.transmitted ++ p.session.mSendBuffer.contents.take n) ++ b.contents =
      p.written.flatten := by
    rw [hd.contents_eq, List.append_assoc, List.take_append_drop, hb.bytes]
  let s : Session := { p.session with mSendBuffer := b, mSendPendingCount := 0 }
  have hcount : p.session.mSendPendingCount - 1 = 0 := by rw [hb.pending]; rfl
  have hpos : 0 < p.session.mSendPendingCount := by rw [hb.pending]; decide
  by_cases hmore : 0 < b.getContiguiousBytes
  · have hne : s.mSendBuffer.contents ≠ [] := by
      intro hnil
      have hle' := hd.inv.extent.2.1
      change b.contents = [] at hnil
      rw [hnil, List.length_nil] at hle'
      omega
    obtain ⟨r, s', hf⟩ : ∃ r s', s.flushSend posted = .ok (r, s') := by
      rcases flushSend_cases (s := s) hd.inv hsize rfl hne posted with ⟨context, he, -⟩ | ⟨-, he⟩
      · exact ⟨_, _, he⟩
      · exact ⟨_, _, he⟩
    refine ⟨{ p with
      session := s'
      outstanding := r.toList
      transmitted := p.transmitted ++ p.session.mSendBuffer.contents.take n }, ?_,
      Inv.launch (s := s) hd.inv hsize rfl hne h.waiting hbytes hf rfl⟩
    simp only [Pipeline.complete, hload, Session.sendCompletion, if_pos hpos, hr, ok_bind, hcount,
      if_true, if_pos hmore, pure_eq_ok]
    rw [hf]
    simp [ok_bind, hb.outstanding]
  · have hempty : b.contents = [] := by
      by_contra hne
      exact hmore (hd.inv.extent.2.2 hne)
    refine ⟨{ p with
      session := s
      outstanding := []
      transmitted := p.transmitted ++ p.session.mSendBuffer.contents.take n }, ?_, hd.inv, hsize,
      h.waiting, Or.inl ⟨rfl, rfl, fun _ => hempty, hbytes⟩⟩
    simp only [Pipeline.complete, hload, Session.sendCompletion, if_pos hpos, hr, ok_bind, hcount,
      if_true, if_neg hmore, pure_eq_ok]
    simp [hb.outstanding, s]

theorem Inv.fail {p : Pipeline} (h : p.Inv) {context : SendContext}
    (hm : context ∈ p.outstanding) {n : Nat} (hn : n ≤ context.len) :
    ∃ p', p.fail context n = .ok p' ∧ p'.Inv := by
  have hb := h.busy hm
  refine ⟨{ p with
    session := p.session.disconnect
    outstanding := p.outstanding.erase context
    transmitted := p.transmitted ++ p.session.mSendBuffer.contents.take n }, ?_, h.buffer,
    h.size, h.waiting, Or.inr (Or.inr ⟨?_, hb.pending, rfl, ?_⟩)⟩
  · simp only [Pipeline.fail, hb.load h.buffer hn, ok_bind, pure_eq_ok]
  · simp [hb.outstanding]
  · refine ⟨p.session.mSendBuffer.contents.drop n, ?_⟩
    rw [List.append_assoc, List.take_append_drop, hb.bytes]

theorem Inv.disconnect {p : Pipeline} (h : p.Inv) : p.disconnect.Inv := by
  refine ⟨h.buffer, h.size, h.waiting, ?_⟩
  rcases h.mode with hr | ⟨context, hb⟩ | hd
  · exact Or.inl ⟨hr.outstanding, hr.pending, nofun, hr.bytes⟩
  · exact Or.inr (Or.inl ⟨context, hb.outstanding, hb.pending, hb.buf, hb.len, hb.kept, hb.bytes⟩)
  · exact Or.inr (Or.inr ⟨hd.outstanding, hd.pending, rfl, hd.bytes⟩)

theorem Inv.check {p : Pipeline} (h : p.Inv) {data : List Byte} (hd : data ≠ []) :
    (p.check data).Inv := by
  rw [Pipeline.check]
  split_ifs
  · refine ⟨h.buffer, h.size, List.forall_mem_cons.mpr ⟨hd, h.waiting⟩, ?_⟩
    rcases h.mode with hr | ⟨context, hb⟩ | hdead
    · exact Or.inl ⟨hr.outstanding, hr.pending, hr.empty, hr.bytes⟩
    · exact Or.inr (Or.inl ⟨context, hb.outstanding, hb.pending, hb.buf, hb.len, hb.kept, hb.bytes⟩)
    · exact Or.inr (Or.inr ⟨hdead.outstanding, hdead.pending, hdead.connected, hdead.bytes⟩)
  · exact h

theorem Inv.step {p : Pipeline} (h : p.Inv) {r : Except Fault Pipeline} (hs : p.Step r) :
    ∃ p', r = .ok p' ∧ p'.Inv := by
  cases hs with
  | check hd => exact ⟨_, rfl, h.check hd⟩
  | post hd => exact h.post hd _
  | complete hm _ hn => exact h.complete hm hn _
  | fail hm hn => exact h.fail hm hn
  | disconnect => exact ⟨_, rfl, h.disconnect⟩

theorem Reachable.inv {block : Block} (hsize : block.cells.length = clientBufsize) {p : Pipeline}
    (h : Reachable block p) : p.Inv := by
  induction h with
  | fresh =>
    refine ⟨CircularBuffer.inv_new block, hsize, by simp [Pipeline.fresh], Or.inl ⟨rfl, rfl, ?_, ?_⟩⟩
    · exact fun _ => CircularBuffer.contents_new block
    · simp [Pipeline.fresh]
  | step _ hs ih =>
    obtain ⟨p', he, hi⟩ := ih.step hs
    cases he
    exact hi

/-- One byte is accepted, and its `WSASend` starts. -/
theorem posted_one :
    ∃ (b : CircularBuffer) (context : SendContext), b.Inv ∧ b.contents = [7] ∧
      1 ≤ context.len ∧ ((fresh clientBlock).check [7]).post true [7] =
        .ok ⟨⟨true, b, 1⟩, [], [context], [[7]], []⟩ := by
  have hsize : clientBlock.cells.length = clientBufsize := List.length_replicate ..
  have hnew := CircularBuffer.inv_new clientBlock
  have hshort : 1 ≤ [(7 : Byte)].length := Nat.le_refl 1
  have hroom : 1 ≤ (CircularBuffer.new clientBlock).freeSpace := by
    have hhalf := hnew.length_le_freeSpace
    change clientBlock.cells.length ≤ _ at hhalf
    rw [CircularBuffer.contents_new, hsize, clientBufsize, List.length_nil] at hhalf
    omega
  obtain ⟨b, hw, ha⟩ := hnew.write_accepted hshort hroom
  have hb : b.contents = [7] := by
    rw [ha.contents_eq, CircularBuffer.contents_new]
    rfl
  obtain ⟨context, hflush, -, hlen, -⟩ | ⟨hfalse, -⟩ := flushSend_cases (s := ⟨true, b, 0⟩) ha.inv
    (ha.length_eq.trans hsize) rfl (by simp [hb]) true
  · refine ⟨b, context, ha.inv, hb, ?_, ?_⟩
    · obtain ⟨hext, -, hstored⟩ := ha.inv.extent
      rw [hlen, ← hext]
      exact hstored (by simp [hb])
    · have hsend : Session.postSend true [7] ⟨true, .new clientBlock, 0⟩ =
          .ok (.sent context, ⟨true, b, 1⟩) := by
        simp only [Session.postSend, List.length_singleton, hw, ok_bind, if_true,
          if_neg (Int.lt_irrefl 0), hflush, pure_eq_ok]
        rfl
      change (Session.postSend true [7] ⟨true, .new clientBlock, 0⟩ >>= _) = _
      rw [hsend]
      rfl
  · cases hfalse

/-- The completion of that send finds nothing more to send. -/
theorem completed_one {b : CircularBuffer} {context : SendContext} (h : b.Inv)
    (hb : b.contents = [7]) (hload : b.loadAt context.buf 1 = .ok (b.contents.take 1)) :
    ∃ c : CircularBuffer,
      Pipeline.complete true context 1 ⟨⟨true, b, 1⟩, [], [context], [[7]], []⟩ =
        .ok ⟨⟨true, c, 0⟩, [], [], [[7]], [7]⟩ := by
  obtain ⟨c, hr, hd⟩ := h.remove_eq 1
  have hempty : c.contents = [] := by
    rw [hd.contents_eq, hb]
    rfl
  have hdone : Session.sendCompletion true 1 ⟨true, b, 1⟩ = .ok (none, ⟨true, c, 0⟩) := by
    have hnothing : ¬0 < c.getContiguiousBytes := by
      have hle := hd.inv.extent.2.1
      rw [hempty, List.length_nil] at hle
      omega
    simp only [Session.sendCompletion, if_pos Int.one_pos, hr, ok_bind, Int.sub_self, if_true,
      if_neg hnothing, pure_eq_ok]
  refine ⟨c, ?_⟩
  simp only [Pipeline.complete, hload, hb, hdone, ok_bind, pure_eq_ok]
  simp

/-- In every state of every interleaving: at most one send is out and the count
says so; no step fails an assertion; the window of the send that is out has not
moved or changed; nothing written is stranded; what went out, with any part of
the window, is a prefix of what was written, and while the session is connected the rest of
it is in the buffer. -/
theorem pipeline_safe (block : Block) (hsize : block.cells.length = clientBufsize) (p : Pipeline)
    (h : Reachable block p) :
    (p.outstanding.length ≤ 1 ∧
      (p.session.mSendPendingCount = 0 ∨ p.session.mSendPendingCount = 1) ∧
      (p.session.mConnected = true → p.session.mSendPendingCount = p.outstanding.length) ∧
      ∀ r, p.Step r → ∃ p', r = .ok p') ∧
    (∀ context ∈ p.outstanding, context.buf = some p.session.mSendBuffer.mARegionPointer ∧
      context.len ≤ p.session.mSendBuffer.mARegionSize ∧
      Region.slice p.session.mSendBuffer.mBuffer p.session.mSendBuffer.mARegionPointer
        context.len = context.bytes) ∧
    (p.session.mConnected = true → p.session.mSendPendingCount = 0 →
      p.session.mSendBuffer.contents = []) ∧
    (p.transmitted <+: p.written.flatten ∧
      (∀ context ∈ p.outstanding, ∀ n ≤ context.len,
        p.transmitted ++ context.bytes.take n <+: p.written.flatten) ∧
      (p.session.mConnected = true →
        p.transmitted ++ p.session.mSendBuffer.contents = p.written.flatten)) := by
  have hi := h.inv hsize
  have hsafe : ∀ r, p.Step r → ∃ p', r = .ok p' := by
    intro r hr
    obtain ⟨p', he, -⟩ := hi.step hr
    exact ⟨p', he⟩
  refine ⟨⟨?_, ?_, ?_, hsafe⟩, ?_, ?_, ?_, ?_, ?_⟩
  · rcases hi.mode with hr | ⟨context, hb⟩ | hd
    · simp [hr.outstanding]
    · simp [hb.outstanding]
    · simp [hd.outstanding]
  · rcases hi.mode with hr | ⟨context, hb⟩ | hd
    · exact Or.inl hr.pending
    · exact Or.inr hb.pending
    · exact Or.inr hd.pending
  · intro hc
    rcases hi.mode with hr | ⟨context, hb⟩ | hd
    · simp [hr.outstanding, hr.pending]
    · simp [hb.outstanding, hb.pending]
    · simp [hd.connected] at hc
  · intro context hm
    have hb := hi.busy hm
    exact ⟨hb.buf, hb.len, hb.kept⟩
  · intro hc hz
    rcases hi.mode with hr | ⟨context, hb⟩ | hd
    · exact hr.empty hc
    · exact absurd hb.pending (by omega)
    · simp [hd.connected] at hc
  · rcases hi.mode with hr | ⟨context, hb⟩ | hd
    · exact ⟨_, hr.bytes⟩
    · exact ⟨_, hb.bytes⟩
    · exact hd.bytes
  · intro context hm n hn
    have hb := hi.busy hm
    have htake : context.bytes.take n = p.session.mSendBuffer.contents.take n := by
      have hl : n ≤ (Region.slice p.session.mSendBuffer.mBuffer
          p.session.mSendBuffer.mARegionPointer p.session.mSendBuffer.mARegionSize).length := by
        rw [Region.length_slice hi.buffer.a_le]
        exact hn.trans hb.len
      rw [← hb.kept, Region.take_slice _ _ _ _ hn, CircularBuffer.contents,
        List.take_append_of_le_length hl, Region.take_slice _ _ _ _ (hn.trans hb.len)]
    refine ⟨p.session.mSendBuffer.contents.drop n, ?_⟩
    rw [htake, List.append_assoc, List.take_append_drop, hb.bytes]
  · intro hc
    rcases hi.mode with hr | ⟨context, hb⟩ | hd
    · exact hr.bytes
    · exact hb.bytes
    · simp [hd.connected] at hc

/-- One byte is posted, and its send completes. -/
theorem pipeline_safe_sent :
    ∃ p context q, ((fresh clientBlock).check [7]).post true [7] = .ok p ∧
      context ∈ p.outstanding ∧ p.complete true context 1 = .ok q ∧ q.transmitted = [7] ∧
      (∀ r, q.Step r → ∃ q', r = .ok q') ∧
      q.transmitted ++ q.session.mSendBuffer.contents = [7] := by
  have hsize : clientBlock.cells.length = clientBufsize := List.length_replicate ..
  have hchecked : Reachable clientBlock ((fresh clientBlock).check [7]) :=
    Reachable.fresh.step (.check (by decide))
  have hmem : [7] ∈ ((fresh clientBlock).check [7]).waiting := List.mem_cons_self ..
  obtain ⟨b, context, hinv, hb, hpos, hpost⟩ := posted_one
  have hposted : Reachable clientBlock ⟨⟨true, b, 1⟩, [], [context], [[7]], []⟩ :=
    hchecked.step (hpost ▸ .post hmem)
  have hin : context ∈ [context] := List.mem_singleton_self context
  have hload := ((hposted.inv hsize).busy hin).load hinv hpos
  obtain ⟨c, hcomplete⟩ := completed_one hinv hb hload
  have hcompleted : Reachable clientBlock ⟨⟨true, c, 0⟩, [], [], [[7]], [7]⟩ :=
    hposted.step (hcomplete ▸ .complete hin Nat.one_pos hpos)
  obtain ⟨⟨-, -, -, hsteps⟩, -, -, -, -, hall⟩ := pipeline_safe clientBlock hsize _ hcompleted
  exact ⟨_, context, _, hpost, hin, hcomplete, rfl, hsteps, hall rfl⟩

end Pipeline

end GameLift
