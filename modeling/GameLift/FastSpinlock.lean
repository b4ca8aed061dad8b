import Mathlib.Data.Nat.Bitwise
import GameLift.Threads

/-! FastSpinlock.cpp: a readers-writer spin lock in one 32-bit word. Writers are
counted in bits 20 to 30, readers below, and a thread that comes too early takes
its count back again. -/

namespace GameLift

namespace FastSpinlock

abbrev Word := BitVec 32

def writeMask : Word := 0x7FF00000

def writeFlag : Word := 0x00100000

def readMask : Word := 0x000FFFFF

/-- Where a thread is in the lock's code, or inside a section. -/
inductive Point where
  | writeSpin
  | writeAdd
  | writeBack
  | writeWait
  | inWrite
  | readSpin
  | readAdd
  | readBack
  | inRead
deriving DecidableEq, Repr

/-- One load or one interlocked addition. -/
def Point.step (mLockFlag : Word) : Point → Word × List Point
  | writeSpin => (mLockFlag, if mLockFlag &&& writeMask ≠ 0 then [writeSpin] else [writeAdd])
  | writeAdd =>
    (mLockFlag + writeFlag,
      if (mLockFlag + writeFlag) &&& writeMask = writeFlag then [writeWait] else [writeBack])
  | writeBack => (mLockFlag + -writeFlag, [writeSpin])
  | writeWait => (mLockFlag, if mLockFlag &&& readMask ≠ 0 then [writeWait] else [inWrite])
  | inWrite => (mLockFlag + -writeFlag, [])
  | readSpin => (mLockFlag, if mLockFlag &&& writeMask ≠ 0 then [readSpin] else [readAdd])
  | readAdd =>
    (mLockFlag + 1, if (mLockFlag + 1) &&& writeMask = 0 then [inRead] else [readBack])
  | readBack => (mLockFlag - 1, [readSpin])
  | inRead => (mLockFlag - 1, [])

/-- Threads that enter and leave, each in either mode, as often as they like. -/
def users (T : Type) : Threads.Machine T Word Point where
  start _ x x' push := x' = x ∧ (push = [.writeSpin] ∨ push = [.readSpin])
  exec _ p x x' push := (x', push) = p.step x

abbrev State (T : Type) := Threads.State T Word Point

def Reached {T : Type} [DecidableEq T] (s : State T) : Prop :=
  Threads.Reachable (users T) (· = 0) (fun _ _ => True) s

/-- Its `LF_WRITE_FLAG` is in the word. -/
@[simp] def Point.writer : Point → ℕ
  | writeBack | writeWait | inWrite => 1
  | _ => 0

/-- Its increment of the reader count is in the word. -/
@[simp] def Point.reader : Point → ℕ
  | readBack | inRead => 1
  | _ => 0

/-- It has the write lock, or has it as soon as the readers are gone. -/
@[simp] def Point.claim : Point → ℕ
  | writeWait | inWrite => 1
  | _ => 0

@[simp] def Point.writing : Point → ℕ
  | inWrite => 1
  | _ => 0

@[simp] def Point.reading : Point → ℕ
  | inRead => 1
  | _ => 0

section Word

/-- The word that counts `w` writers and `r` readers. -/
structure Packs (x : Word) (w r : ℕ) : Prop where
  value : x.toNat = w * 0x100000 + r
  writers : w < 0x800
  readers : r < 0x100000

theorem pack_and_write {w r : ℕ} (hw : w < 0x800) (hr : r < 0x100000) :
    (w * 0x100000 + r) &&& 0x7FF00000 = w * 0x100000 := by
  have hpack : w * 0x100000 + r = w <<< 20 ||| r := by
    rw [← Nat.shiftLeft_add_eq_or_of_lt hr, Nat.shiftLeft_eq]
  have hmask : (0x7FF00000 : ℕ) = 2047 <<< 20 := rfl
  have hlow : r &&& 2047 <<< 20 = 0 := by
    refine Nat.eq_of_testBit_eq fun i => ?_
    rw [Nat.testBit_and, Nat.testBit_shiftLeft, Nat.zero_testBit]
    by_cases hi : 20 ≤ i
    · have hpow := Nat.pow_le_pow_right Nat.two_pos hi
      rw [Nat.testBit_lt_two_pow (hr.trans_le hpow), Bool.false_and]
    · simp [hi]
  have hhigh : w &&& 2047 = w := by
    have hmod := Nat.and_two_pow_sub_one_eq_mod w 11
    exact hmod.trans (Nat.mod_eq_of_lt hw)
  rw [hpack, hmask, Nat.and_or_distrib_right, hlow, Nat.or_zero, ← Nat.shiftLeft_and_distrib,
    hhigh, Nat.shiftLeft_eq]

theorem pack_and_read {w r : ℕ} (hr : r < 0x100000) : (w * 0x100000 + r) &&& 0x000FFFFF = r := by
  have hmod : (w * 0x100000 + r) &&& 0x000FFFFF = (w * 0x100000 + r) % 0x100000 :=
    Nat.and_two_pow_sub_one_eq_mod _ 20
  omega

variable {x : Word} {w r : ℕ}

theorem Packs.and_writeMask (h : Packs x w r) : (x &&& writeMask).toNat = w * 0x100000 := by
  rw [BitVec.toNat_and, h.value]
  exact pack_and_write h.writers h.readers

theorem Packs.no_writer_iff (h : Packs x w r) : x &&& writeMask = 0 ↔ w = 0 := by
  rw [← BitVec.toNat_inj, h.and_writeMask]
  change w * 0x100000 = 0 ↔ _
  omega

theorem Packs.one_writer_iff (h : Packs x w r) : x &&& writeMask = writeFlag ↔ w = 1 := by
  rw [← BitVec.toNat_inj, h.and_writeMask]
  change w * 0x100000 = 0x100000 ↔ _
  omega

theorem Packs.no_reader_iff (h : Packs x w r) : x &&& readMask = 0 ↔ r = 0 := by
  rw [← BitVec.toNat_inj, BitVec.toNat_and, h.value]
  change _ &&& 0x000FFFFF = 0 ↔ _
  rw [pack_and_read h.readers]

theorem Packs.add_writer (h : Packs x w r) (hw : w + 1 < 0x800) :
    Packs (x + writeFlag) (w + 1) r := by
  refine ⟨?_, hw, h.readers⟩
  have hr := h.readers
  rw [BitVec.toNat_add, h.value]
  change (w * 0x100000 + r + 0x100000) % 0x100000000 = _
  omega

theorem Packs.sub_writer (h : Packs x (w + 1) r) : Packs (x + -writeFlag) w r := by
  have hw := h.writers
  have hr := h.readers
  refine ⟨?_, by omega, hr⟩
  rw [BitVec.toNat_add, h.value]
  change ((w + 1) * 0x100000 + r + 0xFFF00000) % 0x100000000 = _
  omega

theorem Packs.add_reader (h : Packs x w r) (hr : r + 1 < 0x100000) : Packs (x + 1) w (r + 1) := by
  have hw := h.writers
  refine ⟨?_, hw, hr⟩
  rw [BitVec.toNat_add, h.value]
  change (w * 0x100000 + r + 1) % 0x100000000 = _
  omega

theorem Packs.sub_reader (h : Packs x w (r + 1)) : Packs (x - 1) w r := by
  have hw := h.writers
  have hr := h.readers
  refine ⟨?_, hw, by omega⟩
  rw [BitVec.toNat_sub, h.value]
  change (0x100000000 - 1 + (w * 0x100000 + (r + 1))) % 0x100000000 = _
  omega

end Word

open Threads (total total_move total_mono total_le_card)

variable {T : Type} [Fintype T]

/-- The word counts the points whose addition is not taken back; one thread at most
claims the lock, and none reads while one writes. -/
structure Inv (s : State T) : Prop where
  word : Packs s.shared (total Point.writer s.stack) (total Point.reader s.stack)
  single : ∀ t, (s.stack t).length ≤ 1
  claims : total Point.claim s.stack ≤ 1
  excludes : 0 < total Point.writing s.stack → total Point.reading s.stack = 0

namespace Inv

variable {s : State T}

theorem claim_le (stack : T → List Point) : total Point.claim stack ≤ total Point.writer stack :=
  total_mono (fun p => by cases p <;> decide) stack

theorem writing_le (stack : T → List Point) :
    total Point.writing stack ≤ total Point.claim stack :=
  total_mono (fun p => by cases p <;> decide) stack

theorem reading_le (stack : T → List Point) :
    total Point.reading stack ≤ total Point.reader stack :=
  total_mono (fun p => by cases p <;> decide) stack

theorem init : Inv (⟨0, fun _ => []⟩ : State T) where
  word := by
    rw [Threads.total_idle, Threads.total_idle]
    exact ⟨rfl, by decide, by decide⟩
  single _ := Nat.zero_le 1
  claims := by
    rw [Threads.total_idle]
    exact Nat.zero_le 1
  excludes h := by
    rw [Threads.total_idle] at h
    exact absurd h (Nat.lt_irrefl 0)

theorem exclusive (h : Inv s) {t u : T} (hne : u ≠ t) (ht : .inWrite ∈ s.stack t) :
    .inWrite ∉ s.stack u ∧ .inRead ∉ s.stack u := by
  refine ⟨fun hu => ?_, fun hu => ?_⟩
  · have htwo : 1 + 1 ≤ total Point.claim s.stack := Threads.add_le_total Point.claim hne.symm ht hu
    have hone := h.claims
    omega
  · have hwriting : 1 ≤ total Point.writing s.stack := Threads.le_total Point.writing ht
    have hreading : 1 ≤ total Point.reading s.stack := Threads.le_total Point.reading hu
    have hnone := h.excludes hwriting
    omega

variable [DecidableEq T]

theorem single_move (h : Inv s) (t : T) (x : Word) {new : List Point} (hnew : new.length ≤ 1)
    (u : T) : ((s.move t x new).stack u).length ≤ 1 := by
  by_cases hu : u = t
  · subst hu
    rw [Threads.State.move_stack_self]
    exact hnew
  · rw [Threads.State.move_stack_of_ne _ hu]
    exact h.single u

/-- A step to a place that holds and claims as much leaves the word and the counts. -/
theorem same (h : Inv s) {t : T} {new : List Point} (hnew : new.length ≤ 1)
    (hw : ∀ w ∈ [Point.writer, Point.reader, Point.claim, Point.writing, Point.reading],
      ((s.stack t).map w).sum = (new.map w).sum) : Inv (s.move t s.shared new) := by
  have hsum : ∀ w ∈ [Point.writer, Point.reader, Point.claim, Point.writing, Point.reading],
      total w (s.move t s.shared new).stack = total w s.stack := by
    intro w hmem
    have hm := total_move w s t s.shared new
    have hu := hw w hmem
    omega
  refine ⟨?_, h.single_move t _ hnew, ?_, ?_⟩
  · rw [hsum _ (by simp), hsum _ (by simp)]
    exact h.word
  · rw [hsum _ (by simp)]
    exact h.claims
  · rw [hsum _ (by simp), hsum _ (by simp)]
    exact h.excludes

theorem room (h : Inv s) {t : T} {p : Point} (hs : s.stack t = [p]) {w : Point → ℕ}
    (hw : ∀ q, w q ≤ 1) (hp : w p = 0) {q : Point} (hq : w q = 1) :
    total w s.stack + 1 ≤ Fintype.card T := by
  have hm := total_move w s t s.shared [q]
  have hle := total_le_card hw (h.single_move t s.shared (Nat.le_refl [q].length))
  simp only [hs, List.map_cons, List.map_nil, List.sum_cons, List.sum_nil, hp, hq] at hm
  omega

theorem of_counts (h : Inv s) {t : T} {p : Point} (hs : s.stack t = [p]) {x : Word} {w r : ℕ}
    (hword : Packs x w r) {new : List Point} (hnew : new.length ≤ 1)
    (hw : w + p.writer = total Point.writer s.stack + (new.map Point.writer).sum)
    (hr : r + p.reader = total Point.reader s.stack + (new.map Point.reader).sum)
    (hrest : ∀ c a b, c + p.claim = total Point.claim s.stack + (new.map Point.claim).sum →
      a + p.writing = total Point.writing s.stack + (new.map Point.writing).sum →
      b + p.reading = total Point.reading s.stack + (new.map Point.reading).sum →
      c ≤ 1 ∧ (0 < a → b = 0)) : Inv (s.move t x new) := by
  have hm := fun w => total_move w s t x new
  simp only [hs, List.map_cons, List.map_nil, List.sum_cons, List.sum_nil, Nat.add_zero] at hm
  obtain ⟨hclaims, hexcl⟩ := hrest _ _ _ (hm _) (hm _) (hm _)
  refine ⟨?_, h.single_move t x hnew, hclaims, hexcl⟩
  have hw' := hm Point.writer
  have hr' := hm Point.reader
  rw [show total Point.writer (s.move t x new).stack = w by omega,
    show total Point.reader (s.move t x new).stack = r by omega]
  exact hword

/-- Going on to a place that claims nothing leaves at most the claims there were. -/
theorem of_unclaimed (h : Inv s) {t : T} {p : Point} (hs : s.stack t = [p]) {x : Word} {w r : ℕ}
    (hword : Packs x w r) {new : List Point} (hnew : new.length ≤ 1)
    (hw : w + p.writer = total Point.writer s.stack + (new.map Point.writer).sum)
    (hr : r + p.reader = total Point.reader s.stack + (new.map Point.reader).sum)
    (hnone : ∀ v ∈ [Point.claim, Point.writing, Point.reading], (new.map v).sum = 0) :
    Inv (s.move t x new) := by
  refine h.of_counts hs hword hnew hw hr fun c a b hc ha hb => ?_
  have hclaims := h.claims
  have hexcl := h.excludes
  rw [hnone _ (by simp)] at hc ha hb
  omega

theorem exec (h : Inv s) (hcard : Fintype.card T ≤ 2047) {t : T} {p : Point}
    (hs : s.stack t = [p]) : Inv (s.move t (p.step s.shared).1 (p.step s.shared).2) := by
  have hword := h.word
  have hclaims := h.claims
  have hexcl := h.excludes
  have hcw := claim_le s.stack
  have hwc := writing_le s.stack
  have hrr := reading_le s.stack
  have hmem : p ∈ s.stack t := by simp [hs]
  cases p with
  | writeSpin =>
    rw [Point.step]
    split_ifs
    · exact h.same (Nat.le_refl 1) (by simp [hs])
    · exact h.same (Nat.le_refl 1) (by simp [hs])
  | writeAdd =>
    have hroom := h.room hs (w := Point.writer) (fun q => by cases q <;> decide) rfl
      (show Point.writer .writeBack = 1 from rfl)
    have hadd := hword.add_writer (by omega)
    rw [Point.step]
    split_ifs with hflag
    · -- The only writer: it claims the lock.
      have hone := hadd.one_writer_iff.mp hflag
      refine h.of_counts hs hadd (Nat.le_refl 1) (by simp) (by simp) fun c a b hc ha hb => ?_
      simp at hc ha hb
      omega
    · exact h.of_unclaimed hs hadd (Nat.le_refl 1) (by simp) (by simp) (by simp)
  | writeBack =>
    have hpos : 1 ≤ total Point.writer s.stack := Threads.le_total Point.writer hmem
    obtain ⟨w, hw⟩ := Nat.exists_eq_add_of_le' hpos
    rw [hw] at hword
    rw [Point.step]
    exact h.of_unclaimed hs hword.sub_writer (Nat.le_refl 1) (by simp [hw]) (by simp) (by simp)
  | writeWait =>
    rw [Point.step]
    split_ifs with hread
    · exact h.same (Nat.le_refl 1) (by simp [hs])
    · -- No reader is counted, so none is inside.
      have hnone := hword.no_reader_iff.mp (not_not.mp hread)
      refine h.of_counts hs hword (Nat.le_refl 1) (by simp) (by simp) fun c a b hc ha hb => ?_
      simp at hc ha hb
      omega
  | inWrite =>
    have hpos : 1 ≤ total Point.writer s.stack := Threads.le_total Point.writer hmem
    obtain ⟨w, hw⟩ := Nat.exists_eq_add_of_le' hpos
    rw [hw] at hword
    rw [Point.step]
    exact h.of_unclaimed hs hword.sub_writer (Nat.zero_le 1) (by simp [hw]) (by simp) (by simp)
  | readSpin =>
    rw [Point.step]
    split_ifs
    · exact h.same (Nat.le_refl 1) (by simp [hs])
    · exact h.same (Nat.le_refl 1) (by simp [hs])
  | readAdd =>
    have hroom := h.room hs (w := Point.reader) (fun q => by cases q <;> decide) rfl
      (show Point.reader .readBack = 1 from rfl)
    have hadd := hword.add_reader (by omega)
    rw [Point.step]
    split_ifs with hflag
    · -- No writer is counted, so none is inside.
      have hnone := hadd.no_writer_iff.mp hflag
      refine h.of_counts hs hadd (Nat.le_refl 1) (by simp) (by simp) fun c a b hc ha hb => ?_
      simp at hc ha hb
      omega
    · exact h.of_unclaimed hs hadd (Nat.le_refl 1) (by simp) (by simp) (by simp)
  | readBack =>
    have hpos : 1 ≤ total Point.reader s.stack := Threads.le_total Point.reader hmem
    obtain ⟨r, hr⟩ := Nat.exists_eq_add_of_le' hpos
    rw [hr] at hword
    rw [Point.step]
    exact h.of_unclaimed hs hword.sub_reader (Nat.le_refl 1) (by simp) (by simp [hr]) (by simp)
  | inRead =>
    have hpos : 1 ≤ total Point.reader s.stack := Threads.le_total Point.reader hmem
    obtain ⟨r, hr⟩ := Nat.exists_eq_add_of_le' hpos
    rw [hr] at hword
    rw [Point.step]
    exact h.of_unclaimed hs hword.sub_reader (Nat.zero_le 1) (by simp) (by simp [hr]) (by simp)

theorem step (hcard : Fintype.card T ≤ 2047) {t : T} {s' : State T} (h : Inv s)
    (hs : Threads.Step (users T) s t s') : Inv s' := by
  cases hs with
  | start hidle hstart =>
    obtain ⟨rfl, rfl | rfl⟩ := hstart
    · exact h.same (Nat.le_refl 1) (by simp [hidle])
    · exact h.same (Nat.le_refl 1) (by simp [hidle])
  | @exec p rest x push htop hexec =>
    have hlen := h.single t
    rw [htop, List.length_cons] at hlen
    obtain rfl : rest = [] := List.eq_nil_of_length_eq_zero (by omega)
    have hstep : (x, push) = p.step s.shared := hexec
    rw [List.append_nil, show x = (p.step s.shared).1 by rw [← hstep],
      show push = (p.step s.shared).2 by rw [← hstep]]
    exact h.exec hcard htop

end Inv

variable [DecidableEq T]

theorem Reached.inv (hcard : Fintype.card T ≤ 2047) {s : State T} (h : Reached s) : Inv s :=
  Threads.Reachable.invariant (fun _ hx => hx ▸ Inv.init)
    (fun _ _ _ hi hs _ => hi.step hcard hs) h

/-- A writer is inside alone, the two fields stay apart and below the sign bit, and
the word of an unused lock is zero. -/
theorem writer_alone (hcard : Fintype.card T ≤ 2047) {s : State T} (h : Reached s) :
    (∀ t u, u ≠ t → .inWrite ∈ s.stack t → .inWrite ∉ s.stack u ∧ .inRead ∉ s.stack u) ∧
      Packs s.shared (total Point.writer s.stack) (total Point.reader s.stack) ∧
      s.shared.toNat < 0x80000000 ∧ ((∀ t, s.stack t = []) → s.shared = 0) := by
  have hinv := h.inv hcard
  have hvalue := hinv.word.value
  have hwriters := hinv.word.writers
  have hreaders := hinv.word.readers
  refine ⟨fun t u hne ht => hinv.exclusive hne ht, hinv.word, by omega, fun hidle => ?_⟩
  have hstack : s.stack = fun _ => [] := funext hidle
  rw [hstack, Threads.total_idle, Threads.total_idle] at hvalue
  exact BitVec.eq_of_toNat_eq hvalue

section
variable {s : State T} {t : T}

omit [Fintype T] in
theorem Reached.enterWrite (h : Reached s) (hs : s.stack t = []) :
    Reached (s.move t s.shared [.writeSpin]) :=
  .step h (.start hs ⟨rfl, .inl rfl⟩) trivial

omit [Fintype T] in
theorem Reached.exec (h : Reached s) {p : Point} (hs : s.stack t = [p]) :
    Reached (s.move t (p.step s.shared).1 (p.step s.shared).2) := by
  have hstep := Threads.Step.exec (M := users T) hs (show ((p.step s.shared).1, _) = _ from rfl)
  rw [List.append_nil] at hstep
  exact .step h hstep trivial

end

def entered : State (Fin 2) := ⟨writeFlag, Function.update (fun _ => []) 0 [.inWrite]⟩

theorem entered_reached : Reached entered := by
  have h0 : Reached (⟨0, fun _ => []⟩ : State (Fin 2)) := .init rfl
  have h1 := h0.enterWrite (t := 0) rfl
  have h2 := h1.exec (Threads.State.move_stack_self ..)
  have h3 := h2.exec (Threads.State.move_stack_self ..)
  have h4 := h3.exec (Threads.State.move_stack_self ..)
  simpa [entered, Threads.State.move, Point.step, writeFlag, writeMask, readMask] using h4

theorem entered_alone : .inWrite ∉ entered.stack 1 ∧ .inRead ∉ entered.stack 1 :=
  (writer_alone (by decide) entered_reached).1 0 1 (by decide) (by decide)

end FastSpinlock

end GameLift
