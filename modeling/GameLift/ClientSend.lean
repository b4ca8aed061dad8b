import Mathlib.Tactic.SplitIfs
import GameLift.Loop
import GameLift.PacketType

/-! `TcpClient::send` of the Cocos client. Its loop moves `count` up and `length` down
and compares the two, so it ends as soon as half of the bytes are gone. -/

namespace GameLift

open Loop (Iter)

namespace TcpClient

inductive SendResult where
  | error
  | sent (n : Nat)
deriving DecidableEq, Repr

/-- `::send` on a connected socket: an error, or the number of bytes it took. -/
structure Kernel (ε : Type) where
  send : List Byte → ε → SendResult × ε
  sent_le : ∀ bytes e n, bytes ≠ [] → (send bytes e).1 = .sent n → 0 < n ∧ n ≤ bytes.length

/-- `requests` are the positions and lengths passed to `::send`, `accepted` what it took. -/
structure Sending (ε : Type) where
  count : Int
  length : Int
  env : ε
  requests : List (Int × Int)
  accepted : List Byte

variable {ε : Type}

def Sending.start (length : Int) (e : ε) : Sending ε := ⟨0, length, e, [], []⟩

/-- The bytes `[data + count, data + count + length)`. -/
def span (data : List Byte) (count length : Int) : List Byte :=
  Region.slice data count.toNat length.toNat

def Sending.request (s : Sending ε) (e : ε) : Sending ε :=
  { s with env := e, requests := s.requests ++ [(s.count, s.length)] }

def Sending.take (s : Sending ε) (data : List Byte) (n : Nat) : Sending ε :=
  { s with
    count := s.count + n
    length := s.length - n
    accepted := s.accepted ++ (span data s.count s.length).take n }

def sendBody (K : Kernel ε) (data : List Byte) (s : Sending ε) :
    Iter (Sending ε) (Bool × Sending ε) :=
  if s.count < s.length then
    let (r, e) := K.send (span data s.count s.length) s.env
    match r with
    | .error => .done (false, s.request e)
    | .sent n => .next ((s.request e).take data n)
  else .done (true, s)

def send (K : Kernel ε) (fuel : Nat) (data : List Byte) (length : Int) (e : ε) :
    Option (Bool × Sending ε) := Loop.loop (sendBody K data) fuel (.start length e)

/-- The totals the socket reaches when it is offered all the rest each time. -/
inductive Offered (K : Kernel ε) (data : List Byte) (length : Int) (e : ε) : Int → ε → Prop where
  | start : Offered K data length e 0 e
  | more {c : Int} {e₁ e₂ : ε} {n : Nat} : Offered K data length e c e₁ → c < length →
      K.send (span data c (length - c)) e₁ = (.sent n, e₂) →
      Offered K data length e (c + n) e₂

/-- `send` returns; it passes bytes of the buffer only; true means that the socket took
exactly the buffer. -/
structure SendComplete (K : Kernel ε) (data : List Byte) (length : Int) (e : ε) : Prop where
  terminates : Loop.Terminates (sendBody K data) (.start length e)
  inside : ∀ fuel r, send K fuel data length e = some r →
    ∀ q ∈ r.2.requests, 0 ≤ q.1 ∧ 0 < q.2 ∧ q.1 + q.2 ≤ length
  whole : ∀ fuel s, send K fuel data length e = some (true, s) →
    s.accepted = data.take length.toNat

/-- What every round keeps. -/
structure Sent (K : Kernel ε) (data : List Byte) (length : Int) (e : ε) (s : Sending ε) :
    Prop where
  nonneg : 0 ≤ s.count
  total : s.count + s.length = length
  accepted : s.accepted = data.take s.count.toNat
  inside : ∀ q ∈ s.requests, 0 ≤ q.1 ∧ 0 < q.2 ∧ q.1 + q.2 ≤ length
  offered : Offered K data length e s.count s.env
  bound : s.count = 0 ∨ s.count ≤ length

variable {K : Kernel ε} {data : List Byte} {length : Int} {e : ε}

theorem Sent.start : Sent K data length e (.start length e) where
  nonneg := Int.le_refl 0
  total := Int.zero_add length
  accepted := rfl
  inside _ hq := absurd hq List.not_mem_nil
  offered := .start
  bound := Or.inl rfl

theorem length_span (hlen : length ≤ data.length) {c : Int} (h0 : 0 ≤ c) (hc : c < length) :
    (span data c (length - c)).length = (length - c).toNat := Region.length_slice (by omega)

theorem take_span (data : List Byte) {c : Int} (h0 : 0 ≤ c) {n : Nat} {l : Int} (hn : n ≤ l.toNat) :
    data.take c.toNat ++ (span data c l).take n = data.take (c + n).toNat := by
  have hsum : (c + n).toNat = c.toNat + n := by omega
  rw [span, Region.take_slice _ _ _ _ hn, Region.slice, hsum, List.take_add]

/-- One round: an error, a part of the rest, or the end once half is gone. -/
theorem Sent.round (hlen : length ≤ data.length) {s : Sending ε} (h : Sent K data length e s) :
    (¬2 * s.count < length ∧ sendBody K data s = .done (true, s)) ∨
    (2 * s.count < length ∧ ∃ e', K.send (span data s.count s.length) s.env = (.error, e') ∧
      sendBody K data s = .done (false, s.request e') ∧
      ∀ q ∈ (s.request e').requests, 0 ≤ q.1 ∧ 0 < q.2 ∧ q.1 + q.2 ≤ length) ∨
    (2 * s.count < length ∧ ∃ n e', K.send (span data s.count s.length) s.env = (.sent n, e') ∧
      0 < n ∧ sendBody K data s = .next ((s.request e').take data n) ∧
      Sent K data length e ((s.request e').take data n)) := by
  have h0 := h.nonneg
  have htotal := h.total
  by_cases hc : s.count < s.length
  · right
    have hhalf : 2 * s.count < length := by omega
    have hrest : s.length = length - s.count := by omega
    have hspan := length_span hlen h0 (show s.count < length by omega)
    rw [← hrest] at hspan
    have hne : span data s.count s.length ≠ [] := by
      rw [← List.length_pos_iff, hspan]
      omega
    have hinside : ∀ e', ∀ q ∈ (s.request e').requests, 0 ≤ q.1 ∧ 0 < q.2 ∧ q.1 + q.2 ≤ length := by
      intro e' q hq
      rcases List.mem_append.mp hq with hold | hnew
      · exact h.inside q hold
      · rw [List.mem_singleton.mp hnew]
        exact ⟨h0, by omega, Int.le_of_eq htotal⟩
    cases hsend : K.send (span data s.count s.length) s.env with
    | mk r e' =>
      cases r with
      | error =>
        refine Or.inl ⟨hhalf, e', rfl, ?_, hinside e'⟩
        rw [sendBody, if_pos hc, hsend]
      | sent n =>
        have hbounds := K.sent_le _ s.env n hne (by rw [hsend])
        rw [hspan] at hbounds
        refine Or.inr ⟨hhalf, n, e', rfl, hbounds.1, by rw [sendBody, if_pos hc, hsend], ?_⟩
        refine ⟨?_, ?_, ?_, hinside e', ?_, Or.inr ?_⟩
        · show 0 ≤ s.count + n
          omega
        · show s.count + n + (s.length - n) = length
          omega
        · show s.accepted ++ (span data s.count s.length).take n = data.take (s.count + n).toNat
          rw [h.accepted, take_span data h0 hbounds.2]
        · show Offered K data length e (s.count + n) e'
          exact .more h.offered (by omega) (hrest ▸ hsend)
        · show s.count + n ≤ length
          omega
  · refine Or.inl ⟨by omega, ?_⟩
    rw [sendBody, if_neg hc]

theorem send_terminates (hlen : length ≤ data.length) :
    Loop.Terminates (sendBody K data) (.start length e) := by
  refine Loop.terminates_of_measure (fun s => s.length.toNat) (Sent K data length e)
    (fun s t hs ht => ?_) (fun s hs => ?_) _ .start
  · have htotal := hs.total
    have h0 := hs.nonneg
    rcases hs.round hlen with ⟨-, he⟩ | ⟨-, e', -, he, -⟩ | ⟨hhalf, n, e', -, hn, he, hs'⟩ <;>
      rw [he] at ht <;>
      cases ht
    refine ⟨hs', ?_⟩
    show (s.length - n).toNat < s.length.toNat
    omega
  · rcases hs.round hlen with ⟨-, he⟩ | ⟨-, e', -, he, -⟩ | ⟨-, n, e', -, -, he, -⟩ <;>
      rw [he] <;>
      exact fun h => by cases h

/-- How a call ends: past half of the buffer, or with an error. -/
theorem send_ends (hlen : length ≤ data.length) {fuel : Nat} {r : Bool × Sending ε}
    (hr : send K fuel data length e = some r) :
    (∀ q ∈ r.2.requests, 0 ≤ q.1 ∧ 0 < q.2 ∧ q.1 + q.2 ≤ length) ∧
    (r.1 = true → Sent K data length e r.2 ∧ ¬2 * r.2.count < length) := by
  have hret : Loop.Returns (sendBody K data) (.start length e) r := ⟨fuel, hr⟩
  refine hret.invariant (Sent K data length e) (fun r =>
    (∀ q ∈ r.2.requests, 0 ≤ q.1 ∧ 0 < q.2 ∧ q.1 + q.2 ≤ length) ∧
    (r.1 = true → Sent K data length e r.2 ∧ ¬2 * r.2.count < length)) .start fun s hs => ?_
  rcases hs.round hlen with ⟨hhalf, he⟩ | ⟨-, e', -, he, hin⟩ | ⟨-, n, e', -, -, he, hs'⟩ <;>
    rw [he]
  · exact ⟨hs.inside, fun _ => ⟨hs, hhalf⟩⟩
  · exact ⟨hin, fun h => absurd h Bool.false_ne_true⟩
  · exact hs'

/-- What the loop does at a total of the socket: it comes there, or it has ended short. -/
theorem Offered.visited (hlen : length ≤ data.length) {c : Int} {e₁ : ε}
    (h : Offered K data length e c e₁) :
    (∃ s, s.count = c ∧ s.env = e₁ ∧ Sent K data length e s ∧
      Relation.ReflTransGen (Loop.Next (sendBody K data)) (.start length e) s) ∨
    ∃ s, Loop.Returns (sendBody K data) (.start length e) (true, s) ∧
      Sent K data length e s ∧ s.count < length := by
  induction h with
  | start => exact Or.inl ⟨.start length e, rfl, rfl, .start, .refl⟩
  | @more c e₁ e₂ n _ hc hsend ih =>
    rcases ih with ⟨s, rfl, rfl, hs, hreach⟩ | hshort
    · have hrest : length - s.count = s.length := by
        have htotal := hs.total
        omega
      rw [hrest] at hsend
      rcases hs.round hlen with ⟨-, he⟩ | ⟨-, e', herr, -⟩ | ⟨-, m, e', hm, -, he, hs'⟩
      · exact Or.inr ⟨s, .of_reaches hreach (.of_done he), hs, hc⟩
      · cases hsend.symm.trans herr
      · cases hsend.symm.trans hm
        exact Or.inl ⟨_, rfl, rfl, hs', .tail hreach he⟩
    · exact Or.inr hshort

theorem Sent.accepted_whole (hlen : length ≤ data.length) {s : Sending ε}
    (h : Sent K data length e s) : s.accepted = data.take length.toNat ↔ length ≤ s.count := by
  have h0 := h.nonneg
  have hbound := h.bound
  rw [h.accepted]
  constructor
  · intro heq
    have hcount := congrArg List.length heq
    rw [List.length_take, List.length_take] at hcount
    omega
  · intro hle
    congr 1
    omega

/-- For every buffer and all answers of the socket: the call is complete exactly if no total
that the socket reaches lies between half of the length and the length. -/
theorem send_complete_iff (K : Kernel ε) (data : List Byte) (length : Int)
    (hlen : length ≤ data.length) (e : ε) :
    SendComplete K data length e ↔
      ∀ c e', Offered K data length e c e' → 2 * c < length ∨ length ≤ c := by
  constructor
  · intro h c e' ho
    by_contra hbetween
    have hshort : ∃ s, Loop.Returns (sendBody K data) (.start length e) (true, s) ∧
        Sent K data length e s ∧ s.count < length := by
      rcases ho.visited hlen with ⟨s, rfl, rfl, hs, hreach⟩ | hshort
      · rcases hs.round hlen with ⟨-, he⟩ | ⟨hhalf, -⟩ | ⟨hhalf, -⟩
        · exact ⟨s, .of_reaches hreach (.of_done he), hs, by omega⟩
        · exact absurd (Or.inl hhalf) hbetween
        · exact absurd (Or.inl hhalf) hbetween
      · exact hshort
    obtain ⟨s, ⟨fuel, hret⟩, hs, hlt⟩ := hshort
    have hall := (hs.accepted_whole hlen).mp (h.whole fuel s hret)
    omega
  · intro h
    refine ⟨send_terminates hlen, fun fuel r hr => (send_ends hlen hr).1, fun fuel s hr => ?_⟩
    have hends := (send_ends hlen hr).2 rfl
    obtain ⟨hs, hhalf⟩ := show Sent K data length e s ∧ ¬2 * s.count < length from hends
    have hcount := h s.count s.env hs.offered
    exact (hs.accepted_whole hlen).mpr (by omega)

/-- A socket that takes four bytes at first, and then all it is offered. -/
def hesitant : Kernel Bool where
  send bytes e := (.sent (if e then min 4 bytes.length else bytes.length), false)
  sent_le := by
    intro bytes e n hne hsent
    have hpos := List.length_pos_iff.mpr hne
    cases hsent
    split_ifs <;> omega

def moveBytes : List Byte := headerBytes 16 pktCsMove ++ List.replicate 12 0

theorem send_complete_split : SendComplete hesitant moveBytes 16 true ∧
    send hesitant 3 moveBytes 16 true =
      some (true, ⟨16, 0, false, [(0, 16), (4, 12)], moveBytes⟩) := by
  have hall : ∀ c e, Offered hesitant moveBytes 16 true c e →
      c = 0 ∧ e = true ∨ c = 4 ∧ e = false ∨ 16 ≤ c := by
    intro c e ho
    induction ho with
    | start => exact Or.inl ⟨rfl, rfl⟩
    | more _ hc hsend ih =>
      rcases ih with ⟨rfl, rfl⟩ | ⟨rfl, rfl⟩ | hfull
      · cases hsend
        exact Or.inr (Or.inl ⟨rfl, rfl⟩)
      · cases hsend
        exact Or.inr (Or.inr (by decide))
      · omega
  refine ⟨(send_complete_iff _ _ _ (by decide) _).mpr fun c e ho => ?_, rfl⟩
  have hc := hall c e ho
  omega

/-- A socket that takes at most `limit` bytes at a time. -/
def taking (limit : Nat) (h : 0 < limit) : Kernel Unit where
  send bytes e := (.sent (min limit bytes.length), e)
  sent_le := by
    intro bytes e n hne hsent
    have hpos := List.length_pos_iff.mpr hne
    cases hsent
    omega

/-- Eight of sixteen bytes are taken, and the answer is true. -/
theorem send_short : ¬SendComplete (taking 8 (by decide)) moveBytes 16 () := by
  intro h
  have hret : send (taking 8 (by decide)) 2 moveBytes 16 () =
      some (true, ⟨8, 8, (), [(0, 16)], moveBytes.take 8⟩) := rfl
  exact absurd (h.whole 2 _ hret) (by decide)

end TcpClient

end GameLift
