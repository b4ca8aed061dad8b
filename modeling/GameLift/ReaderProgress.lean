import GameLift.BufferQueue
import GameLift.ServerFrame
import GameLift.Playback

/-! When the dispatch loop comes to an end. A round that calls `DefaultHandler`,
or whose `ParsePacket` finds too few bytes, consumes nothing and is repeated
for ever; every other round returns or consumes a whole struct. -/

namespace GameLift

/-- The header at the front of `q` passes the checks of the loop. -/
def Accepted (q : List Byte) : Prop :=
  sizeofPacketHeader ≤ q.length ∧ sizeT (PacketHeader.ofBytes q).mSize ≤ q.length ∧
    pktNone < (PacketHeader.ofBytes q).mType ∧ (PacketHeader.ofBytes q).mType < pktMax
deriving Decidable

/-- An accepted header of a type without a handler, or of a type whose struct
is longer than what is stored. -/
def Stuck (q : List Byte) : Prop :=
  Accepted q ∧ ∀ k, handlerTable (PacketHeader.ofBytes q).mType = some k →
    q.length < k.structSize

/-- An accepted header whose struct is all there, and the stream behind that struct. -/
def Consumes (q rest : List Byte) : Prop :=
  Accepted q ∧ ∃ k, handlerTable (PacketHeader.ofBytes q).mType = some k ∧
    k.structSize ≤ q.length ∧ rest = q.drop k.structSize

/-- No stuck stream lies behind the structs the loop can consume. -/
def Unstuck (q : List Byte) : Prop := ∀ rest, Relation.ReflTransGen Consumes q rest → ¬ Stuck rest

theorem frameOf_cases (q : List Byte) :
    (¬ Accepted q ∧ (frameOf q = .wait ∨ frameOf q = .invalidType)) ∨
    (Stuck q ∧ (frameOf q = .unregistered ∨ ∃ k, frameOf q = .parseError k)) ∨
    (Accepted q ∧ ∃ k, handlerTable (PacketHeader.ofBytes q).mType = some k ∧
      k.structSize ≤ q.length ∧
      frameOf q = .parsed k (q.take k.structSize) (q.drop k.structSize)) := by
  rw [frameOf]
  by_cases h4 : q.length < sizeofPacketHeader
  · exact Or.inl ⟨fun ha => by have := ha.1; omega, Or.inl (if_pos h4)⟩
  rw [if_neg h4]
  dsimp only
  by_cases hs : q.length < sizeT (PacketHeader.ofBytes q).mSize
  · exact Or.inl ⟨fun ha => by have := ha.2.1; omega, Or.inl (if_pos hs)⟩
  rw [if_neg hs]
  by_cases ht : pktMax ≤ (PacketHeader.ofBytes q).mType ∨ (PacketHeader.ofBytes q).mType ≤ pktNone
  · exact Or.inl ⟨fun ha => by have := ha.2.2; omega, Or.inr (if_pos ht)⟩
  rw [if_neg ht]
  have hacc : Accepted q := ⟨by omega, by omega, by omega, by omega⟩
  cases hk : handlerTable (PacketHeader.ofBytes q).mType with
  | none => exact Or.inr (Or.inl ⟨⟨hacc, by simp [hk]⟩, Or.inl rfl⟩)
  | some k =>
    by_cases hle : k.structSize ≤ q.length
    · exact Or.inr (Or.inr ⟨hacc, k, rfl, hle, if_pos hle⟩)
    · refine Or.inr (Or.inl ⟨⟨hacc, fun k' hk' => ?_⟩, Or.inr ⟨k, if_neg hle⟩⟩)
      obtain rfl : k = k' := Option.some.inj (hk.symm.trans hk')
      exact Nat.lt_of_not_le hle

namespace Receiver

variable {σ : Type} {R : Receiver σ}

theorem next_cases {s t : σ} (h : (R.mRecvBuffer s).Inv) (hn : Loop.Next R.dispatchBody s t) :
    (R.mRecvBuffer t).Inv ∧
      ((Stuck (R.contents s) ∧ R.mRecvBuffer t = R.mRecvBuffer s) ∨
        (¬ Stuck (R.contents s) ∧ Consumes (R.contents s) (R.contents t) ∧
          (R.contents t).length < (R.contents s).length)) := by
  rcases dispatchBody_cases h with ⟨-, hb⟩ | ⟨-, hb⟩ | ⟨hf, hb⟩ | ⟨k, hf, hb⟩ |
      ⟨k, b, hle, hf, hd, hb⟩ <;>
    rw [Loop.Next, hb] at hn <;>
    cases hn
  · rcases frameOf_cases (R.contents s) with ⟨-, he | he⟩ | ⟨hs, -⟩ | ⟨-, k, -, -, he⟩
    · simp [hf] at he
    · simp [hf] at he
    · rw [R.recv_disconnect]
      exact ⟨h, Or.inl ⟨hs, rfl⟩⟩
    · simp [hf] at he
  · rcases frameOf_cases (R.contents s) with ⟨-, he | he⟩ | ⟨hs, -⟩ | ⟨-, k', -, -, he⟩
    · simp [hf] at he
    · simp [hf] at he
    · rw [R.recv_parseError]
      exact ⟨h, Or.inl ⟨hs, rfl⟩⟩
    · simp [hf] at he
  · rcases frameOf_cases (R.contents s) with ⟨-, he | he⟩ | ⟨-, he | ⟨k', he⟩⟩ | ⟨ha, k', hk, -, he⟩
    · simp [hf] at he
    · simp [hf] at he
    · simp [hf] at he
    · simp [hf] at he
    · obtain rfl : k = k' := by
        rw [hf] at he
        exact (Frame.parsed.injEq .. ▸ he).1
      have hc : R.contents (R.handle k ((R.contents s).take k.structSize) (R.setRecvBuffer s b)) =
          (R.contents s).drop k.structSize := by
        rw [contents, R.recv_handle, R.recv_set, hd.contents_eq]
        rfl
      have hpos := k.structSize_pos
      rw [R.recv_handle, R.recv_set, hc]
      refine ⟨hd.inv, Or.inr ⟨fun hs => ?_, ⟨ha, k, hk, hle, rfl⟩, ?_⟩⟩
      · have := hs.2 k hk
        omega
      · rw [List.length_drop]
        omega

theorem next_of_accepted {s : σ} (h : (R.mRecvBuffer s).Inv) (ha : Accepted (R.contents s)) :
    ∃ t, Loop.Next R.dispatchBody s t := by
  rcases dispatchBody_cases h with ⟨hf, -⟩ | ⟨hf, -⟩ | ⟨-, hb⟩ | ⟨k, -, hb⟩ | ⟨k, b, -, -, -, hb⟩
  · rcases frameOf_cases (R.contents s) with ⟨hn, -⟩ | ⟨-, he | ⟨k, he⟩⟩ | ⟨-, k, -, -, he⟩
    · exact absurd ha hn
    all_goals simp [hf] at he
  · rcases frameOf_cases (R.contents s) with ⟨hn, -⟩ | ⟨-, he | ⟨k, he⟩⟩ | ⟨-, k, -, -, he⟩
    · exact absurd ha hn
    all_goals simp [hf] at he
  · exact ⟨_, hb⟩
  · exact ⟨_, hb⟩
  · exact ⟨_, hb⟩

theorem not_terminates_of_stuck {s : σ} (h : (R.mRecvBuffer s).Inv) (hs : Stuck (R.contents s)) :
    ¬ Loop.Terminates R.dispatchBody s := by
  -- A stuck stream stays as it is, so the loop never leaves it.
  refine Loop.not_terminates_of_trap (fun t => (R.mRecvBuffer t).Inv ∧ Stuck (R.contents t))
    ?_ ⟨h, hs⟩
  rintro t ⟨ht, hst⟩
  obtain ⟨t', hb⟩ := next_of_accepted ht hst.1
  obtain ⟨hi, ⟨-, he⟩ | ⟨hn, -⟩⟩ := next_cases ht hb
  · refine ⟨t', hb, hi, ?_⟩
    rw [contents, he]
    exact hst
  · exact absurd hst hn

theorem reaches_of_consumes {s : σ} (h : (R.mRecvBuffer s).Inv) {rest : List Byte}
    (hr : Relation.ReflTransGen Consumes (R.contents s) rest) :
    ∃ t, Relation.ReflTransGen (Loop.Next R.dispatchBody) s t ∧ (R.mRecvBuffer t).Inv ∧
      R.contents t = rest := by
  induction hr with
  | refl => exact ⟨s, .refl, h, rfl⟩
  | tail _ hc ih =>
    obtain ⟨t, hst, ht, rfl⟩ := ih
    obtain ⟨ha, k, hk, hle, rfl⟩ := hc
    obtain ⟨t', hb⟩ := next_of_accepted ht ha
    obtain ⟨hi, ⟨hs, -⟩ | ⟨-, ⟨-, k', hk', -, he⟩, -⟩⟩ := next_cases ht hb
    · have := hs.2 k hk
      omega
    · obtain rfl : k = k' := Option.some.inj (hk.symm.trans hk')
      exact ⟨t', hst.tail hb, hi, he⟩

theorem terminates_iff {s : σ} (h : (R.mRecvBuffer s).Inv) :
    Loop.Terminates R.dispatchBody s ↔ Unstuck (R.contents s) := by
  constructor
  · intro hterm rest hreach hstuck
    obtain ⟨t, hst, ht, rfl⟩ := reaches_of_consumes h hreach
    exact not_terminates_of_stuck ht hstuck ((Loop.terminates_iff_of_reaches hst).mp hterm)
  · intro hfree
    refine Loop.terminates_of_measure (fun t => (R.contents t).length)
      (fun t => (R.mRecvBuffer t).Inv ∧ Unstuck (R.contents t))
      ?_ (fun t _ => dispatchBody_ne_hang t) s ⟨h, hfree⟩
    rintro t t' ⟨ht, hf⟩ hb
    obtain ⟨hi, ⟨hs, -⟩ | ⟨-, hc, hlt⟩⟩ := next_cases ht hb
    · exact absurd hs (hf _ .refl)
    · exact ⟨⟨hi, fun rest hr => hf rest (.head hc hr)⟩, hlt⟩

theorem round_consumes_iff {s : σ} (h : (R.mRecvBuffer s).Inv) :
    (∀ t, R.dispatchBody s = .next t → (R.contents t).length < (R.contents s).length) ↔
      ¬ Stuck (R.contents s) := by
  constructor
  · intro hall hs
    obtain ⟨t, hb⟩ := next_of_accepted h hs.1
    obtain ⟨-, ⟨-, he⟩ | ⟨hn, -⟩⟩ := next_cases h hb
    · have hlt := hall t hb
      rw [contents, he, contents] at hlt
      omega
    · exact hn hs
  · intro hn t hb
    obtain ⟨-, ⟨hs, -⟩ | ⟨-, -, hlt⟩⟩ := next_cases h hb
    · exact absurd hs hn
    · exact hlt

/-- `PlayerSession::OnRead` of the Windows server. It is the same loop over that
server's receive buffer, `Disconnect` and handlers. -/
def onRead (R : Receiver σ) (fuel : Nat) (s : σ) : Option σ := R.dispatchPacket fuel s

end Receiver

open Server (receiver)

/-- On both servers the dispatch loop ends exactly on unstuck streams, and a
round that goes on consumes bytes exactly when the stream is not stuck. -/
theorem dispatchPacket_progress_iff {ε σ : Type} (E : Env ε) (sid : SessionId) (w : Server ε)
    (hw : (w.sessions sid).mRecvBuffer.Inv) (R : Receiver σ) (s : σ)
    (hs : (R.mRecvBuffer s).Inv) :
    (((∃ fuel w', (receiver E sid).dispatchPacket fuel w = some w') ↔
        Unstuck (w.sessions sid).mRecvBuffer.contents) ∧
      ((∀ w', (receiver E sid).dispatchBody w = .next w' →
          (w'.sessions sid).mRecvBuffer.contents.length <
            (w.sessions sid).mRecvBuffer.contents.length) ↔
        ¬ Stuck (w.sessions sid).mRecvBuffer.contents)) ∧
    ((∃ fuel s', R.onRead fuel s = some s') ↔ Unstuck (R.mRecvBuffer s).contents) ∧
      ((∀ s', R.dispatchBody s = .next s' →
          (R.mRecvBuffer s').contents.length < (R.mRecvBuffer s).contents.length) ↔
        ¬ Stuck (R.mRecvBuffer s).contents) := by
  have hE : (∃ fuel w', (receiver E sid).dispatchPacket fuel w = some w') ↔
      Loop.Terminates (receiver E sid).dispatchBody w := exists_comm
  have hR : (∃ fuel s', R.onRead fuel s = some s') ↔ Loop.Terminates R.dispatchBody s :=
    exists_comm
  rw [hE, hR]
  exact ⟨⟨Receiver.terminates_iff (R := receiver E sid) hw,
    Receiver.round_consumes_iff (R := receiver E sid) hw⟩,
    Receiver.terminates_iff hs, Receiver.round_consumes_iff hs⟩

theorem received (data : List Byte) (hl : data.length ≤ 4096) :
    ∃ rs b, (CircularBuffer.new zeroBlock).performAll [.fill data] = .ok (rs, b) ∧ b.Inv ∧
      b.contents = data := by
  have hnew := CircularBuffer.inv_new zeroBlock
  have hroom := hnew.half_free zeroBlock_length
  rw [CircularBuffer.contents_new, List.length_nil] at hroom
  obtain ⟨b, hb, ha⟩ := hnew.fill_eq data
  rw [List.take_of_length_le (by omega)] at hb ha
  refine ⟨[.filled (CircularBuffer.new zeroBlock).freeSpace data], b, ?_, ha.inv,
    by rw [ha.contents_eq, CircularBuffer.contents_new, List.nil_append]⟩
  simp only [CircularBuffer.performAll, CircularBuffer.perform, hb, ok_bind, pure_eq_ok]

theorem dispatchPacket_progress_move :
    ∃ b, b.contents = headerBytes 16 21 ++ List.replicate 12 7 ∧
      ∃ fuel w', (receiver playback 0).dispatchPacket fuel (oneClient [] b) = some w' := by
  obtain ⟨-, b, -, hi, hc⟩ := received (headerBytes 16 21 ++ List.replicate 12 7) (by decide)
  have hh := dispatchPacket_progress_iff playback 0 (oneClient [] b) hi Receiver.bare b hi
  refine ⟨b, hc, hh.1.1.mpr fun rest hreach => ?_⟩
  change Relation.ReflTransGen Consumes b.contents rest at hreach
  rw [hc] at hreach
  rcases hreach.cases_head with rfl | ⟨mid, ⟨-, k, hk, -, rfl⟩, htail⟩
  · exact fun hs => absurd (hs.2 .move (by decide)) (by decide)
  · obtain rfl : Request.move = k := Option.some.inj hk
    rcases htail.cases_head with rfl | ⟨-, ⟨ha, -⟩, -⟩
    · exact fun hs => absurd hs.1.1 (by decide)
    · exact absurd ha.1 (by decide)

/-- A type without a handler, or a login header with nothing behind it, keeps
the loop busy for ever. -/
theorem dispatchPacket_hangs :
    ∃ rs b rs' b',
      (CircularBuffer.new zeroBlock).performAll [.fill [4, 0, 5, 0]] = .ok (rs, b) ∧
      (CircularBuffer.new zeroBlock).performAll [.fill [4, 0, 1, 0]] = .ok (rs', b') ∧
      (∀ fuel, (receiver playback 0).dispatchPacket fuel (oneClient [] b) = none) ∧
      (∀ fuel, (receiver playback 0).dispatchPacket fuel (oneClient [] b') = none) ∧
      ∀ fuel, Receiver.bare.onRead fuel b = none := by
  obtain ⟨rs, b, hb, hi, hc⟩ := received [4, 0, 5, 0] (by decide)
  obtain ⟨rs', b', hb', hi', hc'⟩ := received [4, 0, 1, 0] (by decide)
  have hs : Stuck b.contents := by
    rw [hc]
    exact ⟨by decide, by decide⟩
  have hs' : Stuck b'.contents := by
    rw [hc']
    refine ⟨by decide, fun k hk => ?_⟩
    cases k <;> revert hk <;> decide
  have hnone : ∀ {σ : Type} (R : Receiver σ) (s : σ), (R.mRecvBuffer s).Inv →
      Stuck (R.contents s) → ∀ fuel, R.dispatchPacket fuel s = none := by
    intro σ R s hinv hst fuel
    cases hr : R.dispatchPacket fuel s with
    | none => rfl
    | some r => exact absurd ⟨r, fuel, hr⟩ (Receiver.not_terminates_of_stuck hinv hst)
  exact ⟨rs, b, rs', b', hb, hb', hnone (receiver playback 0) _ hi hs,
    hnone (receiver playback 0) _ hi' hs', hnone Receiver.bare b hi hs⟩

end GameLift
