import GameLift.ReaderProgress

/-! Where the next header is read. The length check uses the size a header
declares, `ParsePacket` the size of the struct; frames are cut where the two agree. -/

namespace GameLift

/-- `(size_t)header.mSize` of the header at the front of `q`. -/
def declaredSize (q : List Byte) : Nat := sizeT (PacketHeader.ofBytes q).mSize

/-- The header declares its handler's struct, or declares nothing where its
handler consumes nothing. -/
def SizesAgree (q : List Byte) : Prop :=
  (∃ k, handlerTable (PacketHeader.ofBytes q).mType = some k ∧ declaredSize q = k.structSize) ∨
    (declaredSize q = 0 ∧ ∀ k, handlerTable (PacketHeader.ofBytes q).mType = some k →
      q.length < k.structSize)

def IsFrame (f : List Byte) : Prop := Accepted f ∧ declaredSize f = f.length

def IsStruct (f : List Byte) : Prop :=
  ∃ k, handlerTable (PacketHeader.ofBytes f).mType = some k ∧ f.length = k.structSize

theorem IsFrame.ofBytes_append {f : List Byte} (h : IsFrame f) (more : List Byte) :
    PacketHeader.ofBytes (f ++ more) = PacketHeader.ofBytes f := by
  rw [← ofBytes_take, List.take_append_of_le_length h.1.1, ofBytes_take]

theorem IsFrame.accepted_append {f : List Byte} (h : IsFrame f) (more : List Byte) :
    Accepted (f ++ more) := by
  obtain ⟨h4, hs, ht⟩ := h.1
  refine ⟨?_, ?_, ?_⟩
  · rw [List.length_append]
    omega
  · rw [h.ofBytes_append, List.length_append]
    omega
  · rwa [h.ofBytes_append]

theorem IsFrame.sizesAgree_append {f : List Byte} (h : IsFrame f) (more : List Byte) :
    SizesAgree (f ++ more) ↔ IsStruct f := by
  have hd : declaredSize (f ++ more) = f.length := by
    rw [declaredSize, h.ofBytes_append]
    exact h.2
  have hpos : 0 < f.length := Nat.lt_of_lt_of_le (by decide) h.1.1
  unfold SizesAgree IsStruct
  rw [hd, h.ofBytes_append]
  constructor
  · rintro (hk | ⟨hz, -⟩)
    · exact hk
    · omega
  · exact Or.inl

namespace Receiver

variable {σ : Type} {R : Receiver σ}

theorem accepted_of_next {s t : σ} (h : (R.mRecvBuffer s).Inv)
    (hn : R.dispatchBody s = .next t) : Accepted (R.contents s) := by
  obtain ⟨-, ⟨hs, -⟩ | ⟨-, hc, -⟩⟩ := next_cases h hn
  · exact hs.1
  · exact hc.1

theorem round_drops_iff {s t : σ} (h : (R.mRecvBuffer s).Inv)
    (hn : R.dispatchBody s = .next t) :
    R.contents t = (R.contents s).drop (declaredSize (R.contents s)) ↔
      SizesAgree (R.contents s) := by
  obtain ⟨h4, hd, -⟩ := accepted_of_next h hn
  change declaredSize (R.contents s) ≤ (R.contents s).length at hd
  have hpos : 0 < (R.contents s).length := Nat.lt_of_lt_of_le (by decide) h4
  obtain ⟨-, ⟨hs, he⟩ | ⟨-, ⟨-, k, hk, hle, hc⟩, -⟩⟩ := next_cases h hn
  · have hc : R.contents t = R.contents s := congrArg CircularBuffer.contents he
    rw [hc]
    constructor
    · intro hdrop
      have hl := congrArg List.length hdrop
      rw [List.length_drop] at hl
      exact Or.inr ⟨by omega, hs.2⟩
    · rintro (⟨k, hk, hsize⟩ | ⟨hz, -⟩)
      · have hlt := hs.2 k hk
        omega
      · rw [hz, List.drop_zero]
  · rw [hc]
    constructor
    · intro hdrop
      have hl := congrArg List.length hdrop
      rw [List.length_drop, List.length_drop] at hl
      exact Or.inl ⟨k, hk, by omega⟩
    · rintro (⟨k', hk', hsize⟩ | ⟨-, hshort⟩)
      · obtain rfl : k = k' := Option.some.inj (hk.symm.trans hk')
        rw [hsize]
      · have hlt := hshort k hk
        omega

theorem rounds_aligned_iff {frames : List (List Byte)} {rest : List Byte} {s : σ}
    (h : (R.mRecvBuffer s).Inv) (hq : R.contents s = frames.flatten ++ rest)
    (hf : ∀ f ∈ frames, IsFrame f) :
    (∀ n ≤ frames.length, ∃ t, Loop.rounds R.dispatchBody n s = some t ∧
        R.contents t = (frames.drop n).flatten ++ rest) ↔ ∀ f ∈ frames, IsStruct f := by
  -- A round aligned with the first frame leaves the others in front.
  induction frames generalizing s with
  | nil =>
    constructor
    · simp
    · intro _ n hn
      obtain rfl := Nat.le_zero.mp hn
      exact ⟨s, rfl, hq⟩
  | cons f fs ih =>
    have hff := hf f (List.mem_cons_self ..)
    rw [List.flatten_cons, List.append_assoc] at hq
    obtain ⟨t, hb⟩ := next_of_accepted h (hq ▸ hff.accepted_append _)
    obtain ⟨hi, -⟩ := next_cases h hb
    have hd : declaredSize (R.contents s) = f.length := by
      rw [hq, declaredSize, hff.ofBytes_append]
      exact hff.2
    have hround : R.contents t = fs.flatten ++ rest ↔ IsStruct f := by
      rw [← hff.sizesAgree_append (fs.flatten ++ rest), ← hq, ← round_drops_iff h hb, hd, hq,
        List.drop_left]
    rw [List.forall_mem_cons, ← hround]
    constructor
    · intro hall
      have ht : R.contents t = fs.flatten ++ rest := by
        obtain ⟨t', hr, hc⟩ := hall 1 (by simp)
        rw [Loop.rounds_of_next hb] at hr
        cases hr
        exact hc
      refine ⟨ht, (ih hi ht fun g hg => hf g (List.mem_cons_of_mem _ hg)).mp fun n hn => ?_⟩
      obtain ⟨t', hr, hc⟩ := hall (n + 1) (by simpa using hn)
      exact ⟨t', (Loop.rounds_of_next hb n).symm.trans hr, hc⟩
    · rintro ⟨ht, hstruct⟩ n hn
      have hall := (ih hi ht fun g hg => hf g (List.mem_cons_of_mem _ hg)).mpr hstruct
      cases n with
      | zero => exact ⟨s, rfl, by simpa using hq⟩
      | succ n =>
        obtain ⟨t', hr, hc⟩ := hall n (by simpa using hn)
        exact ⟨t', (Loop.rounds_of_next hb n).trans hr, hc⟩

end Receiver

open Server (receiver)

/-- An accepted packet consumes what its header declares exactly when that is
the struct its handler reads, also where a packet that disconnects its session
is exempt; a stream of frames is read frame by frame exactly when every frame is
such a struct. -/
theorem frameBoundaries_iff {ε : Type} (E : Env ε) (sid : SessionId) (w : Server ε)
    (hw : (w.sessions sid).mRecvBuffer.Inv) :
    (Accepted (w.sessions sid).mRecvBuffer.contents →
      ∃ w', (receiver E sid).dispatchBody w = .next w' ∧
        ((w'.sessions sid).mRecvBuffer.contents = (w.sessions sid).mRecvBuffer.contents.drop
            (declaredSize (w.sessions sid).mRecvBuffer.contents) ↔
          SizesAgree (w.sessions sid).mRecvBuffer.contents) ∧
        (((w'.sessions sid).mConnected = true →
            (w'.sessions sid).mRecvBuffer.contents = (w.sessions sid).mRecvBuffer.contents.drop
              (declaredSize (w.sessions sid).mRecvBuffer.contents)) ↔
          ((w'.sessions sid).mConnected = true →
            SizesAgree (w.sessions sid).mRecvBuffer.contents))) ∧
    ∀ (frames : List (List Byte)) (rest : List Byte),
      (w.sessions sid).mRecvBuffer.contents = frames.flatten ++ rest →
      (∀ f ∈ frames, IsFrame f) →
      ((∀ n ≤ frames.length, ∃ w', Loop.rounds (receiver E sid).dispatchBody n w = some w' ∧
          (w'.sessions sid).mRecvBuffer.contents = (frames.drop n).flatten ++ rest) ↔
        ∀ f ∈ frames, IsStruct f) := by
  refine ⟨fun ha => ?_, fun frames rest hq hf => ?_⟩
  · obtain ⟨w', hb⟩ := Receiver.next_of_accepted (R := receiver E sid) hw ha
    have hdrops := Receiver.round_drops_iff (R := receiver E sid) hw hb
    exact ⟨w', hb, hdrops, imp_congr_right fun _ => hdrops⟩
  · exact Receiver.rounds_aligned_iff (R := receiver E sid) hw hq hf

theorem frameBoundaries_move :
    ∃ b w', b.contents = headerBytes 16 21 ++ List.replicate 12 7 ∧
      (receiver playback 0).dispatchBody (oneClient [] b) = .next w' ∧
      (w'.sessions 0).mRecvBuffer.contents = [] := by
  obtain ⟨-, b, -, hi, hc⟩ := received (headerBytes 16 21 ++ List.replicate 12 7) (by decide)
  have hh := frameBoundaries_iff playback 0 (oneClient [] b) hi
  change (Accepted b.contents → ∃ w', _ ∧ (_ = b.contents.drop (declaredSize b.contents) ↔
    SizesAgree b.contents) ∧ _) ∧ _ at hh
  rw [hc] at hh
  obtain ⟨w', hb, hiff, -⟩ := hh.1 (by decide)
  exact ⟨b, w', hc, hb, hiff.mpr (Or.inl ⟨.move, rfl, rfl⟩)⟩

/-- A move that declares four bytes more than its struct: they are read as the
header of a login. -/
theorem frameBoundaries_broken :
    ∃ rs b w', (CircularBuffer.new zeroBlock).performAll
        [.fill (headerBytes 20 21 ++ List.replicate 12 7 ++ headerBytes 4 1)] = .ok (rs, b) ∧
      IsFrame b.contents ∧
      (receiver playback 0).dispatchBody (oneClient [] b) = .next w' ∧
      (w'.sessions 0).mConnected = true ∧
      (w'.sessions 0).mRecvBuffer.contents = headerBytes 4 1 := by
  obtain ⟨rs, b, hb, hi, hc⟩ :=
    received (headerBytes 20 21 ++ List.replicate 12 7 ++ headerBytes 4 1) (by decide)
  have hcases := Receiver.dispatchBody_cases (R := receiver playback 0) (s := oneClient [] b) hi
  have hcont : (receiver playback 0).contents (oneClient [] b) =
      headerBytes 20 21 ++ List.replicate 12 7 ++ headerBytes 4 1 := hc
  have hframe : frameOf ((receiver playback 0).contents (oneClient [] b)) =
      .parsed .move (headerBytes 20 21 ++ List.replicate 12 7) (headerBytes 4 1) := by
    rw [hcont]
    decide
  simp only [hframe, reduceCtorEq, false_and, exists_false, false_or, Frame.parsed.injEq] at hcases
  obtain ⟨k, b', -, ⟨rfl, himage, hrest⟩, hd, hbody⟩ := hcases
  refine ⟨rs, b, _, hb, ?_, hbody, ?_, ?_⟩
  · rw [hc]
    exact ⟨by decide, by decide⟩
  · have hnobody : (receiver playback 0).handle .move
        ((receiver playback 0).contents (oneClient [] b) |>.take Request.move.structSize)
        ((receiver playback 0).setRecvBuffer (oneClient [] b) b') =
        (receiver playback 0).setRecvBuffer (oneClient [] b) b' :=
      Server.broadcastMessage_nobody rfl _
    have hjoined : ((joined [] []).sessions 0).mConnected = true := rfl
    rw [hnobody]
    simpa [receiver, oneClient] using hjoined
  · have hrecv := (receiver playback 0).recv_handle .move
      ((receiver playback 0).contents (oneClient [] b) |>.take Request.move.structSize)
      ((receiver playback 0).setRecvBuffer (oneClient [] b) b')
    rw [(receiver playback 0).recv_set] at hrecv
    exact (congrArg CircularBuffer.contents hrecv).trans (hd.contents_eq.trans hrest.symm)

end GameLift
