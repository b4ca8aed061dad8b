import GameLift.BufferInvariant
import GameLift.Loop
import GameLift.PacketType

/-! The dispatch loop over a receive buffer, as both servers run it. What a
handler does with its packet is a parameter that leaves the buffer alone. -/

namespace GameLift

open Loop (Iter)

/-- How far one round of the loop gets before a handler's own work. -/
inductive Frame (β : Type) where
  | wait
  | invalidType
  | unregistered
  | parseError (kind : Request)
  | parsed (kind : Request) (image : List Byte) (rest : β)
  | fault (f : Fault)
deriving DecidableEq, Repr

def Frame.map {β γ : Type} (f : β → γ) : Frame β → Frame γ
  | .wait => .wait
  | .invalidType => .invalidType
  | .unregistered => .unregistered
  | .parseError k => .parseError k
  | .parsed k image rest => .parsed k image (f rest)
  | .fault e => .fault e

/-- `ParsePacket` reads the size the struct was constructed with. -/
def parsePacket (b : CircularBuffer) (kind : Request) :
    Except Fault (Option (List Byte) × CircularBuffer) := b.read kind.structSize

def nextFrame (b : CircularBuffer) : Frame CircularBuffer :=
  match b.peek sizeofPacketHeader with
  | .error f => .fault f
  | .ok none => .wait
  | .ok (some bytes) =>
    let header := PacketHeader.ofBytes bytes
    if b.getStoredSize < sizeT header.mSize then .wait
    else if pktMax ≤ header.mType ∨ header.mType ≤ pktNone then .invalidType
    else
      match handlerTable header.mType with
      | none => .unregistered
      | some kind =>
        match parsePacket b kind with
        | .error f => .fault f
        | .ok (none, _) => .parseError kind
        | .ok (some image, b) => .parsed kind image b

/-- The session a dispatch loop runs for: its receive buffer in a state `σ`,
and what disconnecting it and handling a packet do to the rest of that state. -/
structure Receiver (σ : Type) where
  mRecvBuffer : σ → CircularBuffer
  setRecvBuffer : σ → CircularBuffer → σ
  disconnect : σ → σ
  parseError : Request → σ → σ
  handle : Request → List Byte → σ → σ
  raise : Fault → σ → σ
  recv_set : ∀ s b, mRecvBuffer (setRecvBuffer s b) = b
  recv_disconnect : ∀ s, mRecvBuffer (disconnect s) = mRecvBuffer s
  recv_parseError : ∀ k s, mRecvBuffer (parseError k s) = mRecvBuffer s
  recv_handle : ∀ k image s, mRecvBuffer (handle k image s) = mRecvBuffer s

namespace Receiver

variable {σ : Type} (R : Receiver σ)

/-- One round of `while (true)`. -/
def dispatchBody (s : σ) : Iter σ σ :=
  match nextFrame (R.mRecvBuffer s) with
  | .wait => .done s
  | .invalidType => .done (R.disconnect s)
  -- Neither `DefaultHandler` nor a failed `ParsePacket` ends the loop.
  | .unregistered => .next (R.disconnect s)
  | .parseError k => .next (R.parseError k s)
  | .parsed k image b => .next (R.handle k image (R.setRecvBuffer s b))
  | .fault f => .done (R.raise f s)

def dispatchPacket (fuel : Nat) (s : σ) : Option σ := Loop.loop R.dispatchBody fuel s

def contents (s : σ) : List Byte := (R.mRecvBuffer s).contents

def bare : Receiver CircularBuffer where
  mRecvBuffer b := b
  setRecvBuffer _ b := b
  disconnect b := b
  parseError _ b := b
  handle _ _ b := b
  raise _ b := b
  recv_set _ _ := rfl
  recv_disconnect _ := rfl
  recv_parseError _ _ := rfl
  recv_handle _ _ _ := rfl

end Receiver

/-- What a round meets at the front of the stream `q`. -/
def frameOf (q : List Byte) : Frame (List Byte) :=
  if q.length < sizeofPacketHeader then .wait
  else
    let header := PacketHeader.ofBytes q
    if q.length < sizeT header.mSize then .wait
    else if pktMax ≤ header.mType ∨ header.mType ≤ pktNone then .invalidType
    else
      match handlerTable header.mType with
      | none => .unregistered
      | some kind =>
        if kind.structSize ≤ q.length then
          .parsed kind (q.take kind.structSize) (q.drop kind.structSize)
        else .parseError kind

theorem frameOf_parsed {q image rest : List Byte} {kind : Request}
    (h : frameOf q = .parsed kind image rest) :
    kind.structSize ≤ q.length ∧ image = q.take kind.structSize ∧ rest = q.drop kind.structSize := by
  rw [frameOf] at h
  dsimp only at h
  split_ifs at h
  split at h
  · cases h
  · split_ifs at h with hle
    simp only [Frame.parsed.injEq] at h
    obtain ⟨rfl, hi, hr⟩ := h
    exact ⟨hle, hi.symm, hr.symm⟩

theorem CircularBuffer.Inv.nextFrame_spec {b : CircularBuffer} (h : b.Inv) :
    (nextFrame b).map CircularBuffer.contents = frameOf b.contents ∧
      ∀ k image b', nextFrame b = .parsed k image b' → b.Dropped k.structSize b' := by
  unfold nextFrame frameOf
  rw [h.peek_eq, h.getStoredSize_eq_length]
  by_cases h4 : sizeofPacketHeader ≤ b.contents.length
  · rw [if_pos h4, if_neg (by omega)]
    simp only [ofBytes_take]
    split_ifs with hs ht
    · exact ⟨rfl, by simp⟩
    · exact ⟨rfl, by simp⟩
    · cases hk : handlerTable (PacketHeader.ofBytes b.contents).mType with
      | none => exact ⟨rfl, by simp⟩
      | some kind =>
        by_cases hle : kind.structSize ≤ b.contents.length
        · obtain ⟨b', hb, hd⟩ := h.read_enough hle
          simp only [parsePacket, hb, if_pos hle]
          refine ⟨by simp [Frame.map, hd.contents_eq], ?_⟩
          intro k image b'' he
          simp only [Frame.parsed.injEq] at he
          obtain ⟨rfl, -, rfl⟩ := he
          exact hd
        · simp only [parsePacket, h.read_short (Nat.lt_of_not_le hle), if_neg hle]
          exact ⟨rfl, by simp⟩
  · rw [if_neg h4, if_pos (by omega)]
    exact ⟨rfl, by simp⟩

namespace Receiver

variable {σ : Type} {R : Receiver σ}

/-- What one round of the loop does, by what it meets. -/
theorem dispatchBody_cases {s : σ} (h : (R.mRecvBuffer s).Inv) :
    (frameOf (R.contents s) = .wait ∧ R.dispatchBody s = .done s) ∨
    (frameOf (R.contents s) = .invalidType ∧ R.dispatchBody s = .done (R.disconnect s)) ∨
    (frameOf (R.contents s) = .unregistered ∧ R.dispatchBody s = .next (R.disconnect s)) ∨
    (∃ k, frameOf (R.contents s) = .parseError k ∧
      R.dispatchBody s = .next (R.parseError k s)) ∨
    (∃ k b, k.structSize ≤ (R.contents s).length ∧
      frameOf (R.contents s) = .parsed k ((R.contents s).take k.structSize)
        ((R.contents s).drop k.structSize) ∧
      (R.mRecvBuffer s).Dropped k.structSize b ∧
      R.dispatchBody s =
        .next (R.handle k ((R.contents s).take k.structSize) (R.setRecvBuffer s b))) := by
  obtain ⟨hmap, hdrop⟩ := h.nextFrame_spec
  change _ = frameOf (R.contents s) at hmap
  cases hf : nextFrame (R.mRecvBuffer s) with
  | wait => exact Or.inl ⟨by rw [← hmap, hf]; rfl, by rw [dispatchBody, hf]⟩
  | invalidType => exact Or.inr (Or.inl ⟨by rw [← hmap, hf]; rfl, by rw [dispatchBody, hf]⟩)
  | unregistered =>
    exact Or.inr (Or.inr (Or.inl ⟨by rw [← hmap, hf]; rfl, by rw [dispatchBody, hf]⟩))
  | parseError k =>
    exact Or.inr (Or.inr (Or.inr (Or.inl ⟨k, by rw [← hmap, hf]; rfl, by rw [dispatchBody, hf]⟩)))
  | parsed k image b =>
    have hframe : frameOf (R.contents s) = .parsed k image b.contents := by
      rw [← hmap, hf]
      rfl
    obtain ⟨hle, rfl, hr⟩ := frameOf_parsed hframe
    exact Or.inr (Or.inr (Or.inr (Or.inr ⟨k, b, hle, by rw [hframe, hr], hdrop k _ b hf,
      by rw [dispatchBody, hf]⟩)))
  | fault f =>
    have hframe : frameOf (R.contents s) = .fault f := by
      rw [← hmap, hf]
      rfl
    rw [frameOf] at hframe
    dsimp only at hframe
    split_ifs at hframe
    split at hframe
    · cases hframe
    · split_ifs at hframe

theorem dispatchBody_ne_hang (s : σ) : R.dispatchBody s ≠ .hang := by
  rw [dispatchBody]
  cases nextFrame (R.mRecvBuffer s) <;> simp

end Receiver

end GameLift
