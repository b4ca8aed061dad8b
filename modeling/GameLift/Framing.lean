import Mathlib.Data.List.Basic

/-! A stream of frames, one behind the other, of which a reader has a part: what
stands at the front of the part, and when the part is all there is. -/

namespace Framing

variable {π α : Type*}

def stream (bytes : π → List α) (frames : List π) : List α := (frames.map bytes).flatten

/-- `tail` is not yet a whole frame of `pending`. -/
def Incomplete (bytes : π → List α) (tail : List α) : List π → Prop
  | [] => tail = []
  | p :: _ => tail.length < (bytes p).length

variable {bytes : π → List α}

theorem stream_append (ps qs : List π) :
    stream bytes (ps ++ qs) = stream bytes ps ++ stream bytes qs := by simp [stream]

theorem stream_cons (p : π) (ps : List π) :
    stream bytes (p :: ps) = bytes p ++ stream bytes ps := by simp [stream]

theorem stream_concat (ps : List π) (p : π) :
    stream bytes (ps ++ [p]) = stream bytes ps ++ bytes p := by simp [stream]

/-- The first frame is whole in what has arrived, or longer than that. -/
theorem front_cases {q more frame rest : List α} (h : q ++ more = frame ++ rest) :
    q.length < frame.length ∨ ∃ tail, q = frame ++ tail ∧ tail ++ more = rest := by
  by_cases hlt : q.length < frame.length
  · exact Or.inl hlt
  · rcases List.append_eq_append_iff.mp h with ⟨tail, hframe, hmore⟩ | ⟨tail, hq, hrest⟩
    · have hlen := congrArg List.length hframe
      rw [List.length_append] at hlen
      obtain rfl : tail = [] := List.eq_nil_of_length_eq_zero (by omega)
      rw [List.append_nil] at hframe
      exact Or.inr ⟨[], by rw [hframe, List.append_nil], by simpa using hmore⟩
    · exact Or.inr ⟨tail, hq, hrest.symm⟩

/-- Frames that tell where they end can be read back. -/
theorem stream_injective (hfree : ∀ p q x y, bytes p ++ x = bytes q ++ y → p = q)
    (hpos : ∀ p, bytes p ≠ []) : Function.Injective (stream bytes) := by
  intro ps
  induction ps with
  | nil =>
    intro qs h
    cases qs with
    | nil => rfl
    | cons q qs =>
      rw [stream_cons] at h
      exact absurd (List.append_eq_nil_iff.mp h.symm).1 (hpos q)
  | cons p ps ih =>
    intro qs h
    cases qs with
    | nil =>
      rw [stream_cons] at h
      exact absurd (List.append_eq_nil_iff.mp h).1 (hpos p)
    | cons q qs =>
      rw [stream_cons, stream_cons] at h
      obtain rfl := hfree p q _ _ h
      rw [ih (List.append_cancel_left h)]

theorem Incomplete.length_lt {tail : List α} {pending : List π} {bound : Nat}
    (h : Incomplete bytes tail pending) (hpos : 0 < bound)
    (hbound : ∀ p ∈ pending, (bytes p).length ≤ bound) : tail.length < bound := by
  cases pending with
  | nil =>
    have hnil : tail = [] := h
    simpa [hnil] using hpos
  | cons p ps => exact Nat.lt_of_lt_of_le h (hbound p List.mem_cons_self)

theorem Incomplete.finished {tail : List α} {pending : List π}
    (h : Incomplete bytes tail pending) (hall : tail = stream bytes pending) :
    pending = [] ∧ tail = [] := by
  cases pending with
  | nil => exact ⟨rfl, h⟩
  | cons p ps =>
    have hlt : tail.length < (bytes p).length := h
    rw [hall, stream_cons, List.length_append] at hlt
    omega

end Framing
