import Mathlib.Data.List.Infix
import Mathlib.Data.Set.Insert
import Mathlib.Logic.Relation

/-! Broadcast in a hall: whoever is present hears what is said, and all who hear
anything hear it in one order. In a firm hall nobody stays who has missed a message,
and nobody who has heard something comes back. -/

namespace OrderedBroadcast

open scoped List

/-- `said` is the history of the hall, `heard` what each listener was handed of it. -/
structure Hall (ι μ : Type*) where
  said : List μ
  heard : ι → List μ
  present : Set ι

variable {ι μ : Type*} {firm : Prop}

def Hall.empty : Hall ι μ := ⟨[], fun _ => [], ∅⟩

inductive Step (firm : Prop) : Hall ι μ → Hall ι μ → Prop where
  | enter {h : Hall ι μ} {i : ι} : (firm → h.heard i = []) →
      Step firm h { h with present := insert i h.present }
  | leave {h : Hall ι μ} {stay : Set ι} : stay ⊆ h.present →
      Step firm h { h with present := stay }
  | say {h h' : Hall ι μ} {m : μ} : h'.said = h.said ++ [m] → h'.present ⊆ h.present →
      (∀ i, h'.heard i = h.heard i ∨ i ∈ h.present ∧ h'.heard i = h.heard i ++ [m]) →
      (firm → ∀ i ∈ h'.present, h'.heard i = h.heard i ++ [m]) → Step firm h h'

abbrev Steps (firm : Prop) : Hall ι μ → Hall ι μ → Prop := Relation.ReflTransGen (Step firm)

structure Ordered (firm : Prop) (h : Hall ι μ) : Prop where
  sublist : ∀ i, h.heard i <+ h.said
  part : firm → ∀ i, h.heard i <:+: h.said
  current : firm → ∀ i ∈ h.present, h.heard i <:+ h.said

theorem ordered_empty : Ordered firm (Hall.empty : Hall ι μ) where
  sublist _ := List.Sublist.refl []
  part _ _ := List.infix_rfl
  current _ _ _ := List.suffix_rfl

theorem Ordered.step {h h' : Hall ι μ} (ho : Ordered firm h) (hs : Step firm h h') :
    Ordered firm h' := by
  cases hs with
  | @enter i hnew =>
    refine ⟨ho.sublist, ho.part, fun hf j hj => ?_⟩
    rcases Set.mem_insert_iff.mp hj with rfl | hj
    · change h.heard j <:+ h.said
      rw [hnew hf]
      exact List.nil_suffix
    · exact ho.current hf j hj
  | leave hstay => exact ⟨ho.sublist, ho.part, fun hf j hj => ho.current hf j (hstay hj)⟩
  | @say _ m hsaid hpresent hheard hfirm =>
    have hext : ∀ i, i ∈ h.present → firm → h.heard i ++ [m] <:+ h'.said := by
      intro i hi hf
      obtain ⟨before, hbefore⟩ := ho.current hf i hi
      exact ⟨before, by rw [hsaid, ← hbefore, List.append_assoc]⟩
    refine ⟨fun i => ?_, fun hf i => ?_, fun hf i hi => ?_⟩
    · rw [hsaid]
      rcases hheard i with he | ⟨-, he⟩ <;> rw [he]
      · exact (ho.sublist i).trans (List.sublist_append_left ..)
      · exact (ho.sublist i).append (List.Sublist.refl _)
    · rcases hheard i with he | ⟨hi, he⟩ <;> rw [he]
      · rw [hsaid]
        exact List.infix_append_of_infix_left (ho.part hf i)
      · exact (hext i hi hf).isInfix
    · rw [hfirm hf i hi]
      exact hext i (hpresent hi) hf

/-- However the hall is run, everybody hears in the order of what was said. -/
theorem Ordered.steps {h h' : Hall ι μ} (ho : Ordered firm h) (hs : Steps firm h h') :
    Ordered firm h' := by
  induction hs with
  | refl => exact ho
  | tail _ hstep ih => exact ih.step hstep

/-- Of two who are present in a firm hall, one has heard the end of what the other has. -/
theorem Ordered.agree {h : Hall ι μ} (ho : Ordered firm h) (hf : firm) {i j : ι}
    (hi : i ∈ h.present) (hj : j ∈ h.present) :
    h.heard i <:+ h.heard j ∨ h.heard j <:+ h.heard i :=
  List.suffix_or_suffix_of_suffix (ho.current hf i hi) (ho.current hf j hj)

/-- The messages of a log that `f` reads, each still with its sender. -/
def readEach {α β γ : Type*} (f : β → Option γ) (log : List (α × β)) : List (α × γ) :=
  log.filterMap fun m => (f m.2).map (m.1, ·)

theorem readEach_messages {α β γ : Type*} (f : β → Option γ) (log : List (α × β)) :
    (readEach f log).map Prod.snd = (log.map Prod.snd).filterMap f := by
  rw [readEach, List.map_filterMap, List.filterMap_map]
  congr 1
  funext m
  simp only [Function.comp, Option.map_map]
  cases f m.2 <;> rfl

theorem readEach_sender {α β γ : Type*} [DecidableEq α] (f : β → Option γ) (log : List (α × β))
    (s : α) : ((readEach f log).filter fun m => m.1 = s).map Prod.snd =
      ((log.filter fun m => m.1 = s).map Prod.snd).filterMap f := by
  have hsame : (readEach f log).filter (fun m => m.1 = s) =
      readEach f (log.filter fun m => m.1 = s) := by
    rw [readEach, List.filter_filterMap, readEach, List.filterMap_filter]
    congr 1
    funext m
    by_cases hm : m.1 = s
    · cases f m.2 <;> simp [hm]
    · cases f m.2 <;> simp [hm]
  rw [hsame, readEach_messages]

end OrderedBroadcast
