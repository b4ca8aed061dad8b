import Mathlib.Data.List.Basic
import Mathlib.Data.List.Infix
import Mathlib.Logic.Function.Basic

/-! A singly linked list whose last node is swapped in first and linked later.
Between the two the predecessor still points nowhere and a link is owed to it. -/

namespace HalfLinked

variable {N : Type*}

section Adjacent
variable {l : List N} {a b c : N}

theorem adjacent_cons : [a, b] <:+: c :: l ↔ (a = c ∧ l.head? = some b) ∨ [a, b] <:+: l := by
  rw [List.infix_cons_iff, List.cons_prefix_cons]
  cases l with
  | nil => simp
  | cons d l => simp [eq_comm]

theorem adjacent_concat :
    [a, b] <:+: l ++ [c] ↔ (l.getLast? = some a ∧ b = c) ∨ [a, b] <:+: l := by
  rw [List.infix_concat_iff, List.suffix_concat_iff, List.getLast?_eq_some_iff]
  refine or_congr_left ⟨?_, ?_⟩
  · rintro (hnil | ⟨t, ht, p, hp⟩)
    · exact absurd hnil (by simp)
    · have hinj : [a] = t ∧ [b] = [c] := List.append_inj' ht rfl
      obtain ⟨rfl, hbc⟩ := hinj
      obtain rfl := List.singleton_inj.mp hbc
      exact ⟨⟨p, hp.symm⟩, rfl⟩
  · rintro ⟨⟨p, hp⟩, rfl⟩
    exact .inr ⟨[a], rfl, p, hp.symm⟩

/-- Without repetition a node has one successor, and the last one has none. -/
theorem adjacent_unique (hl : l.Nodup) (hb : [a, b] <:+: l) (hc : [a, c] <:+: l) : b = c := by
  induction l with
  | nil => simp at hb
  | cons d l ih =>
    have hd := List.nodup_cons.mp hl
    have hmem : ∀ {x}, [a, x] <:+: l → a ∈ l := fun hx => hx.subset (by simp)
    rw [adjacent_cons] at hb hc
    rcases hb with ⟨rfl, hb⟩ | hb
    · rcases hc with ⟨-, hc⟩ | hc
      · rw [hb] at hc
        exact Option.some.inj hc
      · exact absurd (hmem hc) hd.1
    · rcases hc with ⟨rfl, -⟩ | hc
      · exact absurd (hmem hb) hd.1
      · exact ih hd.2 hb hc

theorem adjacent_ne_last (hl : l.Nodup) (hab : [a, b] <:+: l) : l.getLast? ≠ some a := by
  intro hlast
  obtain ⟨p, rfl⟩ := List.getLast?_eq_some_iff.mp hlast
  have ha : a ∉ p := fun ha => (List.nodup_append.mp hl).2.2 a ha a (by simp) rfl
  rcases adjacent_concat.mp hab with ⟨hp, -⟩ | hp
  · exact ha (List.mem_of_getLast? hp)
  · exact ha (hp.subset (by simp))

end Adjacent

/-- The nodes `l` from `first` to `last`, joined by `next` but for the links owed. -/
structure Chain (next : N → Option N) (owed : N → N → Prop) (first last : N) (l : List N) :
    Prop where
  nodup : l.Nodup
  head : l.head? = some first
  getLast : l.getLast? = some last
  joined : ∀ a b, [a, b] <:+: l → next a = some b ∨ owed a b
  adjacent : ∀ a b, owed a b → [a, b] <:+: l
  unset : ∀ a b, owed a b → next a = none
  open_last : next last = none

namespace Chain

variable {next : N → Option N} {owed owed' : N → N → Prop} {first last a b n : N} {l : List N}

theorem first_mem (h : Chain next owed first last l) : first ∈ l := List.mem_of_head? h.head

theorem last_mem (h : Chain next owed first last l) : last ∈ l := List.mem_of_getLast? h.getLast

theorem owed_mem (h : Chain next owed first last l) (ho : owed a b) : a ∈ l ∧ b ∈ l :=
  have hsub := (h.adjacent a b ho).subset
  ⟨hsub (by simp), hsub (by simp)⟩

theorem congr_owed (h : Chain next owed first last l) (ho : ∀ a b, owed' a b ↔ owed a b) :
    Chain next owed' first last l := by
  obtain rfl : owed' = owed := funext fun a => funext fun b => propext (ho a b)
  exact h

theorem push (h : Chain next owed first last l) (hn : n ∉ l) (hnone : next n = none)
    (ho : ∀ a b, owed' a b ↔ owed a b ∨ (a = last ∧ b = n)) :
    Chain next owed' first n (l ++ [n]) where
  nodup := by
    rw [List.nodup_append]
    refine ⟨h.nodup, by simp, fun x hx y hy => ?_⟩
    rw [List.mem_singleton.mp hy]
    exact fun hxn => hn (hxn ▸ hx)
  head := by rw [List.head?_append, h.head, Option.some_or]
  getLast := List.getLast?_concat ..
  joined x y hxy := by
    rw [ho]
    rcases adjacent_concat.mp hxy with ⟨hx, hy⟩ | hxy
    · exact .inr (.inr ⟨Option.some.inj (hx.symm.trans h.getLast), hy⟩)
    · exact (h.joined x y hxy).imp_right .inl
  adjacent x y hxy := by
    rw [adjacent_concat]
    rcases (ho x y).mp hxy with hxy | ⟨rfl, rfl⟩
    · exact .inr (h.adjacent x y hxy)
    · exact .inl ⟨h.getLast, rfl⟩
  unset x y hxy := by
    rcases (ho x y).mp hxy with hxy | ⟨rfl, -⟩
    · exact h.unset x y hxy
    · exact h.open_last
  open_last := hnone

theorem pop (h : Chain next owed first last l) (hb : next first = some b) :
    ∃ r, l = first :: r ∧ Chain next owed b last r := by
  have hl := h.nodup
  have hhead := h.head
  have hlast := h.getLast
  have hjoined := h.joined
  have hadj := h.adjacent
  match l with
  | [] => exact absurd hhead (by simp)
  | x :: [] =>
    obtain rfl : x = first := by simpa using hhead
    obtain rfl : x = last := by simpa using hlast
    rw [h.open_last] at hb
    exact absurd hb (by simp)
  | x :: y :: r =>
    obtain rfl : x = first := by simpa using hhead
    obtain rfl : b = y := by
      rcases hjoined x y (by simp [adjacent_cons]) with hy | hy
      · exact Option.some.inj (hb.symm.trans hy)
      · rw [h.unset x y hy] at hb
        exact absurd hb (by simp)
    refine ⟨b :: r, rfl, (List.nodup_cons.mp hl).2, rfl, ?_, ?_, ?_, h.unset, h.open_last⟩
    · rwa [List.getLast?_cons_cons] at hlast
    · exact fun u v huv => hjoined u v (adjacent_cons.mpr (.inr huv))
    · intro u v huv
      rcases adjacent_cons.mp (hadj u v huv) with ⟨rfl, -⟩ | huv'
      · rw [h.unset u v huv] at hb
        exact absurd hb (by simp)
      · exact huv'

theorem eq_singleton (h : Chain next owed first last l) (hnone : next first = none)
    (ho : ∀ b, ¬ owed first b) : l = [first] := by
  have hhead := h.head
  have hjoined := h.joined
  match l with
  | [] => exact absurd hhead (by simp)
  | x :: [] => rw [show x = first by simpa using hhead]
  | x :: y :: r =>
    obtain rfl : x = first := by simpa using hhead
    rcases hjoined x y (by simp [adjacent_cons]) with hy | hy
    · rw [hnone] at hy
      exact absurd hy (by simp)
    · exact absurd hy (ho y)

theorem owed_unique (h : Chain next owed first last l) {c : N} (hb : owed a b) (hc : owed a c) :
    b = c :=
  adjacent_unique h.nodup (h.adjacent a b hb) (h.adjacent a c hc)

variable [DecidableEq N]

theorem join (h : Chain next owed first last l) (hab : owed a b)
    (ho : ∀ x y, owed' x y ↔ owed x y ∧ x ≠ a) :
    Chain (Function.update next a (some b)) owed' first last l where
  nodup := h.nodup
  head := h.head
  getLast := h.getLast
  joined x y hxy := by
    by_cases hx : x = a
    · subst hx
      rw [Function.update_self, adjacent_unique h.nodup hxy (h.adjacent x b hab)]
      exact .inl rfl
    · rw [Function.update_of_ne hx, ho]
      exact (h.joined x y hxy).imp_right fun hxy => ⟨hxy, hx⟩
  adjacent x y hxy := h.adjacent x y ((ho x y).mp hxy).1
  unset x y hxy := by
    obtain ⟨hxy, hx⟩ := (ho x y).mp hxy
    rw [Function.update_of_ne hx]
    exact h.unset x y hxy
  open_last := by
    have hne : last ≠ a := fun he =>
      adjacent_ne_last h.nodup (h.adjacent a b hab) (he ▸ h.getLast)
    rw [Function.update_of_ne hne]
    exact h.open_last

theorem store_outside (h : Chain next owed first last l) (ha : a ∉ l) (v : Option N) :
    Chain (Function.update next a v) owed first last l where
  nodup := h.nodup
  head := h.head
  getLast := h.getLast
  joined x y hxy := by
    have hx : x ≠ a := fun he => ha (he ▸ hxy.subset (by simp))
    rw [Function.update_of_ne hx]
    exact h.joined x y hxy
  adjacent := h.adjacent
  unset x y hxy := by
    have hx : x ≠ a := fun he => ha (he ▸ (h.owed_mem hxy).1)
    rw [Function.update_of_ne hx]
    exact h.unset x y hxy
  open_last := by
    have hx : last ≠ a := fun he => ha (he ▸ h.last_mem)
    rw [Function.update_of_ne hx]
    exact h.open_last

end Chain

end HalfLinked
