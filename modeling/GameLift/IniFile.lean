import GameLift.IniFormat

/-! Whatever config.ini holds, it is read to its end, and the handler is called with well
formed sections, names and values only. `INIReader` keeps the values of all calls. -/

namespace GameLift

namespace DummyClients

open Loop (Supplies)
open scoped List

variable {s t chars : List Byte} {b : Byte}

section Simulation

variable {σ τ : Type} {handler : IniHandler σ} {handler' : IniHandler τ} {f : σ → τ}

namespace Parsing

def map (f : σ → τ) (p : Parsing σ) : Parsing τ := { p with user := f p.user }

/-- Two handlers that answer alike, the data of one being a view of that of the other. -/
def Alike (f : σ → τ) (handler : IniHandler σ) (handler' : IniHandler τ) : Prop :=
  ∀ u s n v, handler' (f u) s n v = ((handler u s n v).1, f (handler u s n v).2)

end Parsing

/-- The handler that only keeps its calls. -/
def recorder : IniHandler (List Call) := fun cs s n v => (true, cs ++ [⟨s, n, v⟩])

end Simulation

section WellFormed

/-- A name as a line can hold it: it is cut at a separator, and it begins the line. -/
structure NameLike (name : List Byte) : Prop where
  oneLine : OneLine name
  plain : char '=' ∉ name ∧ char ':' ∉ name
  head : ∀ b ∈ name.head?, ¬isspace b ∧ b ≠ char ';' ∧ b ≠ char '#'

structure SectionLike (sectionName : List Byte) : Prop where
  oneLine : OneLine sectionName
  plain : char ']' ∉ sectionName
  short : sectionName.length < maxSection

/-- Only a name that has been kept for the lines that go on can have been cut, to 49 bytes. -/
structure Call.WellFormed (c : Call) : Prop where
  sectionLike : SectionLike c.sectionName
  nameLike : NameLike c.name
  name_end : rstrip c.name = c.name ∨ c.name.length = maxName - 1
  oneLine_value : OneLine c.value
  trimmed_value : Trimmed c.value
  short : c.name.length < iniMaxLine ∧ c.value.length < iniMaxLine

structure Place.WellFormed (x : Place) : Prop where
  sectionLike : SectionLike x.sectionName
  nameLike : NameLike x.prev_name
  name_end : rstrip x.prev_name = x.prev_name ∨ x.prev_name.length = maxName - 1
  short : x.prev_name.length < maxName

theorem OneLine.sublist (ht : OneLine t) (h : s <+ t) : OneLine s :=
  ⟨fun hmem => ht.1 (h.subset hmem), fun hmem => ht.2 (h.subset hmem)⟩

theorem mem_head_initial (h : s <+: t) : ∀ b ∈ s.head?, b ∈ t.head? := by
  intro b hb
  obtain ⟨rest, rfl⟩ := h
  cases s with
  | nil => simp at hb
  | cons c s => simpa using hb

theorem findFrom_initial (chars : List Byte) (was_space : Bool) (s : List Byte) :
    (findFrom chars was_space s).1 <+: s := ⟨_, findFrom_append chars was_space s⟩

theorem findFrom_not_mem (chars : List Byte) (was_space : Bool) (s : List Byte) :
    ∀ b ∈ (findFrom chars was_space s).1, b ∉ chars := by
  induction s generalizing was_space with
  | nil => simp [findFrom]
  | cons c s ih =>
    rw [findFrom]
    split_ifs with hstop
    · simp
    · intro b hb
      rcases List.mem_cons.mp hb with rfl | hb
      · exact fun hmem => hstop (.inl hmem)
      · exact ih _ b hb

theorem rstrip_initial (s : List Byte) : rstrip s <+: s := List.rdropWhile_prefix _ s

theorem lskip_suffix (s : List Byte) : lskip s <:+ s := List.dropWhile_suffix _

theorem NameLike.take (h : NameLike s) (n : Nat) : NameLike (s.take n) where
  oneLine := h.oneLine.sublist (List.take_sublist n s)
  plain := ⟨fun hmem => h.plain.1 (List.mem_of_mem_take hmem),
    fun hmem => h.plain.2 (List.mem_of_mem_take hmem)⟩
  head := fun b hb => by
    have hinitial : s.take n <+: s := List.take_prefix n s
    exact h.head b (mem_head_initial hinitial b hb)

/-- What `fgets` leaves in the buffer. -/
structure Raw (text : List Byte) : Prop where
  form : ∃ line, OneLine line ∧ (text = line ∨ text = line ++ [newline])
  short : text.length < iniMaxLine

theorem Raw.rstrip (h : Raw t) (n : Nat) : OneLine (rstrip (t.drop n)) := by
  obtain ⟨line, hline, rfl | rfl⟩ := h.form
  · exact hline.sublist ((rstrip_initial _).sublist.trans (List.drop_sublist n _))
  · rw [List.drop_append]
    have htail : ∀ b ∈ [newline].drop (n - line.length), isspace b := by
      intro b hb
      obtain rfl : b = newline := by simpa using List.mem_of_mem_drop hb
      decide
    rw [rstrip_blank htail]
    exact hline.sublist ((rstrip_initial _).sublist.trans (List.drop_sublist n _))

/-- The line that the parser looks at. -/
theorem start_raw (h : Raw t) (lineno : Nat) :
    OneLine (Parsing.start lineno t).2 ∧ Trimmed (Parsing.start lineno t).2 ∧
      (Parsing.start lineno t).2.length < iniMaxLine := by
  have hform : ∃ n, (Parsing.start lineno t).2 = lskip (DummyClients.rstrip (t.drop n)) := by
    unfold Parsing.start
    dsimp only
    split_ifs
    · exact ⟨3, rfl⟩
    · exact ⟨0, rfl⟩
  obtain ⟨n, hn⟩ := hform
  have hskip := lskip_suffix (DummyClients.rstrip (t.drop n))
  have hlength := hskip.length_le.trans ((rstrip_initial _).length_le.trans
    (List.drop_sublist n t).length_le)
  rw [hn]
  refine ⟨(h.rstrip n).sublist hskip.sublist, ?_, Nat.lt_of_le_of_lt hlength h.short⟩
  rw [lskip_rstrip]
  exact trimmed_strip _

theorem cut_name (hs : rstrip s = s) :
    rstrip (strncpy0 s maxName) = strncpy0 s maxName ∨ (strncpy0 s maxName).length = maxName - 1 := by
  by_cases hshort : s.length ≤ maxName - 1
  · left
    rwa [strncpy0, List.take_of_length_le hshort]
  · right
    rw [strncpy0, List.length_take]
    omega

theorem nameLike_empty : NameLike [] := ⟨⟨by simp, by simp⟩, ⟨by simp, by simp⟩, by simp⟩

theorem wellFormed_empty : Place.WellFormed ⟨[], []⟩ :=
  ⟨⟨nameLike_empty.oneLine, by simp, by decide⟩, nameLike_empty, .inl rfl, by decide⟩

/-- What holds of the parser after `n` lines, while the calls are only kept. -/
structure Parsing.Kept (n : Nat) (p : Parsing (List Call)) : Prop where
  lineno : p.lineno = n
  error : p.error ≤ n
  place : p.place.WellFormed
  calls : ∀ c ∈ p.user, c.WellFormed

namespace Parsing.Kept

variable {n : Nat} {p : Parsing (List Call)} {name value : List Byte}

theorem fail (h : p.Kept n) : p.fail.Kept n := by
  unfold Parsing.fail
  split_ifs
  · exact ⟨h.lineno, Nat.le_of_eq h.lineno, h.place, h.calls⟩
  · exact h

theorem handle (h : p.Kept n) (hcall : Call.WellFormed ⟨p.sectionName, name, value⟩) :
    (p.handle recorder name value).Kept n := by
  rw [handle_accepted fun _ _ _ _ => rfl]
  refine ⟨h.lineno, h.error, h.place, fun c hc => ?_⟩
  rcases List.mem_append.mp hc with hc | hc
  · exact h.calls c hc
  · obtain rfl := List.mem_singleton.mp hc
    exact hcall

theorem sectionLine (h : p.Kept n) {rest : List Byte} (hrest : OneLine rest) :
    (p.sectionLine rest).Kept n := by
  have hinit := findFrom_initial [char ']'] false rest
  have hclear := findFrom_not_mem [char ']'] false rest
  unfold Parsing.sectionLine findCharsOrComment
  split
  next name b tail hfind =>
    rw [hfind] at hinit hclear
    split_ifs
    · have hcut : strncpy0 name maxSection <+: name := List.take_prefix _ _
      have hsection : SectionLike (strncpy0 name maxSection) := by
        refine ⟨hrest.sublist (hcut.sublist.trans hinit.sublist), ?_, ?_⟩
        · exact fun hmem => hclear _ (hcut.subset hmem) List.mem_cons_self
        · exact Nat.lt_of_le_of_lt (List.length_take_le _ _) (by decide)
      exact ⟨h.lineno, h.error, { wellFormed_empty with sectionLike := hsection }, h.calls⟩
    · exact h.fail
  next => exact h.fail

/-- The name and the value that stand on a line. -/
theorem pairLine (h : p.Kept n) {start : List Byte} (hstart : OneLine start)
    (hshort : start.length < iniMaxLine)
    (hhead : ∀ b ∈ start.head?, ¬isspace b ∧ b ≠ char ';' ∧ b ≠ char '#') :
    (p.pairLine recorder start).Kept n := by
  have hinit := findFrom_initial [char '=', char ':'] false start
  have hclear := findFrom_not_mem [char '=', char ':'] false start
  have hsplit := findFrom_append [char '=', char ':'] false start
  unfold Parsing.pairLine findCharsOrComment
  split
  next text b tail hfind =>
    rw [hfind] at hinit hclear hsplit
    split_ifs
    · have hcut : rstrip text <+: start := (rstrip_initial text).trans hinit
      have hname : NameLike (rstrip text) := by
        refine ⟨hstart.sublist hcut.sublist, ⟨?_, ?_⟩, ?_⟩
        · exact fun hmem => hclear _ ((rstrip_initial text).subset hmem) (by simp)
        · exact fun hmem => hclear _ ((rstrip_initial text).subset hmem) (by simp)
        · exact fun b hb => hhead b (mem_head_initial hcut b hb)
      have hvalue : rstrip (lskip (findFrom [] false tail).1) <+ start := by
        have htail : tail <+ start := by
          rw [← hsplit]
          exact (List.sublist_cons_self b tail).trans (List.sublist_append_right _ _)
        exact (((rstrip_initial _).sublist.trans (lskip_suffix _).sublist).trans
          (findFrom_initial [] false tail).sublist).trans htail
      have hstripped : rstrip (rstrip text) = rstrip text :=
        rstrip_trimmed (getLast_rstrip text)
      refine handle ⟨h.lineno, h.error, ⟨h.place.sectionLike, hname.take _, ?_, ?_⟩, h.calls⟩ ?_
      · exact cut_name hstripped
      · exact Nat.lt_of_le_of_lt (List.length_take_le _ _) (by decide)
      · exact ⟨h.place.sectionLike, hname, .inl hstripped, hstart.sublist hvalue,
          trimmed_strip _, Nat.lt_of_le_of_lt hcut.length_le hshort,
          Nat.lt_of_le_of_lt hvalue.length_le hshort⟩
    · exact h.fail
  next => exact h.fail

theorem lineFrom (h : p.Kept n) {start : List Byte} (moved : Bool) (hstart : OneLine start)
    (htrimmed : Trimmed start) (hshort : start.length < iniMaxLine) :
    (p.lineFrom recorder moved start).Kept n := by
  cases start with
  | nil => exact h
  | cons c rest =>
    by_cases hcomment : c = char ';' ∨ c = char '#'
    · rw [Parsing.lineFrom, if_pos hcomment]
      exact h
    by_cases hmore : p.prev_name ≠ [] ∧ moved
    · rw [Parsing.lineFrom, if_neg hcomment, if_pos hmore]
      have hname : p.prev_name.length < iniMaxLine := h.place.short.trans (by decide)
      exact h.handle ⟨h.place.sectionLike, h.place.nameLike, h.place.name_end, hstart, htrimmed,
        hname, hshort⟩
    rw [Parsing.lineFrom, if_neg hcomment, if_neg hmore]
    split_ifs
    · exact h.sectionLine (hstart.sublist (List.sublist_cons_self c rest))
    · apply h.pairLine hstart hshort
      intro b hb
      obtain rfl : c = b := by simpa using hb
      exact ⟨htrimmed.1 c rfl, not_or.mp hcomment⟩

theorem line (h : p.Kept n) {text : List Byte} (htext : Raw text) :
    (p.line recorder text).Kept (n + 1) := by
  obtain ⟨hstart, htrimmed, hshort⟩ := start_raw htext (p.lineno + 1)
  have hnext : Parsing.Kept (n + 1) { p with lineno := p.lineno + 1 } :=
    ⟨congrArg (· + 1) h.lineno, Nat.le_succ_of_le h.error, h.place, h.calls⟩
  exact hnext.lineFrom _ hstart htrimmed hshort

theorem foldl (h : p.Kept n) {texts : List (List Byte)} (htexts : ∀ text ∈ texts, Raw text) :
    (texts.foldl (Parsing.line recorder) p).Kept (n + texts.length) := by
  induction texts generalizing n p with
  | nil => exact h
  | cons text texts ih =>
    have hrest := ih (h.line (htexts text List.mem_cons_self))
      fun t ht => htexts t (List.mem_cons_of_mem _ ht)
    rwa [Nat.add_assoc, Nat.add_comm 1] at hrest

theorem init : (Parsing.init ([] : List Call)).Kept 0 where
  lineno := rfl
  error := Nat.le_refl _
  place := wellFormed_empty
  calls := by simp [Parsing.init]

end Parsing.Kept

end WellFormed

section Words

end Words

section Lookups

variable {cs : List Call} {ls : List IniLine} {marked : Bool} {x : Place}

end Lookups

end DummyClients

end GameLift
