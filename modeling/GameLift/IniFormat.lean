import GameLift.IniReader

/-! What config.ini means. A file that is written line by line is read back as it was meant;
and whatever the file holds, the handler is called with well formed names and values. -/

namespace GameLift

namespace DummyClients

open Loop (Supplies)
open scoped List

variable {s t sp chars : List Byte} {b : Byte} {was_space : Bool}

/-- White space within a line. -/
def Blank (sp : List Byte) : Prop := ∀ b ∈ sp, isspace b ∧ b ≠ newline

def Trimmed (s : List Byte) : Prop :=
  (∀ b ∈ s.head?, ¬isspace b) ∧ ∀ b ∈ s.getLast?, ¬isspace b

/-- Neither one of `chars` nor a comment begins in the text. -/
def Clear (chars s : List Byte) : Prop :=
  (∀ b ∈ s, b ∉ chars) ∧ s.IsChain fun a b => isspace a → b ∉ iniInlineCommentPrefixes

/-- A text that `fgets` does not cut. -/
def OneLine (s : List Byte) : Prop := 0 ∉ s ∧ newline ∉ s

section Stripping

theorem rstrip_append (s t : List Byte) :
    rstrip (s ++ t) = if rstrip t = [] then rstrip s else s ++ rstrip t := by
  unfold rstrip List.rdropWhile
  rw [List.reverse_append, List.dropWhile_append]
  split_ifs with hempty hnil hnil
  · rfl
  · exact absurd (by simpa using hempty) hnil
  · exact absurd (by simpa using hnil) hempty
  · simp

theorem rstrip_eq_nil : rstrip s = [] ↔ ∀ b ∈ s, isspace b := by
  simp [rstrip]

theorem rstrip_blank (hsp : ∀ b ∈ sp, isspace b) (s : List Byte) : rstrip (s ++ sp) = rstrip s := by
  rw [rstrip_append, if_pos (rstrip_eq_nil.mpr hsp)]

theorem rstrip_cons (hb : ¬isspace b) (s t : List Byte) :
    rstrip (s ++ b :: t) = s ++ b :: rstrip t := by
  have hsingle : rstrip [b] = [b] := by
    unfold rstrip
    rw [List.rdropWhile_singleton, if_neg hb]
  have htail : rstrip (b :: t) = b :: rstrip t := by
    have happend := rstrip_append [b] t
    split_ifs at happend with hnil <;> simp_all
  rw [rstrip_append, htail, if_neg (List.cons_ne_nil _ _)]

theorem rstrip_trimmed (hs : ∀ b ∈ s.getLast?, ¬isspace b) : rstrip s = s := by
  apply List.rdropWhile_eq_self_iff.mpr
  intro hne
  exact hs _ (List.getLast?_eq_getLast_of_ne_nil hne)

/-- The ends may be stripped in either order. -/
theorem lskip_rstrip (s : List Byte) : lskip (rstrip s) = rstrip (lskip s) := by
  induction s with
  | nil => rfl
  | cons b s ih =>
    by_cases hb : isspace b
    · have hleft : lskip (b :: s) = lskip s := by simp [lskip, hb]
      have hright : rstrip (b :: s) = if rstrip s = [] then [] else b :: rstrip s := by
        have hsingle : rstrip [b] = [] := rstrip_eq_nil.mpr (by simpa using hb)
        have happend := rstrip_append [b] s
        rwa [hsingle] at happend
      rw [hleft, ← ih, hright]
      split_ifs with hnil
      · rw [hnil]
      · simp [lskip, hb]
    · have hleft : lskip (b :: s) = b :: s := by simp [lskip, hb]
      have hright : rstrip (b :: s) = b :: rstrip s := rstrip_cons hb [] s
      rw [hleft, hright]
      simp [lskip, hb]

theorem getLast_rstrip (s : List Byte) : ∀ b ∈ (rstrip s).getLast?, ¬isspace b := by
  intro b hb
  obtain ⟨hne, rfl⟩ := List.mem_getLast?_eq_getLast hb
  exact List.rdropWhile_last_not _ _ hne

theorem head_lskip (s : List Byte) : ∀ b ∈ (lskip s).head?, ¬isspace b := by
  intro b hb
  have hne : lskip s ≠ [] := by
    intro hnil
    simp [hnil] at hb
  have hhead := List.head_dropWhile_not isspace hne
  rw [List.head?_eq_some_head hne] at hb
  obtain rfl := Option.some.inj hb
  exact Bool.eq_false_iff.mp hhead

theorem trimmed_strip (s : List Byte) : Trimmed (rstrip (lskip s)) := by
  refine ⟨?_, getLast_rstrip _⟩
  rw [← lskip_rstrip]
  exact head_lskip _

end Stripping

section Finding

theorem findFrom_append (chars : List Byte) (was_space : Bool) (s : List Byte) :
    (findFrom chars was_space s).1 ++ (findFrom chars was_space s).2 = s := by
  induction s generalizing was_space with
  | nil => rfl
  | cons b s ih =>
    rw [findFrom]
    split_ifs
    · rfl
    · simp [ih (isspace b)]

/-- Whether white space has just been passed. -/
def endsInSpace (was_space : Bool) (s : List Byte) : Bool := s.foldl (fun _ b => isspace b) was_space

/-- A clear text is passed over, up to what follows it. -/
theorem findFrom_clear (hs : Clear chars s)
    (hhead : was_space → ∀ b ∈ s.head?, b ∉ iniInlineCommentPrefixes)
    (ht : ∀ b ∈ t.head?, b ∈ chars ∨ (endsInSpace was_space s ∧ b ∈ iniInlineCommentPrefixes)) :
    findFrom chars was_space (s ++ t) = (s, t) := by
  induction s generalizing was_space with
  | nil =>
    cases t with
    | nil => rfl
    | cons b t =>
      have hb : b ∈ chars ∨ (was_space ∧ b ∈ iniInlineCommentPrefixes) := ht b rfl
      rw [List.nil_append, findFrom, if_pos hb]
  | cons b s ih =>
    have hb : ¬(b ∈ chars ∨ (was_space ∧ b ∈ iniInlineCommentPrefixes)) := by
      rintro (hmem | ⟨hspace, hmem⟩)
      · exact hs.1 b List.mem_cons_self hmem
      · exact hhead hspace b rfl hmem
    have hrest : findFrom chars (isspace b) (s ++ t) = (s, t) := by
      apply ih ⟨fun c hc => hs.1 c (List.mem_cons_of_mem _ hc), hs.2.tail⟩
      · intro hspace c hc
        cases s with
        | nil => simp at hc
        | cons d s =>
          obtain rfl : d = c := by simpa using hc
          exact (List.isChain_cons_cons.mp hs.2).1 hspace
      · exact ht
    rw [List.cons_append, findFrom, if_neg hb, hrest]

theorem find_clear (hs : Clear chars s)
    (ht : ∀ b ∈ t.head?, b ∈ chars ∨ (endsInSpace false s ∧ b ∈ iniInlineCommentPrefixes)) :
    findCharsOrComment (s ++ t) chars = (s, t) := by
  apply findFrom_clear hs
  · intro hspace
    cases hspace
  · exact ht

/-- What is found in the beginning of a text is what is found in all of it. -/
theorem findFrom_initial_head (h : s <+: t) :
    ∀ b ∈ (findFrom chars was_space s).2.head?, b ∈ (findFrom chars was_space t).2.head? := by
  obtain ⟨rest, rfl⟩ := h
  induction s generalizing was_space with
  | nil => simp [findFrom]
  | cons c s ih =>
    rw [List.cons_append, findFrom, findFrom]
    split_ifs
    · simp
    · exact ih

end Finding

/-- What the handler is called with. -/
structure Call where
  sectionName : List Byte
  name : List Byte
  value : List Byte
  deriving DecidableEq

def Call.run {σ : Type} (handler : IniHandler σ) (user : σ) (c : Call) : σ :=
  (handler user c.sectionName c.name c.value).2

/-- The section that is open, and the name that an indented line goes on with. -/
structure Place where
  sectionName : List Byte
  prev_name : List Byte

structure Pair where
  name : List Byte
  before : List Byte := []
  sep : Byte := char '='
  between : List Byte := []
  value : List Byte
  after : List Byte := []
  comment : List Byte := []

def Pair.text (p : Pair) : List Byte :=
  p.name ++ p.before ++ p.sep :: (p.between ++ p.value ++ p.after ++ p.comment)

/-- Up to a comment, or to the end, the text has none of `chars`. -/
def Lacks (chars s : List Byte) : Prop :=
  ∃ body after, s = body ++ after ∧ Clear chars body ∧
    ∀ b ∈ after.head?, b ∈ iniInlineCommentPrefixes ∧ endsInSpace false body

/-- A line as it is meant; `more` goes on with the value before it, and `wrong` is a section
without its bracket or a line that is no pair. -/
inductive IniLine where
  | blank (space : List Byte)
  | comment (space : List Byte) (mark : Byte) (text : List Byte)
  | heading (name after : List Byte)
  | pair (p : Pair)
  | more (space value after : List Byte)
  | wrong (text : List Byte)

namespace IniLine

def text : IniLine → List Byte
  | blank space => space
  | comment space mark text => space ++ mark :: text
  | heading name after => char '[' :: (name ++ char ']' :: after)
  | pair p => p.text
  | more space value after => space ++ value ++ after
  | wrong text => text

/-- Names are kept in buffers of 50 bytes, so that a longer one is cut where it is kept. -/
def place (x : Place) : IniLine → Place
  | heading name _ => ⟨strncpy0 name maxSection, []⟩
  | pair p => { x with prev_name := strncpy0 p.name maxName }
  | _ => x

def call (x : Place) : IniLine → Option Call
  | pair p => some ⟨x.sectionName, p.name, p.value⟩
  | more _ value _ => some ⟨x.sectionName, x.prev_name, value⟩
  | _ => none

/-- The line without the white space around it. -/
def start : IniLine → List Byte
  | blank _ => []
  | comment _ mark text => mark :: rstrip text
  | heading name after => char '[' :: (name ++ char ']' :: rstrip after)
  | pair p => p.name ++ p.before ++ p.sep :: rstrip (p.between ++ p.value ++ p.after ++ p.comment)
  | more _ value _ => value
  | wrong text => rstrip text

end IniLine

theorem Blank.isspace (hsp : Blank sp) : ∀ b ∈ sp, isspace b := fun b hb => (hsp b hb).1

theorem Blank.oneLine (hsp : Blank sp) : OneLine sp := by
  constructor
  · intro hzero
    exact absurd (hsp.isspace 0 hzero) (by decide)
  · intro hline
    exact (hsp newline hline).2 rfl

theorem OneLine.append (hs : OneLine s) (ht : OneLine t) : OneLine (s ++ t) := by
  simp only [OneLine, List.mem_append, not_or]
  exact ⟨⟨hs.1, ht.1⟩, hs.2, ht.2⟩

theorem OneLine.cons (hb : b ≠ 0 ∧ b ≠ newline) (hs : OneLine s) : OneLine (b :: s) := by
  simp only [OneLine, List.mem_cons, not_or]
  exact ⟨⟨hb.1.symm, hs.1⟩, hb.2.symm, hs.2⟩

/-- What a text lacks is not found in it, stripped or not. -/
theorem Lacks.find (hs : Lacks chars s) (hmarks : ∀ b ∈ chars, b ∉ iniInlineCommentPrefixes) :
    ∀ b ∈ (findCharsOrComment (rstrip s) chars).2.head?, b ∉ chars := by
  obtain ⟨body, after, rfl, hclear, hafter⟩ := hs
  have hfind : findFrom chars false (body ++ after) = (body, after) :=
    find_clear hclear fun b hb => .inr ⟨(hafter b hb).2, (hafter b hb).1⟩
  have hcut : rstrip (body ++ after) <+: body ++ after := List.rdropWhile_prefix _ _
  intro b hb hmem
  have hwhole := findFrom_initial_head hcut b hb
  rw [hfind] at hwhole
  exact hmarks b hmem (hafter b hwhole).1

namespace Pair

variable {p : Pair}

end Pair

namespace IniLine

variable {x : Place} {l : IniLine} {moved : Bool}

end IniLine

namespace Parsing

variable {σ : Type} {handler : IniHandler σ} {p : Parsing σ} {l : IniLine} {moved : Bool}

def place (p : Parsing σ) : Place := ⟨p.sectionName, p.prev_name⟩

/-- What a line means to the parser, where the handler takes everything. -/
def meant (handler : IniHandler σ) (p : Parsing σ) : IniLine → Parsing σ
  | .wrong _ => p.fail
  | l => { p with
      sectionName := (l.place p.place).sectionName
      prev_name := (l.place p.place).prev_name
      user := (l.call p.place).toList.foldl (Call.run handler) p.user }

/-- The parser after the round in which it has read the line. -/
def next (handler : IniHandler σ) (p : Parsing σ) (l : IniLine) : Parsing σ :=
  { p with lineno := p.lineno + 1 }.meant handler l

theorem handle_accepted (haccepts : ∀ u s n v, (handler u s n v).1 = true) (name value : List Byte) :
    p.handle handler name value =
      { p with user := Call.run handler p.user ⟨p.sectionName, name, value⟩ } := by
  have htakes := haccepts p.user p.sectionName name value
  cases h : handler p.user p.sectionName name value with
  | mk ok user =>
    obtain rfl : ok = true := by simpa [h] using htakes
    simp [handle, Call.run, h]

end Parsing

section Documents

variable {σ : Type} {handler : IniHandler σ} {marked : Bool} {x : Place} {ls : List IniLine}

/-- The calls that the lines ask for, in order. -/
def calls : Place → List IniLine → List Call
  | _, [] => []
  | x, l :: ls => (l.call x).toList ++ calls (l.place x) ls

/-- The lines of a file, the first perhaps behind a byte order mark. -/
def texts (marked : Bool) : List IniLine → List (List Byte)
  | [] => []
  | l :: ls => ((if marked then Parsing.bom else []) ++ l.text) :: ls.map IniLine.text

def fileOf (marked : Bool) (ls : List IniLine) : List Byte :=
  (texts marked ls).flatMap fun text => text ++ [newline]

/-- The bytes of a text file, whose lines end in `\r\n` or in `\n` only. -/
def stored (crlf : Bool) (s : List Byte) : List Byte :=
  if crlf then s.flatMap fun b => if b = newline then [carriageReturn, newline] else [b] else s

/-- What text mode neither changes nor takes for the end. -/
def Storable (s : List Byte) : Prop := ∀ b ∈ s, b ≠ endOfText ∧ b ≠ carriageReturn

end Documents

end DummyClients

end GameLift
