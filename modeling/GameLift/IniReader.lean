import Mathlib.Data.List.DropRight
import GameLift.Launcher
import GameLift.ClientRequests
import GameLift.LineReader

/-! The reader of config.ini. Lines come from `fgets` of a file in text mode, in pieces of at
most 199 bytes; a line that is indented goes on with the value before it, and a wrong line is
only counted. -/

namespace GameLift

namespace DummyClients

open Loop (Supplies readBody)

def maxSection : Nat := 50

def maxName : Nat := 50

def iniMaxLine : Nat := 200

def char (c : Char) : Byte := UInt8.ofNat c.toNat

def newline : Byte := char '\n'

def carriageReturn : Byte := char '\r'

/-- Ctrl-Z, which ends a file that is read in text mode. -/
def endOfText : Byte := 0x1A

def iniInlineCommentPrefixes : List Byte := [char ';']

def isspace (b : Byte) : Bool := b = char ' ' || (9 ≤ b && b ≤ 13)

def tolower (b : Byte) : Byte := if char 'A' ≤ b ∧ b ≤ char 'Z' then b + 32 else b

def rstrip (s : List Byte) : List Byte := s.rdropWhile isspace

def lskip (s : List Byte) : List Byte := s.dropWhile isspace

/-- The text before the place that is found, and the text from there on. -/
def findFrom (chars : List Byte) : Bool → List Byte → List Byte × List Byte
  | _, [] => ([], [])
  | was_space, b :: s =>
    if b ∈ chars ∨ (was_space ∧ b ∈ iniInlineCommentPrefixes) then ([], b :: s)
    else (b :: (findFrom chars (isspace b) s).1, (findFrom chars (isspace b) s).2)

def findCharsOrComment (s chars : List Byte) : List Byte × List Byte := findFrom chars false s

/-- The text that the copy holds. -/
def strncpy0 (src : List Byte) (size : Nat) : List Byte := src.take (size - 1)

/-- What the handler is given and what it answers, over its `user` data. -/
abbrev IniHandler (σ : Type) := σ → List Byte → List Byte → List Byte → Bool × σ

/-- The variables of `ini_parse_stream`; `sectionName` is its `section`. -/
structure Parsing (σ : Type) where
  sectionName : List Byte
  prev_name : List Byte
  lineno : Nat
  error : Nat
  user : σ

variable {σ : Type}

namespace Parsing

def init (user : σ) : Parsing σ := ⟨[], [], 0, 0, user⟩

def fail (p : Parsing σ) : Parsing σ :=
  if p.error = 0 then { p with error := p.lineno } else p

def handle (handler : IniHandler σ) (name value : List Byte) (p : Parsing σ) : Parsing σ :=
  let (ok, user) := handler p.user p.sectionName name value
  let p := { p with user := user }
  if ok then p else p.fail

def bom : List Byte := [0xEF, 0xBB, 0xBF]

/-- `start` once it has been stripped and skipped, and whether it is behind `line`. -/
def start (lineno : Nat) (line : List Byte) : Bool × List Byte :=
  let marked : Bool := lineno = 1 && line.take 3 = bom
  let text := rstrip (if marked then line.drop 3 else line)
  (marked || (lskip text).length < text.length, lskip text)

/-- A line that begins with a bracket, without it. -/
def sectionLine (rest : List Byte) (p : Parsing σ) : Parsing σ :=
  match findCharsOrComment rest [char ']'] with
  | (name, b :: _) =>
    if b = char ']' then { p with sectionName := strncpy0 name maxSection, prev_name := [] }
    else p.fail
  | (_, []) => p.fail

def pairLine (handler : IniHandler σ) (start : List Byte) (p : Parsing σ) : Parsing σ :=
  match findCharsOrComment start [char '=', char ':'] with
  | (name, b :: value) =>
    if b = char '=' ∨ b = char ':' then
      let name := rstrip name
      let value := rstrip (lskip (findCharsOrComment value []).1)
      { p with prev_name := strncpy0 name maxName }.handle handler name value
    else p.fail
  | (_, []) => p.fail

/-- A line that is `start` once it has been stripped; `moved` is `start > line`. -/
def lineFrom (handler : IniHandler σ) (moved : Bool) (start : List Byte) (p : Parsing σ) :
    Parsing σ :=
  match start with
  | [] => p
  | c :: rest =>
    if c = char ';' ∨ c = char '#' then p
    else if p.prev_name ≠ [] ∧ moved then p.handle handler p.prev_name (c :: rest)
    else if c = char '[' then p.sectionLine rest
    else p.pairLine handler (c :: rest)

/-- One round of the loop; the buffer holds `line`, up to its terminator. -/
def line (handler : IniHandler σ) (p : Parsing σ) (line : List Byte) : Parsing σ :=
  let p := { p with lineno := p.lineno + 1 }
  let (moved, start) := start p.lineno line
  p.lineFrom handler moved start

end Parsing

/-- What a stream of `fopen(filename, "r")` gives on Windows of the bytes of a file. -/
def textMode : List Byte → List Byte
  | [] => []
  | b :: s =>
    if b = endOfText then []
    else if b = carriageReturn ∧ s.head? = some newline then textMode s
    else b :: textMode s

/-- The buffer after the call, up to its terminator, and what is left of the stream. -/
def fgets (num : Nat) (stream : List Byte) : Option (List Byte × List Byte) :=
  if stream = [] then none
  else
    let (line, rest) := Lines.takeLine newline (num - 1) stream
    some ((CText.ofString line).bytes, rest)

def iniParseStream {S : Type} (reader : Nat → S → Option (List Byte × S)) (handler : IniHandler σ)
    (fuel : Nat) (stream : S) (user : σ) : Option (Nat × σ) :=
  (Loop.loop (readBody (reader iniMaxLine) (Parsing.line handler)) fuel (stream, .init user)).map
    fun p => (p.error, p.user)

/-- No file answers -1. -/
def iniParse (handler : IniHandler σ) (fuel : Nat) (file : Option (List Byte)) (user : σ) :
    Option (Int × σ) :=
  match file with
  | none => some (-1, user)
  | some content =>
    (iniParseStream fgets handler fuel (textMode content) user).map fun r => (r.1, r.2)

/-- `std::map<std::string, std::string>` by its keys. -/
abbrev Values := List Byte → Option (List Byte)

structure INIReader where
  error : Int
  values : Values

namespace INIReader

def makeKey (sectionName name : List Byte) : List Byte :=
  (sectionName ++ char '=' :: name).map tolower

/-- `_values[key] += ...`, a line break between two values. -/
def append (old value : List Byte) : List Byte :=
  (if 0 < old.length then old ++ [newline] else old) ++ value

def valueHandler : IniHandler Values := fun values sectionName name value =>
  let key := makeKey sectionName name
  (true, Function.update values key (some (append ((values key).getD []) value)))

def new (fuel : Nat) (file : Option (List Byte)) : Option INIReader :=
  (iniParse valueHandler fuel file fun _ => none).map fun r => ⟨r.1, r.2⟩

def parseError (r : INIReader) : Int := r.error

def get (r : INIReader) (sectionName name default : List Byte) : List Byte :=
  (r.values (makeKey sectionName name)).getD default

end INIReader

end DummyClients

end GameLift
