import Mathlib.Data.Nat.Digits.Lemmas
import GameLift.IniFile

/-! The options of the dummy clients, as `_tmain` reads them out of config.ini. -/

namespace GameLift

namespace DummyClients

variable {s : List Byte} {n d : Nat} {x : Place} {marked : Bool}

def digitValue (b : Byte) : Nat :=
  if char '0' ≤ b ∧ b ≤ char '9' then b.toNat - 48
  else if char 'a' ≤ tolower b ∧ tolower b ≤ char 'z' then (tolower b).toNat - 87
  else 36

/-- The number that the digits at the beginning of a text make. -/
def numeral (base : Nat) (s : List Byte) : Nat :=
  (s.takeWhile fun b => digitValue b < base).foldl (fun n b => base * n + digitValue b) 0

/-- What follows a zero that begins a hexadecimal number. -/
def isHex : List Byte → Bool
  | x :: h :: _ => tolower x = char 'x' && digitValue h < 16
  | _ => false

/-- The number after the sign, in the base that its digits begin with. -/
def magnitude : List Byte → Option Nat
  | [] => none
  | b :: rest =>
    if b = char '0' then some (if isHex rest then numeral 16 rest.tail else numeral 8 (b :: rest))
    else if digitValue b < 10 then some (numeral 10 (b :: rest))
    else none

def clampLong (n : Int) : Int := max (-2147483648) (min n 2147483647)

/-- `strtol` with base 0 for a `long` of 32 bits; `none` where it converts nothing. -/
def strtol (s : List Byte) : Option Int :=
  match lskip s with
  | [] => none
  | b :: rest =>
    if b = char '-' then (magnitude rest).map fun n : Nat => clampLong (-n)
    else if b = char '+' then (magnitude rest).map fun n : Nat => clampLong n
    else (magnitude (b :: rest)).map fun n : Nat => clampLong n

def INIReader.getInteger (r : INIReader) (sectionName name : List Byte) (default : Int) : Int :=
  (strtol (r.get sectionName name [])).getD default

/-- The value of an `int`, which has 32 bits. -/
def wrapInt (n : Int) : Int := n.bmod 0x100000000

structure Settings where
  aliasId : List Byte
  region : List Byte
  matchQueue : List Byte
  maxGameSessionCount : Int
  PLAYER_ACTION_REQUEST : Int
  PLAYER_ACTION_INTERVAL : Int
  TEST_PLAYER_SESSION_EXCEPT : Int

namespace Settings

def config : List Byte := asciiBytes "config"

def read (r : INIReader) : Settings where
  aliasId := r.get config (asciiBytes "ALIAS_ID") (asciiBytes "TEST_LOCAL")
  region := r.get config (asciiBytes "GAMELIFT_REGION") (asciiBytes "127.0.0.1:9080")
  matchQueue := r.get config (asciiBytes "MATCH_QUEUE_NAME") (asciiBytes "NotUse")
  maxGameSessionCount := r.getInteger config (asciiBytes "MAX_GAME_SESSIONS") 1
  PLAYER_ACTION_REQUEST := r.getInteger config (asciiBytes "PLAYER_ACTION_REQUEST") 60
  PLAYER_ACTION_INTERVAL := r.getInteger config (asciiBytes "PLAYER_ACTION_INTERVAL") 1000
  TEST_PLAYER_SESSION_EXCEPT := wrapInt (testPlayerSessionExcept
    (r.getInteger config (asciiBytes "DUMMY_PLAYER_SESSION_PER_GAME_SESSION") 8))

end Settings

section Numbers

def digit (d : Nat) : Byte := UInt8.ofNat (48 + d)

/-- A number as it is written, without leading zeros. -/
def decimal (n : Int) : List Byte :=
  (if n < 0 then [char '-'] else []) ++
    if n = 0 then [char '0'] else (Nat.digits 10 n.natAbs).reverse.map digit

def IsLong (m : Int) : Prop := -2147483648 ≤ m ∧ m ≤ 2147483647

end Numbers

section Written

variable {os : List (List Byte × List Byte)} {o : List Byte × List Byte} {sectionName : List Byte}

/-- A section with its options, as it is written most simply. -/
def written (sectionName : List Byte) (os : List (List Byte × List Byte)) : List IniLine :=
  .heading sectionName [] :: os.map fun o => .pair { name := o.1, value := o.2 }

structure Plain (value : List Byte) : Prop where
  clear : Clear [] value
  trimmed : Trimmed value
  oneLine : OneLine value
  storable : Storable value

end Written

namespace Settings

def options (t : Settings) : List (List Byte × List Byte) :=
  [(asciiBytes "ALIAS_ID", t.aliasId),
    (asciiBytes "GAMELIFT_REGION", t.region),
    (asciiBytes "MATCH_QUEUE_NAME", t.matchQueue),
    (asciiBytes "MAX_GAME_SESSIONS", decimal t.maxGameSessionCount),
    (asciiBytes "PLAYER_ACTION_REQUEST", decimal t.PLAYER_ACTION_REQUEST),
    (asciiBytes "PLAYER_ACTION_INTERVAL", decimal t.PLAYER_ACTION_INTERVAL),
    (asciiBytes "DUMMY_PLAYER_SESSION_PER_GAME_SESSION",
      decimal (maxPlayerPerGame - t.TEST_PLAYER_SESSION_EXCEPT))]

/-- What one line of config.ini can hold. -/
structure Fits (t : Settings) : Prop where
  texts : ∀ text ∈ [t.aliasId, t.region, t.matchQueue], Plain text ∧ text.length ≤ 150
  numbers : ∀ n ∈ [t.maxGameSessionCount, t.PLAYER_ACTION_REQUEST, t.PLAYER_ACTION_INTERVAL,
    maxPlayerPerGame - t.TEST_PLAYER_SESSION_EXCEPT], IsLong n
  except : IsLong t.TEST_PLAYER_SESSION_EXCEPT

/-- The names of the options, which do not depend on their values. -/
def names : List (List Byte) := (options ⟨[], [], [], 0, 0, 0, 0⟩).map Prod.fst

variable {t : Settings}

/-- The file that has every option. -/
def file (t : Settings) (marked crlf : Bool) : List Byte :=
  stored crlf (fileOf marked (written config t.options))

end Settings

end DummyClients

end GameLift
