import Columnar.Config.Settings

namespace Columnar

structure HashConfig where
  memoCapacity : Nat
  deriving DecidableEq, Repr

structure Config where
  hash : HashConfig
  deriving DecidableEq, Repr

namespace Config

open Toml (Value)

def default : Config := ⟨⟨0⟩⟩

/-! ### Environment variables -/

def envPrefix : String := "colkern_"

/-- A variable's value is a boolean, an integer or a float if it reads as one, else text. -/
def envValue (text : String) : Value :=
  let cs := text.toList
  match text.toLower with
  | "true" => .boolean true
  | "false" => .boolean false
  | _ =>
    match (Number.readInt? cs).bind Toml.withinInt64 with
    | some i => .integer i
    | none =>
      match Number.readFloat? cs with
      | some x => .float x
      | none => .string text

/-- The lower case of a letter. Besides the ASCII capitals one character has an ASCII lower case: the sign
of the unit kelvin. -/
def lowerChar (c : Char) : Char := if c = '\u212a' then 'k' else c.toLower

/-- Two underscores divide the parts of a name, as a point divides those of a key. -/
def pointed : List Char → List Char
  | [] => []
  | '_' :: '_' :: cs => '.' :: pointed cs
  | c :: cs => c :: pointed cs

/-- The key that a variable sets, if its name has the prefix; the case of letters does not matter. -/
def envKey? (name : String) : Option String :=
  let cs := name.toList.map lowerChar
  let start := envPrefix.toList
  if start.isPrefixOf cs then some (String.ofList (pointed (cs.drop start.length))) else none

def addEnvironment (settings : Settings) (environment : List (String × String)) :
    Except Failure Settings :=
  environment.foldlM (fun s (name, text) =>
    match envKey? name with
    | some key => s.add key (envValue text)
    | none => .ok s) settings

/-! ### Reading settings -/

/-- Words that stand for yes and no, in any case, and else digits of a 64-bit number. -/
def capacityOfText? (text : String) : Option Nat :=
  match text.toLower with
  | "true" | "on" | "yes" => some 1
  | "false" | "off" | "no" => some 0
  | _ => (Number.readNat? text.toList).filter (· < 0x10000000000000000)

/-- A number of slots: floats are rounded and kept within 64 bits. -/
def capacity? : Value → Option Nat
  | .integer i => if 0 ≤ i then some i.toNat else none
  | .boolean b => some b.toNat
  | .float x => some x.round.toUInt64.toNat
  | .string text | .dateTime text => capacityOfText? text
  | .array _ | .table _ => none

def memoCapacityKey : String := "memo_capacity"

def hashKey : String := "hash"

/-- A table with no other key than the one field, or a list whose first item is that field. -/
def hash? : Value → Option HashConfig
  | .table entries =>
    if entries.all (·.1 = memoCapacityKey) then
      match Settings.find? entries memoCapacityKey with
      | some value => (capacity? value).map HashConfig.mk
      | none => some default.hash
    else none
  | .array [] => some default.hash
  | .array (value :: _) => (capacity? value).map HashConfig.mk
  | _ => none

def ofSettings? (settings : Settings) : Option Config :=
  if settings.all (·.1 = hashKey) then
    match settings.find? hashKey with
    | some value => (hash? value).map Config.mk
    | none => some default
  else none

def ofSettings (settings : Settings) : Except Failure Config :=
  match ofSettings? settings with
  | some config => .ok config
  | none => .error (.config "invalid settings")

def readDocument (text : String) : Except Failure Settings :=
  match Toml.document? text with
  | some document => Settings.addDocument [] document
  | none => .error (.config "invalid document")

def ofText (text : String) : Except Failure Config := do ofSettings (← readDocument text)

/-- The configuration of a file, if one is named, and of the environment. A named file that has no text
is a failure. -/
def load (file : Option (Option String)) (environment : List (String × String)) :
    Except Failure Config := do
  let settings ← match file with
    | none => pure []
    | some none => throw (.config "configuration file not found")
    | some (some text) => readDocument text
  ofSettings (← addEnvironment settings environment)

end Config

end Columnar
