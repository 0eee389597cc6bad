import Columnar.Failure
import Columnar.Toml.Document

namespace Columnar.Config

open Toml (Value)

abbrev Settings : Type := List (String × Value)

namespace Settings

def find? (settings : Settings) (key : String) : Option Value :=
  (List.find? (fun e => e.1 = key) settings).map (·.2)

def put (settings : Settings) (key : String) (value : Value) : Settings :=
  if settings.any (·.1 = key) then settings.map fun e => if e.1 = key then (key, value) else e
  else settings ++ [(key, value)]

def ofValue : Option Value → Settings
  | some (.table entries) => entries
  | _ => []

end Settings

/-! ### Paths -/

inductive Step
  | entry (key : String)
  | item (index : Int)
  deriving DecidableEq, Repr

structure KeyPath where
  root : String
  steps : List Step
  deriving DecidableEq, Repr

/-- A number between brackets, with blanks around it; and what comes after it. -/
def index? (cs : List Char) : Option (Int × List Char) :=
  let (negative, cs) := match Toml.skipBlanks cs with
    | '-' :: cs => (true, cs)
    | cs => (false, cs)
  let (digits, rest) := cs.span Char.isDigit
  let n : Int := Number.digitsValue 10 digits
  match Toml.skipBlanks rest with
  | ']' :: rest =>
    if digits.isEmpty then none
    else (Toml.withinInt64 (if negative then -n else n)).map (·, rest)
  | _ => none

/-- Steps are spelled `.key` and `[index]`. -/
def steps? (fuel : Nat) (cs : List Char) : Option (List Step) :=
  match fuel, cs with
  | 0, _ => none
  | _, [] => some []
  | fuel + 1, '.' :: cs =>
    let (key, rest) := cs.span Toml.isKeyChar
    if key.isEmpty then none
    else (steps? fuel rest).map (.entry (String.ofList key) :: ·)
  | fuel + 1, '[' :: cs => do
    let (index, rest) ← index? cs
    return .item index :: (← steps? fuel rest)
  | _, _ => none

/-- The path that a key spells. A key that spells none stands for itself. -/
def KeyPath.ofKey (key : String) : KeyPath :=
  let (root, rest) := key.toList.span Toml.isKeyChar
  match root, steps? (rest.length + 1) rest with
  | [], _ | _, none => ⟨key, []⟩
  | root, some steps => ⟨String.ofList root, steps⟩

/-! ### Setting a value -/

def filler : Value := .table []

def listItems : Option Value → List Value
  | some (.array items) => items
  | _ => []

def longestList : Nat := 0x8000000

def Step.isReachable : Step → Bool
  | .entry _ => true
  | .item index => index.natAbs < longestList

/-- Fills a list up until it has an item of that index, and finds its place. Negative indices count from the
end, so that they fill up at the front. -/
def reach (items : List Value) (index : Int) : List Value × Nat :=
  let i := if index < 0 then items.length + index else index
  if i < 0 then (List.replicate i.natAbs filler ++ items, 0)
  else (items ++ List.replicate (i.toNat + 1 - items.length) filler, i.toNat)

mutual

/-- What a key holds after a source gave it a value: tables grow, all else is replaced. -/
def overlay (old : Option Value) : Value → Value
  | .table entries => .table (overlayEntries (Settings.ofValue old) entries)
  | value => value

def overlayEntries (settings : Settings) : List (String × Value) → Settings
  | [] => settings
  | (key, value) :: rest =>
    overlayEntries (settings.put key (overlay (settings.find? key) value)) rest

end

/-- Sets the value at the end of steps; what is no table or no list on the way becomes one. -/
def setAt (value : Value) : List Step → Option Value → Value
  | [], old => overlay old value
  | .entry key :: steps, old =>
    let entries := Settings.ofValue old
    .table (entries.put key (setAt value steps (entries.find? key)))
  | .item index :: steps, old =>
    let (items, i) := reach (listItems old) index
    .array (items.set i (setAt value steps items[i]?))

namespace Settings

def set (settings : Settings) (path : KeyPath) (value : Value) : Settings :=
  settings.put path.root (setAt value path.steps (settings.find? path.root))

/-- Gives a key its value, unless a list on the path would grow too long. -/
def add (settings : Settings) (key : String) (value : Value) : Except Failure Settings :=
  let path := KeyPath.ofKey key
  if path.steps.all Step.isReachable then .ok (settings.set path value) else .error .outOfBounds

def addDocument (settings : Settings) (document : List (String × Value)) : Except Failure Settings :=
  document.foldlM (fun s (key, value) => s.add key value) settings

end Settings

end Columnar.Config
