namespace Columnar.Arguments

inductive Fault
  | missingRequired
  | missingSubcommand
  | unknown
  | conflict
  | invalidSubcommand
  | invalidValue
  | tooManyValues
  | help
  | helpOnMissing
  | version
  deriving DecidableEq, Repr

/-- What a switch does: take one value once, take one or more values any number of times, or ask for
a text. -/
inductive Role
  | single | several | help | version
  deriving DecidableEq, Repr

structure Switch where
  long : String
  short : Option Char
  role : Role
  deriving DecidableEq, Repr

structure Level where
  switches : List Switch
  subcommands : List String
  deriving DecidableEq, Repr

/-- The values of a switch that is not finished yet. -/
structure Pending where
  switch : Switch
  values : List String
  accepting : Bool
  deriving DecidableEq, Repr

structure Scan where
  given : List (String × List String)
  pending : Option Pending
  /-- Whether only plain words may follow, which no level has a place for. -/
  trailing : Bool
  deriving DecidableEq, Repr

inductive Word
  | escape
  | long (name : String) (value : Option String)
  | short (letter : Char) (rest : List Char)
  | plain
  deriving DecidableEq, Repr

def Word.ofString (s : String) : Word :=
  match s.toList with
  | ['-', '-'] => .escape
  | '-' :: '-' :: cs =>
    let (name, rest) := cs.span (· ≠ '=')
    .long (String.ofList name) (match rest with
      | [] => none
      | _ :: value => some (String.ofList value))
  | '-' :: letter :: rest => .short letter rest
  | _ => .plain

namespace Scan

def start : Scan := ⟨[], none, false⟩

def values (scan : Scan) (name : String) : List String :=
  ((scan.given.filter (·.1 = name)).map (·.2)).flatten

/-- Gives a switch its values, of which there must be some; a single switch is given only once. -/
def give (scan : Scan) (switch : Switch) (values : List String) : Except Fault Scan :=
  if values.isEmpty then .error .invalidValue
  else if switch.role = .single ∧ scan.given.any (·.1 = switch.long) then .error .conflict
  else .ok { scan with given := scan.given ++ [(switch.long, values)] }

def resolve (scan : Scan) : Except Fault Scan :=
  match scan.pending with
  | none => .ok scan
  | some p => { scan with pending := none }.give p.switch p.values

def takeSwitch (scan : Scan) (switch : Switch) (attached : Option String) : Except Fault Scan := do
  let scan ← scan.resolve
  match switch.role, attached with
  | .help, _ => throw .help
  | .version, _ => throw .version
  | _, some value => scan.give switch [value]
  | _, none => return { scan with pending := some ⟨switch, [], true⟩ }

def takeLong (scan : Scan) (level : Level) (name : String) (value : Option String) :
    Except Fault Scan :=
  match level.switches.find? (·.long = name) with
  | none => .error .unknown
  | some switch =>
    match switch.role, value with
    | .help, some _ | .version, some _ => .error .tooManyValues
    | _, _ => scan.takeSwitch switch value

def takeShort (scan : Scan) (level : Level) (letter : Char) (rest : List Char) :
    Except Fault Scan :=
  match level.switches.find? (·.short = some letter) with
  | none => .error .unknown
  | some switch => scan.takeSwitch switch (match rest with
    | [] => none
    | '=' :: value => some (String.ofList value)
    | value => some (String.ofList value))

/-- A word that is no value, no switch and no subcommand. -/
def stray (level : Level) : Fault :=
  if level.subcommands.isEmpty then .unknown else .invalidSubcommand

def takePlain (scan : Scan) (level : Level) (word : String) : Except Fault Scan :=
  match scan.pending with
  | some p =>
    if p.accepting then
      .ok { scan with pending := some ⟨p.switch, p.values ++ [word], p.switch.role = .several⟩ }
    else .error (stray level)
  | none => .error (stray level)

def isAccepting (scan : Scan) : Bool := scan.pending.any (·.accepting)

def takeWord (scan : Scan) (level : Level) (word : String) : Except Fault Scan :=
  match Word.ofString word with
  | .escape => .ok { scan with trailing := true }
  | .long name value => scan.takeLong level name value
  | .short letter rest => scan.takeShort level letter rest
  | .plain => scan.takePlain level word

/-- Takes words up to a subcommand, which comes back with the words after it. -/
def words (level : Level) (scan : Scan) :
    List String → Except Fault (Scan × Option (String × List String))
  | [] => .ok (scan, none)
  | word :: rest =>
    if scan.trailing then
      .error (if level.subcommands.contains word then .unknown else stray level)
    else if !scan.isAccepting && level.subcommands.contains word then .ok (scan, some (word, rest))
    else do words level (← scan.takeWord level word) rest

end Scan

end Columnar.Arguments
