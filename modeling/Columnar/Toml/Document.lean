import Columnar.Toml.Scalar

namespace Columnar.Toml

/-- How a table came about: by its own header, by the header of a table inside it, or by dotted keys. -/
inductive Origin
  | header | implied | dotted
  deriving DecidableEq, Repr

/-- A document under construction. Only its tables may still grow. -/
inductive Node
  | value (value : Value)
  | table (origin : Origin) (entries : List (String × Node))
  | tables (items : List (List (String × Node)))

abbrev Entries : Type := List (String × Node)

mutual

def Node.toValue : Node → Value
  | .value v => v
  | .table _ entries => .table (entryValues entries)
  | .tables items => .array (itemValues items)

def entryValues : List (String × Node) → List (String × Value)
  | [] => []
  | (key, node) :: rest => (key, node.toValue) :: entryValues rest

def itemValues : List (List (String × Node)) → List Value
  | [] => []
  | entries :: rest => .table (entryValues entries) :: itemValues rest

end

namespace Entries

def find? (entries : Entries) (key : String) : Option Node :=
  (List.find? (fun e => e.1 = key) entries).map (·.2)

def put (entries : Entries) (key : String) (node : Node) : Entries :=
  if entries.any (·.1 = key) then entries.map fun e => if e.1 = key then (key, node) else e
  else entries ++ [(key, node)]

/-- Updates the table at the end of a header's path. Missing tables on the way are implied, and an array of
tables stands for its last one. -/
def underHeader (update : Entries → Option Entries) : List String → Entries → Option Entries
  | [], entries => update entries
  | key :: path, entries =>
    match entries.find? key with
    | none => (underHeader update path []).map fun t => entries.put key (.table .implied t)
    | some (.table origin t) =>
      (underHeader update path t).map fun t => entries.put key (.table origin t)
    | some (.tables items) =>
      (underHeader update path (items.getLast?.getD [])).map fun t =>
        entries.put key (.tables (items.dropLast ++ [t]))
    | some (.value _) => none

/-- Defines a key. Its path leads through tables that no header of their own opened, an array of tables
standing for its last one; tables that are missing become its own. Only those, and the table at the start,
take a new key; `takes` tells whether this table is one. -/
def define (value : Value) (takes : Bool) : List String → Entries → Option Entries
  | [], _ => none
  | [key], entries =>
    match takes, entries.find? key with
    | true, none => some (entries.put key (.value value))
    | _, _ => none
  | key :: path, entries =>
    match entries.find? key with
    | none => (define value true path []).map fun t => entries.put key (.table .dotted t)
    -- A table with a header of its own is complete, and dotted keys add nothing to it.
    | some (.table .header _) | some (.value _) => none
    | some (.table origin t) =>
      (define value (origin = .dotted) path t).map fun t => entries.put key (.table origin t)
    | some (.tables items) =>
      (define value false path (items.getLast?.getD [])).map fun t =>
        entries.put key (.tables (items.dropLast ++ [t]))

def openTable (key : String) (entries : Entries) : Option Entries :=
  match entries.find? key with
  | none => some (entries.put key (.table .header []))
  | some (.table .implied t) => some (entries.put key (.table .header t))
  | some _ => none

def openItem (key : String) (entries : Entries) : Option Entries :=
  match entries.find? key with
  | none => some (entries.put key (.tables [[]]))
  | some (.tables items) => some (entries.put key (.tables (items ++ [[]])))
  | some _ => none

end Entries

/-! ### Reading -/

def isBlank (c : Char) : Bool := c = ' ' || c = '\t'

def skipBlanks (cs : List Char) : List Char := cs.dropWhile isBlank

/-- Skips blanks, line breaks and comments; fails on a control character. -/
def skipTrivia (inComment : Bool) : List Char → Option (List Char)
  | [] => some []
  | '\n' :: rest => skipTrivia false rest
  | '\r' :: '\n' :: rest => skipTrivia false rest
  | c :: rest =>
    if inComment then if isControl c then none else skipTrivia true rest
    else if isBlank c then skipTrivia false rest
    else if c = '#' then skipTrivia true rest
    else some (c :: rest)

def endLine (cs : List Char) : Option (List Char) :=
  match skipBlanks cs with
  | [] => some []
  | '\n' :: rest => some rest
  | '\r' :: '\n' :: rest => some rest
  | '#' :: rest => skipTrivia true rest
  | _ => none

def isKeyChar (c : Char) : Bool := c.isAlphanum || c = '_' || c = '-'

def keyPart? (cs : List Char) : Option (String × List Char) :=
  match cs with
  | [] => none
  | c :: rest =>
    if c = quoteMark || c = apostrophe then
      (lineString c (c = quoteMark) rest).map fun (text, r) => (String.ofList text, r)
    else
      let (w, rest) := cs.span isKeyChar
      if w.isEmpty then none else some (String.ofList w, rest)

/-- The most parts that a key may have, and the most arrays and inline tables inside each other. -/
def deepest : Nat := 80

/-- The parts of a key, with points between them, at most `parts` of them. -/
def key? (parts : Nat) (cs : List Char) : Option (List String × List Char) :=
  match parts with
  | 0 => none
  | parts + 1 => do
    let (part, rest) ← keyPart? (skipBlanks cs)
    match skipBlanks rest with
    | '.' :: rest => do
      let (more, rest) ← key? parts rest
      return (part :: more, rest)
    | rest => return ([part], rest)

/-- What follows a key up to its value. Inside an inline table lines may break there. -/
def equals? (inline : Bool) (cs : List Char) : Option (List Char) := do
  match ← skip cs with
  | '=' :: rest => skip rest
  | _ => none
where
  skip (cs : List Char) : Option (List Char) :=
    if inline then skipTrivia false cs else some (skipBlanks cs)

mutual

/-- A value, in which arrays and inline tables lie at most `depth` deep. -/
def value? (fuel depth : Nat) (cs : List Char) : Option (Value × List Char) :=
  match fuel, cs with
  | 0, _ | _, [] => none
  | fuel + 1, c :: rest =>
    match depth with
    | 0 => if c = '[' || c = '\x7b' then none else scalar? cs
    | depth + 1 =>
      if c = '[' then (items? fuel depth rest).map fun (items, r) => (.array items, r)
      else if c = '\x7b' then
        (inline? fuel depth [] rest).map fun (entries, r) => (.table entries, r)
      else scalar? cs

def items? (fuel depth : Nat) (cs : List Char) : Option (List Value × List Char) :=
  match fuel with
  | 0 => none
  | fuel + 1 => do
    let cs ← skipTrivia false cs
    match cs with
    | ']' :: rest => return ([], rest)
    | cs =>
      let (item, rest) ← value? fuel depth cs
      match ← skipTrivia false rest with
      | ',' :: rest => do
        let (items, rest) ← items? fuel depth rest
        return (item :: items, rest)
      | ']' :: rest => return ([item], rest)
      | _ => none

def inline? (fuel depth : Nat) (entries : Entries) (cs : List Char) :
    Option (List (String × Value) × List Char) :=
  match fuel with
  | 0 => none
  | fuel + 1 => do
    let cs ← skipTrivia false cs
    match cs with
    | '\x7d' :: rest => return (entryValues entries, rest)
    | cs =>
      let (path, rest) ← key? deepest cs
      let (value, rest) ← value? fuel depth (← equals? true rest)
      let entries ← entries.define value true path
      match ← skipTrivia false rest with
      | ',' :: rest => inline? fuel depth entries rest
      | '\x7d' :: rest => return (entryValues entries, rest)
      | _ => none

end

def header? (cs : List Char) : Option (List String × List Char) := do
  let (path, rest) ← key? deepest cs
  match rest with
  | ']' :: rest => return (path, rest)
  | _ => none

def splitLast? (path : List String) : Option (List String × String) :=
  path.getLast?.map fun last => (path.dropLast, last)

/-- Reads statements to the end of the text. Keys are defined in the table that `current` leads to. -/
def statements (fuel : Nat) (root : Entries) (current : List String) (cs : List Char) :
    Option Entries :=
  match fuel with
  | 0 => none
  | fuel + 1 => do
    let cs ← skipTrivia false cs
    match cs with
    | [] => return root
    | '[' :: '[' :: rest => do
      let (path, rest) ← header? rest
      let (parents, last) ← splitLast? path
      let root ← root.underHeader (Entries.openItem last) parents
      match rest with
      | ']' :: rest => statements fuel root path (← endLine rest)
      | _ => none
    | '[' :: rest => do
      let (path, rest) ← header? rest
      let (parents, last) ← splitLast? path
      let root ← root.underHeader (Entries.openTable last) parents
      statements fuel root path (← endLine rest)
    | cs => do
      let (path, rest) ← key? deepest cs
      let (value, rest) ← value? (2 * rest.length) deepest (← equals? false rest)
      let root ← root.underHeader (Entries.define value true path) current
      statements fuel root current (← endLine rest)

def dropMark : List Char → List Char
  | '\ufeff' :: cs => cs
  | cs => cs

/-- The entries of a document, if the text is one. A byte order mark may open it. -/
def document? (text : String) : Option (List (String × Value)) :=
  let cs := dropMark text.toList
  (statements (cs.length + 1) [] [] cs).map entryValues

end Columnar.Toml
