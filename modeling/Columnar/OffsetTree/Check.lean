import Columnar.OffsetTree

namespace Columnar.OffsetTree

/-! ### Layouts of trees -/

/-- What stands in a field; `Kind` names the kinds of tables. -/
inductive Shape (Kind : Type)
  | number (type : String) (size : Nat)
  | text
  | list (type : String) (size alignment : Nat)
  | table (kind : Kind)
  | tables (kind : Kind)

/-- A field and its place in the list of fields. The variant that a tag stands for has a name and a kind; a tag
that stands for none is let through. -/
inductive Slot (Kind : Type)
  | field (name : String) (slot : Nat) (shape : Shape Kind)
  | union (tag : String) (tagSlot : Nat) (variant : String) (variantSlot : Nat)
      (variant? : Nat → Option (String × Kind))

/-! ### Checks -/

/-- What has been seen so far: bytes, as often as they were looked at, and tables. -/
structure Seen where
  bytes : Nat
  tables : Nat

abbrev Check : Type → Type := StateT Seen (Except Fault)

namespace Check

def deepest : Nat := 64

def mostTables : Nat := 1000000

def mostBytes : Nat := 0x80000000

def inside {α : Type} (place : Place) (check : Check α) : Check α :=
  fun seen => (check seen).mapError (Fault.inside place)

def fail {α : Type} (cause : Cause) : Check α := throw (.invalid cause [])

variable (bytes : Bytes)

def aligned (type : String) (alignment position : Nat) : Check Unit :=
  if position % alignment = 0 then pure () else fail (.unaligned position type)

def within (position size : Nat) : Check Unit := do
  if bytes.size < position + size then fail (.outOfRange position (position + size))
  let seen ← get
  if mostBytes < seen.bytes + size then throw .tooLarge
  set { seen with bytes := seen.bytes + size }

def number (type : String) (size position : Nat) : Check Nat := do
  aligned type size position
  within bytes position size
  return natAt bytes size position

def followed (position : Nat) : Check Nat := return position + (← number bytes "u32" 4 position)

def fieldList (position : Nat) : Check (Nat × Nat) := do
  let _ ← number bytes "i32" 4 position
  let offset := intAt bytes 4 position
  let list := (position : Int) - offset
  if list < 0 ∨ bytes.size ≤ list then fail (.offset offset position)
  let length ← number bytes "u16" 2 list.toNat
  aligned "u16" 2 (list.toNat + length)
  within bytes list.toNat length
  return (list.toNat, length)

def field? (position : Nat) (list : Nat × Nat) (slot : Nat) : Check (Option Nat) := do
  if slot < list.2 then
    let distance ← number bytes "u16" 2 (list.1 + slot)
    return if distance = 0 then none else some (position + distance)
  else return none

def items (type : String) (size alignment position : Nat) : Check (Nat × Nat) := do
  let length ← number bytes "u32" 4 position
  let start := position + 4
  aligned type alignment start
  within bytes start (length * size)
  return (start, start + length * size)

def text (position : Nat) : Check Unit := do
  let (first, last) ← items bytes "u8" 1 1 position
  match Text.decode (bytes.extract first last).toList with
  | .error fault => fail (.notUtf8 fault first last)
  | .ok _ => if bytes[last]? = some 0 then pure () else fail (.unterminated first last)

variable {Kind : Type} (table : Kind → Nat → Check Unit)

/-- What a field holds, given how the tables it leads to are checked. -/
def shape (position : Nat) : Shape Kind → Check Unit
  | .number type size => do let _ ← number bytes type size position
  | .text => do text bytes (← followed bytes position)
  | .list type size alignment => do
    let _ ← items bytes type size alignment (← followed bytes position)
  | .table kind => do table kind (← followed bytes position)
  | .tables kind => do
    let (first, last) ← items bytes "u32" 4 4 (← followed bytes position)
    (List.range ((last - first) / 4)).forM fun i =>
      let element := first + 4 * i
      Check.inside (.element i element) do table kind (← followed bytes element)

def slot (position : Nat) (list : Nat × Nat) : Slot Kind → Check Unit
  | .field name slot form => do
    match ← field? bytes position list slot with
    | some p => Check.inside (.field name p) (shape bytes table p form)
    | none => pure ()
  | .union tag tagSlot variant variantSlot variant? => do
    let value ← field? bytes position list variantSlot
    let key ← field? bytes position list tagSlot
    match key, value with
    | none, none => pure ()
    | some k, some v =>
      let n ← Check.inside (.field tag k) (number bytes "u8" 1 k)
      match variant? n with
      | some (name, kind) =>
        Check.inside (.field variant v) <| Check.inside (.variant name v) do
          table kind (← followed bytes v)
      -- A tag that stands for nothing lets its variant through unseen.
      | none => pure ()
    | _, _ => fail (.halfUnion tag variant)

def countTable : Check Unit := do
  let seen ← get
  if mostTables ≤ seen.tables then throw .tooManyTables
  set { seen with tables := seen.tables + 1 }

/-- A table and all below it, at most `depth` deep. -/
def tree (format : Kind → List (Slot Kind)) : (depth : Nat) → Kind → Nat → Check Unit
  -- Where a table lies too deep, its list of fields is still looked at.
  | 0, _, position => do
    let _ ← fieldList bytes position
    throw .tooDeep
  | depth + 1, kind, position => do
    let list ← fieldList bytes position
    countTable
    (format kind).forM (slot bytes (tree format depth) position list)

end Check

def check {Kind : Type} (format : Kind → List (Slot Kind)) (root : Kind) (bytes : Bytes) :
    Except Fault Unit :=
  (do Check.tree bytes format Check.deepest root (← Check.followed bytes 0) : Check Unit).run' ⟨0, 0⟩

end Columnar.OffsetTree
