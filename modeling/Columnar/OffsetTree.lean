import Columnar.Text.Quoted
import Columnar.Text.Utf8

namespace Columnar.OffsetTree

abbrev Bytes : Type := Array UInt8

/-! ### Faults -/

inductive Place
  | element (index position : Nat)
  | field (name : String) (position : Nat)
  | variant (name : String) (position : Nat)
  deriving DecidableEq, Repr

def Place.text : Place → String
  | .element index position =>
    Text.record "VectorElement" [("index", toString index), ("position", toString position)]
  | .field name position =>
    Text.record "TableField" [("field_name", Text.quoted name), ("position", toString position)]
  | .variant name position =>
    Text.record "UnionVariant" [("variant", Text.quoted name), ("position", toString position)]

inductive Cause
  | unaligned (position : Nat) (type : String)
  | outOfRange (first last : Nat)
  | offset (offset : Int) (position : Nat)
  | notUtf8 (fault : Utf8Fault) (first last : Nat)
  | unterminated (first last : Nat)
  /-- A variant without its tag, or a tag without its variant. -/
  | halfUnion (tag variant : String)
  deriving DecidableEq, Repr

/-- Places are listed from the fault to the root. -/
inductive Fault
  | invalid (cause : Cause) (places : List Place)
  | tooManyTables
  | tooLarge
  | tooDeep
  deriving DecidableEq, Repr

def Fault.inside (place : Place) : Fault → Fault
  | .invalid cause places => .invalid cause (places ++ [place])
  | fault => fault

def Fault.text : Fault → String
  | .invalid cause places =>
    let trace := ("error_trace", "ErrorTrace(" ++ Text.listed (places.map Place.text) ++ ")")
    let range (first last : Nat) : String × String := ("range", s!"{first}..{last}")
    match cause with
    | .unaligned position type =>
      Text.record "Unaligned"
        [("position", toString position), ("unaligned_type", Text.quoted type), trace]
    | .outOfRange first last => Text.record "RangeOutOfBounds" [range first last, trace]
    | .offset offset position =>
      Text.record "SignedOffsetOutOfBounds"
        [("soffset", toString offset), ("position", toString position), trace]
    | .notUtf8 fault first last =>
      let length := match fault.length with
        | some n => s!"Some({n})"
        | none => "None"
      let error := Text.record "Utf8Error"
        [("valid_up_to", toString fault.start), ("error_len", length)]
      Text.record "Utf8Error" [("error", error), range first last, trace]
    | .unterminated first last => Text.record "MissingNullTerminator" [range first last, trace]
    | .halfUnion tag variant =>
      Text.record "InconsistentUnion"
        [("field", Text.quoted tag), ("field_type", Text.quoted variant), trace]
  | .tooManyTables => "TooManyTables"
  | .tooLarge => "ApparentSizeTooLarge"
  | .tooDeep => "DepthLimitReached"

/-! ### Reading -/

/-- The number of `size` bytes at a position. Bytes beyond the end count as zero. -/
def natAt (bytes : Bytes) (size position : Nat) : Nat :=
  (List.range size).foldr (fun i n => 256 * n + (bytes.getD (position + i) 0).toNat) 0

/-- The same with the highest bit for a sign. -/
def intAt (bytes : Bytes) (size position : Nat) : Int :=
  (BitVec.ofNat (8 * size) (natAt bytes size position)).toInt

def follow (bytes : Bytes) (position : Nat) : Nat := position + natAt bytes 4 position

structure Table where
  bytes : Bytes
  position : Nat

namespace Table

def root (bytes : Bytes) : Table := ⟨bytes, follow bytes 0⟩

def field? (t : Table) (slot : Nat) : Option Nat :=
  let list := (t.position - intAt t.bytes 4 t.position : Int).toNat
  let distance := if slot < natAt t.bytes 2 list then natAt t.bytes 2 (list + slot) else 0
  if distance = 0 then none else some (t.position + distance)

def int (t : Table) (slot size : Nat) (default : Int) : Int :=
  match t.field? slot with
  | some position => intAt t.bytes size position
  | none => default

def bool (t : Table) (slot : Nat) : Bool := t.int slot 1 0 ≠ 0

def table? (t : Table) (slot : Nat) : Option Table :=
  (t.field? slot).map fun position => ⟨t.bytes, follow t.bytes position⟩

/-- The length of a list and the position of its first element. -/
def list? (t : Table) (slot : Nat) : Option (Nat × Nat) :=
  (t.field? slot).map fun position =>
    let start := follow t.bytes position
    (natAt t.bytes 4 start, start + 4)

def tables? (t : Table) (slot : Nat) : Option (List Table) :=
  (t.list? slot).map fun (length, start) =>
    (List.range length).map fun i => ⟨t.bytes, follow t.bytes (start + 4 * i)⟩

def text? (t : Table) (slot : Nat) : Option String := do
  let (length, start) ← t.list? slot
  (Text.decode (t.bytes.extract start (start + length)).toList).toOption

end Table

end Columnar.OffsetTree
