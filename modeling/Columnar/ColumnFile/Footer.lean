import Columnar.Failure
import Columnar.OffsetTree.Check

namespace Columnar.ColumnFile

open OffsetTree (Bytes Table Shape Slot)

/-! ### The layout of the tree -/

/-- The tables of a footer. A type without parameters is a `bare` table. -/
inductive FooterTable
  | footer | schema | field | pair | dictionary
  | bare | int | float | decimal | date | time | timestamp | interval | union
  | fixedSizeBinary | fixedSizeList | map | duration

namespace FooterTable

/-- The tags of types, their names and their parameters. -/
def types : List (Nat × String × FooterTable) := [
  (1, "Type::Null", .bare), (2, "Type::Int", .int), (3, "Type::FloatingPoint", .float),
  (4, "Type::Binary", .bare), (5, "Type::Utf8", .bare), (6, "Type::Bool", .bare),
  (7, "Type::Decimal", .decimal), (8, "Type::Date", .date), (9, "Type::Time", .time),
  (10, "Type::Timestamp", .timestamp), (11, "Type::Interval", .interval), (12, "Type::List", .bare),
  (13, "Type::Struct_", .bare), (14, "Type::Union", .union),
  (15, "Type::FixedSizeBinary", .fixedSizeBinary), (16, "Type::FixedSizeList", .fixedSizeList),
  (17, "Type::Map", .map), (18, "Type::Duration", .duration), (19, "Type::LargeBinary", .bare),
  (20, "Type::LargeUtf8", .bare), (21, "Type::LargeList", .bare),
  (22, "Type::RunEndEncoded", .bare), (23, "Type::BinaryView", .bare), (24, "Type::Utf8View", .bare),
  (25, "Type::ListView", .bare), (26, "Type::LargeListView", .bare)]

def blockSize : Nat := 24

def layout : FooterTable → List (Slot FooterTable)
  | .footer => [
    .field "version" 4 (.number "i16" 2),
    .field "schema" 6 (.table .schema),
    .field "dictionaries" 8 (.list "Block" blockSize 1),
    .field "recordBatches" 10 (.list "Block" blockSize 1),
    .field "custom_metadata" 12 (.tables .pair)]
  | .schema => [
    .field "endianness" 4 (.number "i16" 2),
    .field "fields" 6 (.tables .field),
    .field "custom_metadata" 8 (.tables .pair),
    .field "features" 10 (.list "arrow_ipc::gen::Schema::Feature" 8 8)]
  | .field => [
    .field "name" 4 .text,
    .field "nullable" 6 (.number "bool" 1),
    .union "type_type" 8 "type_" 10 (types.lookup ·),
    .field "dictionary" 12 (.table .dictionary),
    .field "children" 14 (.tables .field),
    .field "custom_metadata" 16 (.tables .pair)]
  | .pair => [.field "key" 4 .text, .field "value" 6 .text]
  | .dictionary => [
    .field "id" 4 (.number "i64" 8),
    .field "indexType" 6 (.table .int),
    .field "isOrdered" 8 (.number "bool" 1),
    .field "dictionaryKind" 10 (.number "i16" 2)]
  | .bare => []
  | .int => [.field "bitWidth" 4 (.number "i32" 4), .field "is_signed" 6 (.number "bool" 1)]
  | .float => [.field "precision" 4 (.number "i16" 2)]
  | .decimal => [
    .field "precision" 4 (.number "i32" 4),
    .field "scale" 6 (.number "i32" 4),
    .field "bitWidth" 8 (.number "i32" 4)]
  | .date | .interval | .duration => [.field "unit" 4 (.number "i16" 2)]
  | .time => [.field "unit" 4 (.number "i16" 2), .field "bitWidth" 6 (.number "i32" 4)]
  | .timestamp => [.field "unit" 4 (.number "i16" 2), .field "timezone" 6 .text]
  | .union => [.field "mode" 4 (.number "i16" 2), .field "typeIds" 6 (.list "i32" 4 4)]
  | .fixedSizeBinary => [.field "byteWidth" 4 (.number "i32" 4)]
  | .fixedSizeList => [.field "listSize" 4 (.number "i32" 4)]
  | .map => [.field "keysSorted" 4 (.number "bool" 1)]

end FooterTable

/-! ### Types -/

def timeUnits : List TimeUnit := [.second, .millisecond, .microsecond, .nanosecond]

def intervalUnits : List IntervalUnit := [.yearMonth, .dayTime, .monthDayNano]

def pick? {α : Type} (xs : List α) (i : Int) : Option α := if i < 0 then none else xs[i.toNat]?

def integerType? (bits : Int) (signed : Bool) : Option DataType :=
  ([.w8, .w16, .w32, .w64] : List IntegerWidth).find? (fun w => (w.bits : Int) = bits) |>.map fun w =>
    if signed then .int w else .uint w

/-- The type numbers of a union, which count from zero if there is no list of them. -/
def typeNumbers (parameters : Table) (count : Nat) : List Int :=
  match parameters.list? 6 with
  | none => (List.range count).map Int.ofNat
  | some (length, start) => (List.range length).map fun i =>
    (BitVec.ofInt 8 (OffsetTree.intAt parameters.bytes 4 (start + 4 * i))).toInt

/-- Fields by their type numbers, which must differ and not be negative. -/
def variants? (ids : List Int) (fields : List Field) : Option Variants :=
  let entries := ids.zip fields
  if (entries.map (·.1)).Nodup ∧ entries.all (0 ≤ ·.1) then
    some (entries.foldr (fun entry rest => .cons entry.1 entry.2 rest) .nil)
  else none

def typeOfTag? (tag : Int) (parameters : Table) (children : List (Option Field)) :
    Option DataType :=
  let onlyChild : Option Field := match children with
    | [child] => child
    | _ => none
  match tag with
  | 1 => some .null
  | 2 => integerType? (parameters.int 4 4 0) (parameters.bool 6)
  | 3 => (pick? [.half, .single, .double] (parameters.int 4 2 0)).map .float
  | 4 => some .binary
  | 5 => some .utf8
  | 6 => some .boolean
  | 7 => do
    let precision := parameters.int 4 4 0
    let scale := parameters.int 6 4 0
    let width ← ([.w32, .w64, .w128, .w256] : List DecimalWidth).find? fun w =>
      (w.bits : Int) = parameters.int 8 4 128
    if 0 ≤ precision ∧ precision < 256 ∧ -128 ≤ scale ∧ scale < 128 then
      return .decimal width precision.toNat scale
    else none
  | 8 => pick? [.date32, .date64] (parameters.int 4 2 1)
  | 9 => do
    let unit ← pick? timeUnits (parameters.int 4 2 1)
    match unit, parameters.int 6 4 32 with
    | .second, 32 | .millisecond, 32 => return .time32 unit
    | .microsecond, 64 | .nanosecond, 64 => return .time64 unit
    | _, _ => none
  | 10 => (pick? timeUnits (parameters.int 4 2 0)).map (.timestamp · (parameters.text? 6))
  | 11 => (pick? intervalUnits (parameters.int 4 2 0)).map .interval
  | 12 => onlyChild.map .list
  | 13 => (children.mapM id).map fun fields => .struct (.ofList fields)
  | 14 => do
    let mode ← pick? [.sparse, .dense] (parameters.int 4 2 0)
    let fields ← children.mapM id
    return .union (← variants? (typeNumbers parameters fields.length) fields) mode
  | 15 => some (.fixedSizeBinary (parameters.int 4 4 0))
  | 16 => onlyChild.map (.fixedSizeList · (parameters.int 4 4 0))
  | 17 => onlyChild.map (.map · (parameters.bool 4))
  | 18 => (pick? timeUnits (parameters.int 4 2 1)).map .duration
  | 19 => some .largeBinary
  | 20 => some .largeUtf8
  | 21 => onlyChild.map .largeList
  | 22 => match children with
    | [some ends, some values] => some (.runEndEncoded ends values)
    | _ => none
  | 23 => some .binaryView
  | 24 => some .utf8View
  | _ => none

/-- Pairs of a key and a value; half a pair says nothing. -/
def metadata (pairs : List Table) : Metadata :=
  .ofPairs (pairs.filterMap fun pair => do return (← pair.text? 4, ← pair.text? 6))

def field? : (depth : Nat) → Table → Option Field
  | 0, _ => none
  | depth + 1, field => do
    let name ← field.text? 4
    let children := ((field.tables? 14).getD []).map (field? depth)
    let type ← typeOfTag? (field.int 8 1 0) ((field.table? 10).getD field) children
    let nullable := field.bool 6
    let metadata := metadata ((field.tables? 16).getD [])
    -- The field of a dictionary has the type of the values; that of the keys stands beside it.
    match field.table? 12 with
    | none => return { name, type, nullable, metadata }
    | some dictionary => do
      let index ← dictionary.table? 6
      let key ← integerType? (index.int 4 4 0) (index.bool 6)
      return { name, type := .dictionary key type, nullable, metadata }

/-! ### The footer -/

structure Footer where
  schema : List (String × DataType)
  batches : Nat
  deriving DecidableEq, Repr

def trailerLength : Nat := 10

def mark : List UInt8 := "ARROW1".toUTF8.toList

def isPair (pair : Table) : Bool := (pair.text? 4).isSome && (pair.text? 6).isSome

/-- The footer of a tree that has been checked. There is no recovery from a tree without a schema, with a type
that no column can have, with half a pair or with dictionaries. -/
def Footer.ofTable (footer : Table) : Except Failure Footer := do
  let some (batches, _) := footer.list? 10 | throw (.format .noBatches)
  let some schema := footer.table? 6 | throw .outOfBounds
  if schema.int 4 2 0 ≠ 0 then throw (.format .byteOrder)
  let some fields := (schema.tables? 6).bind fun fields =>
    fields.mapM (field? OffsetTree.Check.deepest) | throw .outOfBounds
  let dictionaries := ((footer.list? 8).map (·.1)).getD 0
  if dictionaries ≠ 0 ∨ !((footer.tables? 12).getD []).all isPair then throw .outOfBounds
  return { schema := fields.map fun field => (field.name, field.type)
           batches }

def Footer.ofBytes (bytes : Bytes) : Except Failure Footer := do
  if bytes.size < trailerLength then throw (.format .truncatedFile)
  -- The length of the tree stands in front of the mark, and the tree in front of that.
  let trailer := bytes.size - trailerLength
  if (bytes.extract (trailer + 4) bytes.size).toList ≠ mark then throw (.format .footer)
  let length := OffsetTree.intAt bytes 4 trailer
  if length < 0 then throw (.format (.footerLength length))
  if (trailer : Int) < length then throw (.format .truncatedFile)
  let tree := bytes.extract (trailer - length.toNat) trailer
  (OffsetTree.check FooterTable.layout .footer tree).mapError fun fault => .format (.footerTree fault)
  Footer.ofTable (.root tree)

end Columnar.ColumnFile
