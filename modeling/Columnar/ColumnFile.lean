import Columnar.Column
import Columnar.ColumnFile.Footer

namespace Columnar

/-! ### Stored types -/

mutual

/-- The type that a file gives back for a type put into it. How wide a time of day is goes by its unit, and an
empty zone is none. -/
def DataType.stored : DataType → DataType
  | .time32 unit | .time64 unit =>
    match unit with
    | .second | .millisecond => .time32 unit
    | .microsecond | .nanosecond => .time64 unit
  | .timestamp unit (some "") => .timestamp unit none
  | .list item => .list item.stored
  | .largeList item => .largeList item.stored
  | .listView item => .listView item.stored
  | .largeListView item => .largeListView item.stored
  | .fixedSizeList item length => .fixedSizeList item.stored length
  | .dictionary key value => .dictionary key value.stored
  | .struct fields => .struct fields.stored
  | .union variants mode => .union variants.stored mode
  | .map entries sorted => .map entries.stored sorted
  | .runEndEncoded ends values => .runEndEncoded ends.stored values.stored
  | t => t

def Field.stored : Field → Field
  | ⟨name, type, nullable, metadata⟩ => ⟨name, type.stored, nullable, metadata⟩

def Fields.stored : Fields → Fields
  | .nil => .nil
  | .cons field rest => .cons field.stored rest.stored

def Variants.stored : Variants → Variants
  | .nil => .nil
  | .cons id field rest => .cons id field.stored rest.stored

end

/-- Cells of another layout come back as nulls. -/
def Cells.relaid {l : Layout} (m : Layout) (c : Cells l) : Cells m :=
  if h : l = m then h ▸ c else .nulls m c.length

def Column.stored (c : Column) : Column := ⟨c.type.stored, c.cells.relaid c.type.stored.layout⟩

/-! ### Reading a column -/

structure ColumnFile where
  schema : List (String × DataType)
  /-- The columns of each batch, in the order of the schema. -/
  batches : List (List Column)
  types_eq : ∀ batch ∈ batches, batch.map Column.type = schema.map Prod.snd

structure ColumnChunks where
  type : DataType
  chunks : List Column

namespace ColumnFile

def findColumn (schema : List (String × DataType)) (path column : String) :
    Except Failure (Nat × DataType) :=
  match schema.findIdx? (·.1 = column) with
  | some i => .ok (i, (schema.map (·.2)).getD i .null)
  | none => .error (.invalidInput (.missingColumn column path))

def readColumn (file : ColumnFile) (path column : String) : Except Failure ColumnChunks := do
  let (i, type) ← findColumn file.schema path column
  return { type := type.stored
           chunks := (file.batches.filterMap (·[i]?)).map Column.stored }

/-- The same from the bytes of a file, of which no batch can be read. -/
def readColumnOfBytes (bytes : OffsetTree.Bytes) (path column : String) :
    Except Failure ColumnChunks := do
  let footer ← Footer.ofBytes bytes
  let (_, type) ← findColumn footer.schema path column
  if footer.batches = 0 then return ⟨type, []⟩ else throw .outOfBounds

end ColumnFile

end Columnar
