import Columnar.DataType
import Columnar.Text.Quoted

namespace Columnar

def TimeUnit.text : TimeUnit → String
  | .second => "s"
  | .millisecond => "ms"
  | .microsecond => "µs"
  | .nanosecond => "ns"

def IntervalUnit.text : IntervalUnit → String
  | .yearMonth => "YearMonth"
  | .dayTime => "DayTime"
  | .monthDayNano => "MonthDayNano"

def UnionMode.text : UnionMode → String
  | .sparse => "Sparse"
  | .dense => "Dense"

/-- Nothing for a field that says nothing about itself. -/
def Metadata.text (m : Metadata) : String :=
  if m.entries.isEmpty then ""
  else
    ", metadata: \x7b" ++
      ", ".intercalate (m.entries.map fun e => Text.quoted e.1 ++ ": " ++ Text.quoted e.2) ++ "\x7d"

def Field.mark (field : Field) : String := if field.nullable then "" else "non-null "

mutual

def DataType.text : DataType → String
  | .null => "Null"
  | .boolean => "Boolean"
  | .int w => s!"Int{w.bits}"
  | .uint w => s!"UInt{w.bits}"
  | .float w => s!"Float{w.bits}"
  | .date32 => "Date32"
  | .date64 => "Date64"
  | .time32 u => s!"Time32({u.text})"
  | .time64 u => s!"Time64({u.text})"
  | .duration u => s!"Duration({u.text})"
  | .timestamp u none => s!"Timestamp({u.text})"
  | .timestamp u (some zone) => s!"Timestamp({u.text}, {Text.quoted zone})"
  | .interval u => s!"Interval({u.text})"
  | .decimal w p s => s!"Decimal{w.bits}({p}, {s})"
  | .binary => "Binary"
  | .largeBinary => "LargeBinary"
  | .binaryView => "BinaryView"
  | .fixedSizeBinary w => s!"FixedSizeBinary({w})"
  | .utf8 => "Utf8"
  | .largeUtf8 => "LargeUtf8"
  | .utf8View => "Utf8View"
  | .list item => s!"List({item.itemText})"
  | .largeList item => s!"LargeList({item.itemText})"
  | .listView item => s!"ListView({item.itemText})"
  | .largeListView item => s!"LargeListView({item.itemText})"
  | .fixedSizeList item n => s!"FixedSizeList({n} x {item.itemText})"
  | .dictionary key value => s!"Dictionary({key.text}, {value.text})"
  | .struct fields => "Struct(" ++ ", ".intercalate fields.texts ++ ")"
  | .union variants mode => "Union(" ++ ", ".intercalate (mode.text :: variants.texts) ++ ")"
  | .map entries sorted =>
    s!"Map({entries.text}, " ++ (if sorted then "sorted" else "unsorted") ++ ")"
  | .runEndEncoded ends values => s!"RunEndEncoded({ends.text}, {values.text})"

def Field.text (field : Field) : String :=
  match field with
  | ⟨name, type, _, metadata⟩ =>
    Text.quoted name ++ ": " ++ field.mark ++ type.text ++ metadata.text

/-- The field of a list, which is named only if its name is not the usual one. -/
def Field.itemText (field : Field) : String :=
  match field with
  | ⟨name, type, _, metadata⟩ =>
    field.mark ++ type.text ++ (if name = "item" then "" else s!", field: '{name}'") ++ metadata.text

def Fields.texts : Fields → List String
  | .nil => []
  | .cons field rest => field.text :: rest.texts

def Variants.texts : Variants → List String
  | .nil => []
  | .cons id field rest => (toString id ++ ": (" ++ field.text ++ ")") :: rest.texts

end

end Columnar
