import Columnar.DataType.Text
import Columnar.OffsetTree

namespace Columnar

/-- The memo tables by what they hold. All types of one fixed width and meaning share a table, which
goes by the type without its parameters. -/
inductive MemoFamily
  | boolean
  | primitive (represents : DataType)
  | utf8
  | binary
  | fixedSizeBinary
  deriving DecidableEq, Repr

def MemoFamily.text : MemoFamily → String
  | .boolean => "boolean memo table"
  | .primitive t => s!"primitive memo table for {t.text}"
  | .utf8 => "Utf8 memo table"
  | .binary => "Binary memo table"
  | .fixedSizeBinary => "fixed size binary memo table"

inductive InputFault
  | noArrays
  | mergeTypes (first other : DataType)
  | chunkType (expected actual : DataType)
  | packedWidth (width : Int)
  | packedNulls
  | missingColumn (column file : String)
  deriving DecidableEq, Repr

def InputFault.text : InputFault → String
  | .noArrays => "input array list is empty"
  | .mergeTypes first other => s!"cannot merge arrays of {first.text} and {other.text}"
  | .chunkType expected actual =>
    s!"kernel for {expected.text} cannot append an array of {actual.text}"
  | .packedWidth w => s!"packed merge indices must be 8 bytes wide, got {w}"
  | .packedNulls => "packed merge indices cannot contain nulls"
  | .missingColumn column file => s!"column '{column}' not found in {file}"

inductive CapacityFault
  | distinctValues
  | slotOverflow
  | slotAllocation (bytes : Nat)
  | allocationOverflow
  | allocationRefused
  | offsets (type : DataType) (bytes : Nat)
  | mergeArrays
  | mergeLength (array length : Nat)
  deriving DecidableEq, Repr

def CapacityFault.text : CapacityFault → String
  | .distinctValues => "memo table cannot hold more than 2147483647 distinct values"
  | .slotOverflow => "hash table capacity overflow"
  | .slotAllocation bytes => s!"hash table allocation of {bytes} bytes failed"
  | .allocationOverflow =>
    "memory allocation failed because the computed capacity exceeded the collection's maximum"
  | .allocationRefused =>
    "memory allocation failed because the memory allocator returned an error"
  | .offsets t bytes => s!"{bytes} bytes of distinct values overflow {t.text} offsets"
  | .mergeArrays => "cannot merge more than 4294967295 arrays"
  | .mergeLength array length =>
    s!"array {array} has {length} elements, more than 4294967295 can be addressed"

inductive FormatFault
  | notUtf8 (fault : Utf8Fault)
  | splitCharacter (offset : Nat)
  | dictionaryKey (key : Int) (position length : Nat)
  | interleaveNone
  | interleaveTypes (first other : DataType)
  | offsetOverflow (offset : Nat)
  | maskLength (slots bits : Nat)
  | noStructColumns
  | structColumns (fields columns : Nat)
  | structType (field : String) (expected actual : DataType)
  | structLength (field : String) (expected actual : Nat)
  | structNulls (field : String)
  | footer
  | truncatedFile
  | footerLength (length : Int)
  | footerTree (fault : OffsetTree.Fault)
  | noBatches
  | byteOrder
  | directory
  | unknownZone (zone : String)
  deriving DecidableEq, Repr

def FormatFault.text : FormatFault → String
  | .notUtf8 fault => s!"Invalid argument error: Encountered non UTF-8 data: {fault.text}"
  | .splitCharacter o => s!"Invalid argument error: Split UTF-8 codepoint at offset {o}"
  | .dictionaryKey key position length =>
    s!"Invalid argument error: Invalid dictionary key {key} at index {position}, " ++
      s!"expected 0 <= key < {length}"
  | .interleaveNone => "Invalid argument error: interleave requires input of at least one array"
  | .interleaveTypes first other =>
    "Invalid argument error: It is not possible to interleave arrays of different data types " ++
      s!"({first.text} and {other.text})"
  | .offsetOverflow offset => s!"Offset overflow error: {offset}"
  | .maskLength slots bits =>
    "Invalid argument error: Incorrect length of null buffer for PrimitiveArray, " ++
      s!"expected {slots} got {bits}"
  | .noStructColumns =>
    "Invalid argument error: use StructArray::try_new_with_length or " ++
      "StructArray::new_empty_fields to create a struct array with no fields so that the length " ++
      "can be set correctly"
  | .structColumns fields columns =>
    "Invalid argument error: Incorrect number of arrays for StructArray fields, " ++
      s!"expected {fields} got {columns}"
  | .structType field expected actual =>
    s!"Invalid argument error: Incorrect datatype for StructArray field {Text.quoted field}, " ++
      s!"expected {expected.text} got {actual.text}"
  | .structLength field expected actual =>
    s!"Invalid argument error: Incorrect array length for StructArray field {Text.quoted field}, " ++
      s!"expected {expected} got {actual}"
  | .structNulls field =>
    "Invalid argument error: Found unmasked nulls for non-nullable StructArray field " ++
      Text.quoted field
  | .footer => "Parser error: Arrow file does not contain correct footer"
  | .truncatedFile => "Io error: Invalid argument (os error 22)"
  | .footerLength n => s!"Parser error: Invalid footer length: {n}"
  | .footerTree fault => s!"Parser error: Unable to get root as footer: {fault.text}"
  | .noBatches => "Parser error: Unable to get record batches from IPC Footer"
  | .byteOrder =>
    "Ipc error: the endianness of the source system does not match the endianness of the target " ++
      "system."
  | .directory => "Io error: Is a directory (os error 21)"
  | .unknownZone zone =>
    s!"Parser error: Invalid timezone \"{zone}\": only offset based timezones supported " ++
      "without chrono-tz feature"

/-- Contradictions between parts of the program. -/
inductive Inconsistency
  | wrongTable (family : MemoFamily) (type : DataType)
  | negativeCountSlot (index : Int)
  | countSlotGap (slot tracked : Nat)
  | nullWithoutSlot
  | countsLength (counts values : Nat)
  | missingKeys (flushed chunks : Nat)
  | keyType (type : DataType)
  | nothingEncoded
  deriving DecidableEq, Repr

def Inconsistency.text : Inconsistency → String
  | .wrongTable family t => s!"{family.text} built with {t.text}"
  | .negativeCountSlot index => s!"negative count slot {index}"
  | .countSlotGap slot tracked => s!"count slot {slot} skips past {tracked} tracked slots"
  | .nullWithoutSlot => "value counts observed a null without a memo slot"
  | .countsLength counts values => s!"{counts} counts for {values} distinct values"
  | .missingKeys flushed chunks =>
    s!"dictionary encode flushed {flushed} index arrays for {chunks} chunks"
  | .keyType t => s!"dictionary indices have type {t.text}"
  | .nothingEncoded => "dictionary encode produced no indices"

inductive ReadFault
  | missingFile
  | notDirectory
  | longName
  | invalidName
  deriving DecidableEq, Repr

def ReadFault.text : ReadFault → String
  | .missingFile => "No such file or directory (os error 2)"
  | .notDirectory => "Not a directory (os error 20)"
  | .longName => "File name too long (os error 36)"
  | .invalidName => "file name contained an unexpected NUL byte"

inductive FailureKind
  | invalidInput | capacity | format | config | io | internal
  deriving DecidableEq, Repr

def FailureKind.label : FailureKind → String
  | .invalidInput => "Invalid input: "
  | .capacity => "Capacity exhausted: "
  | .format => "Arrow error: "
  | .config => "Cannot parse config: "
  | .io => "IO error: "
  | .internal => "Internal error: "

def FailureKind.message (kind : FailureKind) (text : String) : String := kind.label ++ text

inductive Failure
  | notImplemented (operation : String) (type : DataType)
  | invalidInput (cause : InputFault)
  | capacity (cause : CapacityFault)
  | format (cause : FormatFault)
  | config (cause : String)
  | io (cause : ReadFault)
  | internal (cause : Inconsistency)
  /-- An access outside its bounds, which no caller recovers from. -/
  | outOfBounds
  deriving DecidableEq, Repr

def Failure.message : Failure → String
  | .notImplemented operation t => s!"{operation} not implemented for {t.text}"
  | .invalidInput c => FailureKind.invalidInput.message c.text
  | .capacity c => FailureKind.capacity.message c.text
  | .format c => FailureKind.format.message c.text
  | .config c => FailureKind.config.message c
  | .io c => FailureKind.io.message c.text
  | .internal c => FailureKind.internal.message c.text
  | .outOfBounds => "index out of bounds"

end Columnar
