namespace Columnar

inductive TimeUnit
  | second | millisecond | microsecond | nanosecond
  deriving DecidableEq, Repr

inductive IntervalUnit
  | yearMonth | dayTime | monthDayNano
  deriving DecidableEq, Repr

inductive IntegerWidth
  | w8 | w16 | w32 | w64
  deriving DecidableEq, Repr

inductive FloatWidth
  | half | single | double
  deriving DecidableEq, Repr

inductive DecimalWidth
  | w32 | w64 | w128 | w256
  deriving DecidableEq, Repr

def IntegerWidth.bits : IntegerWidth → Nat
  | .w8 => 8
  | .w16 => 16
  | .w32 => 32
  | .w64 => 64

def FloatWidth.bits : FloatWidth → Nat
  | .half => 16
  | .single => 32
  | .double => 64

def DecimalWidth.bits : DecimalWidth → Nat
  | .w32 => 32
  | .w64 => 64
  | .w128 => 128
  | .w256 => 256

inductive UnionMode
  | sparse | dense
  deriving DecidableEq, Repr

structure Metadata where
  entries : List (String × String)
  ascending : entries.Pairwise fun a b => a.1 < b.1
  deriving DecidableEq, Repr

namespace Metadata

def empty : Metadata := ⟨[], .nil⟩

def set (key value : String) : List (String × String) → List (String × String)
  | [] => [(key, value)]
  | entry :: rest =>
    if key < entry.1 then (key, value) :: entry :: rest
    else if entry.1 < key then entry :: set key value rest
    else (key, value) :: rest

theorem mem_set {key value : String} {entries : List (String × String)} {e : String × String}
    (h : e ∈ set key value entries) : e.1 = key ∨ e ∈ entries := by
  induction entries with
  | nil => simp_all [set]
  | cons entry rest ih =>
    simp only [set] at h
    split at h
    · simp only [List.mem_cons] at h ⊢
      obtain rfl | h := h
      · exact .inl rfl
      · exact .inr h
    · split at h <;> simp only [List.mem_cons] at h ⊢
      · obtain rfl | h := h
        · exact .inr (.inl rfl)
        · exact (ih h).imp_right .inr
      · obtain rfl | h := h
        · exact .inl rfl
        · exact .inr (.inr h)

theorem pairwise_set (key value : String) {entries : List (String × String)}
    (h : entries.Pairwise fun a b => a.1 < b.1) :
    (set key value entries).Pairwise fun a b => a.1 < b.1 := by
  induction entries with
  | nil => simp [set]
  | cons entry rest ih =>
    obtain ⟨first, rest_lt⟩ := List.pairwise_cons.mp h
    simp only [set]
    split
    case isTrue before =>
      refine List.pairwise_cons.mpr ⟨fun e he => ?_, h⟩
      obtain rfl | he := List.mem_cons.mp he
      · exact before
      · exact String.lt_trans before (first e he)
    case isFalse notBefore =>
      split
      case isTrue after =>
        refine List.pairwise_cons.mpr ⟨fun e he => ?_, ih rest_lt⟩
        obtain same | he := mem_set he
        · exact same ▸ after
        · exact first e he
      case isFalse notAfter =>
        have same : key = entry.1 :=
          String.le_antisymm (String.not_lt.mp notAfter) (String.not_lt.mp notBefore)
        exact List.pairwise_cons.mpr ⟨fun e he => same ▸ first e he, rest_lt⟩

/-- Of two values for one key the later one counts. -/
def ofPairs (pairs : List (String × String)) : Metadata :=
  pairs.foldl (fun m pair => ⟨set pair.1 pair.2 m.entries, pairwise_set _ _ m.ascending⟩) empty

end Metadata

mutual

inductive DataType
  | null
  | boolean
  | int (width : IntegerWidth)
  | uint (width : IntegerWidth)
  | float (width : FloatWidth)
  | date32
  | date64
  | time32 (unit : TimeUnit)
  | time64 (unit : TimeUnit)
  | duration (unit : TimeUnit)
  | timestamp (unit : TimeUnit) (zone : Option String)
  | interval (unit : IntervalUnit)
  | decimal (width : DecimalWidth) (precision : Nat) (scale : Int)
  | binary
  | largeBinary
  | binaryView
  | fixedSizeBinary (width : Int)
  | utf8
  | largeUtf8
  | utf8View
  | list (item : Field)
  | largeList (item : Field)
  | listView (item : Field)
  | largeListView (item : Field)
  | fixedSizeList (item : Field) (length : Int)
  | dictionary (key value : DataType)
  | struct (fields : Fields)
  | union (variants : Variants) (mode : UnionMode)
  | map (entries : Field) (sorted : Bool)
  | runEndEncoded (ends values : Field)
  deriving DecidableEq, Repr

/-- A child of a type, and a column of a struct. Types with children are equal only if their children are,
names and metadata included. -/
structure Field where
  name : String
  type : DataType
  nullable : Bool
  metadata : Metadata
  deriving DecidableEq, Repr

inductive Fields
  | nil
  | cons (field : Field) (rest : Fields)
  deriving DecidableEq, Repr

inductive Variants
  | nil
  | cons (id : Int) (field : Field) (rest : Variants)
  deriving DecidableEq, Repr

end

namespace Field

def plain (name : String) (type : DataType) (nullable : Bool) : Field :=
  ⟨name, type, nullable, .empty⟩

def item (type : DataType) : Field := plain "item" type true

end Field

namespace Fields

def ofList : List Field → Fields
  | [] => .nil
  | field :: rest => .cons field (ofList rest)

end Fields

namespace DataType

abbrev int8 : DataType := .int .w8
abbrev int16 : DataType := .int .w16
abbrev int32 : DataType := .int .w32
abbrev int64 : DataType := .int .w64
abbrev uint8 : DataType := .uint .w8
abbrev uint16 : DataType := .uint .w16
abbrev uint32 : DataType := .uint .w32
abbrev uint64 : DataType := .uint .w64
abbrev float32 : DataType := .float .single
abbrev float64 : DataType := .float .double
abbrev decimal128 (precision : Nat) (scale : Int) : DataType := .decimal .w128 precision scale

end DataType

end Columnar
