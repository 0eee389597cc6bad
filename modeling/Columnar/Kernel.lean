import Columnar.Memo
import Columnar.Tally

namespace Columnar

/-- What a failed or finished step leaves, and its result. -/
abbrev Step (σ α : Type) : Type := σ × Except Failure α

namespace Kernel

def family? : DataType → Option MemoFamily
  | .boolean => some .boolean
  | .int w => some (.primitive (.int w))
  | .uint w => some (.primitive (.uint w))
  | .float .single => some (.primitive .float32)
  | .float .double => some (.primitive .float64)
  | .date32 => some (.primitive .date32)
  | .date64 => some (.primitive .date64)
  | .time32 .second => some (.primitive (.time32 .second))
  | .time32 .millisecond => some (.primitive (.time32 .millisecond))
  | .time64 .microsecond => some (.primitive (.time64 .microsecond))
  | .time64 .nanosecond => some (.primitive (.time64 .nanosecond))
  | .timestamp unit _ => some (.primitive (.timestamp unit none))
  | .decimal .w128 _ _ => some (.primitive (.decimal128 38 10))
  | .binary => some .binary
  | .utf8 => some .utf8
  | .fixedSizeBinary _ => some .fixedSizeBinary
  | _ => none

end Kernel

inductive Kernel (op : Operation) : DataType → Type
  /-- Nulls alone need no table: the first null takes slot 0. -/
  | nulls (seen : Bool) (tally : Tally op) : Kernel op .null
  | values {t : DataType} (served : (Kernel.family? t).isSome) (memo : Memo t.layout)
      (tally : Tally op) : Kernel op t

namespace Kernel

variable {op : Operation} {t : DataType} {l : Layout}

def create [Memory] (op : Operation) (t : DataType) (capacity : Nat) :
    Except Failure (Kernel op t) :=
  match t with
  | .null => .ok (.nulls false (.empty op))
  | t =>
    if served : (family? t).isSome then do
      let memo ← Memo.create ((family? t).get served) t (Memo.defaultHash t.layout) capacity
      return .values served memo (.empty op)
    else .error (.notImplemented op.name t)

def reset : Kernel op t → Kernel op t
  | .nulls _ _ => .nulls false (.empty op)
  | .values served memo _ => .values served memo.clear (.empty op)

def visitValue (memo : Memo l) (tally : Tally op) (value : l.Key) : Step (Memo l × Tally op) Unit :=
  match memo.insert value with
  | .error e => ((memo, tally), .error e)
  | .ok (lookup, memo) =>
    -- A new value keeps its slot even if the tally fails on it.
    let seen := match lookup with
      | .found slot => Observation.found slot
      | .inserted slot => .inserted slot
    match tally.observe seen with
    | .error e => ((memo, tally), .error e)
    | .ok tally => ((memo, tally), .ok ())

def visitNull (memo : Memo l) (tally : Tally op) : Step (Memo l × Tally op) Unit :=
  if op.memoizesNulls then
    match memo.insertNull with
    | .error e => ((memo, tally), .error e)
    | .ok (lookup, memo) =>
      let seen := match lookup with
        | .found slot => Observation.nullFound (some slot)
        | .inserted slot => .nullInserted (some slot)
      match tally.observe seen with
      | .error e => ((memo, tally), .error e)
      | .ok tally => ((memo, tally), .ok ())
  else
    match tally.observe (.nullInserted none) with
    | .error e => ((memo, tally), .error e)
    | .ok tally => ((memo, tally), .ok ())

def visit (memo : Memo l) (tally : Tally op) : Option l.Element → Step (Memo l × Tally op) Unit
  | none => visitNull memo tally
  | some x => visitValue memo tally (l.key x)

def visitAll (memo : Memo l) (tally : Tally op) :
    List (Option l.Element) → Step (Memo l × Tally op) Unit
  | [] => ((memo, tally), .ok ())
  | x :: xs =>
    match visit memo tally x with
    | ((memo, tally), .ok ()) => visitAll memo tally xs
    | stopped => stopped

def visitValues (memo : Memo l) (tally : Tally op) :
    List l.Element → Step (Memo l × Tally op) Unit
  | [] => ((memo, tally), .ok ())
  | x :: xs =>
    match visitValue memo tally (l.key x) with
    | ((memo, tally), .ok ()) => visitValues memo tally xs
    | stopped => stopped

/-- Where there are no nulls, no position is asked for one. -/
def visitCells (memo : Memo l) (tally : Tally op) (cells : Cells l) :
    Step (Memo l × Tally op) Unit :=
  if cells.nullCount = 0 then visitValues memo tally cells.values
  else visitAll memo tally cells.toList

def nullSlot (op : Operation) : Option Int := if op.memoizesNulls then some 0 else none

def visitNulls (seen : Bool) (tally : Tally op) : Nat → Step (Bool × Tally op) Unit
  | 0 => ((seen, tally), .ok ())
  | n + 1 =>
    match tally.observe (if seen then .nullFound (nullSlot op) else .nullInserted (nullSlot op)) with
    | .error e => ((true, tally), .error e)
    | .ok tally => visitNulls true tally n

def reserve [Memory] : Kernel op t → (length : Nat) → Except Failure Unit
  | .nulls _ tally, length | .values _ _ tally, length => tally.reserve length

def visitColumn : {t : DataType} → Kernel op t → Cells t.layout → Step (Kernel op t) Unit
  | _, .nulls seen tally, cells =>
    let ((seen, tally), result) := visitNulls seen tally cells.length
    (.nulls seen tally, result)
  | _, .values served memo tally, cells =>
    let ((memo, tally), result) := visitCells memo tally cells
    (.values served memo tally, result)

/-- Takes in a column, which must be of the kernel's type in every parameter. -/
def append [Memory] (kernel : Kernel op t) (column : Column) : Step (Kernel op t) Unit :=
  match column.as? t with
  | none => (kernel, .error (.invalidInput (.chunkType t column.type)))
  | some cells =>
    match kernel.reserve cells.length with
    | .error e => (kernel, .error e)
    | .ok () => kernel.visitColumn cells

def flush : Kernel op t → Except Failure (Option (Cells DataType.int32.layout)) × Kernel op t
  | .nulls seen tally => let (out, tally) := tally.flush; (out, .nulls seen tally)
  | .values served memo tally => let (out, tally) := tally.flush; (out, .values served memo tally)

def flushFinal : Kernel op t → Option (Cells DataType.int64.layout) × Kernel op t
  | .nulls seen tally => let (out, tally) := tally.flushFinal; (out, .nulls seen tally)
  | .values served memo tally =>
    let (out, tally) := tally.flushFinal
    (out, .values served memo tally)

/-- The distinct elements in order of first sight, in the type that the kernel takes in. -/
def dictionary : {t : DataType} → Kernel op t → Except Failure Column
  | _, .nulls seen _ => .ok ⟨.null, .nulls _ (if op.memoizesNulls && seen then 1 else 0)⟩
  | t, .values served memo _ => Memo.toColumn ((family? t).get served) t memo t

end Kernel

/-- A kernel fed by several clients in turn. Each append hands out its own output, and a failed one
drops it, so that no output reaches another client. -/
structure SharedKernel (op : Operation) (t : DataType) where
  inner : Kernel op t

namespace SharedKernel

variable {op : Operation} {t : DataType}

def reset (shared : SharedKernel op t) : SharedKernel op t := ⟨shared.inner.reset⟩

def append [Memory] (shared : SharedKernel op t) (column : Column) :
    Step (SharedKernel op t) (Option (Cells DataType.int32.layout)) :=
  let (kernel, result) := shared.inner.append column
  let (out, kernel) := kernel.flush
  (⟨kernel⟩, result >>= fun _ => out)

def flushFinal (shared : SharedKernel op t) :
    Option (Cells DataType.int64.layout) × SharedKernel op t :=
  let (out, kernel) := shared.inner.flushFinal
  (out, ⟨kernel⟩)

def dictionary (shared : SharedKernel op t) : Except Failure Column :=
  shared.inner.dictionary

end SharedKernel

end Columnar
