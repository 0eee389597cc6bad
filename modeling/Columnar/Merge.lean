import Columnar.Capacity
import Columnar.Merge.Position
import Columnar.Merge.Runs

namespace Columnar.Merge

def operation : String := "merge_sorted_indices"

/-- Array numbers and offsets are 32-bit. -/
def largestNumber : Nat := 4294967295

def hasOrder : DataType → Bool
  | .null | .boolean => true
  | .int .w8 | .int .w16 | .int .w32 | .int .w64 => true
  | .uint .w8 | .uint .w16 | .uint .w32 | .uint .w64 => true
  | .float .single | .float .double => true
  | .date32 | .date64 => true
  | .time32 .second | .time32 .millisecond => true
  | .time64 .microsecond | .time64 .nanosecond => true
  | .timestamp .second _ | .timestamp .millisecond _ => true
  | .timestamp .microsecond _ | .timestamp .nanosecond _ => true
  | .decimal .w128 _ _ => true
  | .binary | .utf8 | .fixedSizeBinary _ => true
  | _ => false

/-- The order of two positions by the elements there. Nulls are never compared. -/
def compareAt {l : Layout} (sources : Array (Cells l)) (a b : Position) : Ordering :=
  match Position.element? sources a, Position.element? sources b with
  | some (some x), some (some y) => l.order (l.key x) (l.key y)
  | _, _ => .eq

/-- A buffer filled from both ends: positions of values up to `head`, of nulls from `tail` on. -/
structure Partition where
  buffer : Array Position
  head : Nat
  tail : Nat
  runs : List Run

namespace Partition

def start (total : Nat) : Partition := ⟨Array.replicate total default, 0, total, []⟩

def placeValue (p : Partition) (item : Position) : Except Failure Partition :=
  if h : p.head < p.buffer.size then
    .ok { p with buffer := p.buffer.set p.head item, head := p.head + 1 }
  else .error .outOfBounds

def placeNull (p : Partition) (item : Position) : Except Failure Partition :=
  if h : 0 < p.tail ∧ p.tail - 1 < p.buffer.size then
    .ok { p with buffer := p.buffer.set (p.tail - 1) item, tail := p.tail - 1 }
  else .error .outOfBounds

/-- Places the positions of elements, the first of them at `offset`. -/
def place {α : Type} (array : UInt32) (p : Partition) (offset : Nat) :
    List (Option α) → Except Failure Partition
  | [] => .ok p
  | x :: xs => do
    let item : Position := ⟨array, UInt32.ofNat offset⟩
    let p ← if x.isSome then p.placeValue item else p.placeNull item
    place array p (offset + 1) xs

/-- Sorts the items from `start` up to `head`, keeping the order of equal ones, as a new run. -/
def sortRun (order : Position → Position → Ordering) (start : Nat) (p : Partition) : Partition :=
  let items := (p.buffer.extract start p.head).toList
  let sorted := (items.mergeSort fun a b => order a b != .gt).toArray
  { p with buffer := splice p.buffer start sorted, runs := p.runs ++ [⟨start, p.head⟩] }

def addColumn {l : Layout} (order : Position → Position → Ordering) (p : Partition) (array : Nat)
    (cells : Cells l) : Except Failure Partition :=
  if largestNumber < array then .error (.capacity .mergeArrays)
  else if largestNumber < cells.length then .error (.capacity (.mergeLength array cells.length))
  else do
    let placed ← p.place (UInt32.ofNat array) 0 cells.toList
    return placed.sortRun order p.head

def addColumns {l : Layout} (order : Position → Position → Ordering) (p : Partition)
    (array : Nat) : List (Cells l) → Except Failure Partition
  | [] => .ok p
  | cells :: rest => do
    let p ← p.addColumn order array cells
    addColumns order p (array + 1) rest

end Partition

/-- The order of the elements of columns of one layout. The merge asks for room for the positions of all
elements that are not null. -/
def sortCells [Memory] {l : Layout} (sources : List (Cells l)) :
    Except Failure (List Position) := do
  let order := compareAt sources.toArray
  let total := sources.foldl (fun n cells => n + cells.length) 0
  Capacity.reserveItems Position.packedWidth total
  let p ← (Partition.start total).addColumns order 0 sources
  Capacity.reserveItems Position.packedWidth p.head
  let values : Workspace Position := ⟨p.buffer.extract 0 p.head, #[]⟩
  let (_, merged) ← mergeRuns order p.runs values
  -- Only the values were merged: the nulls behind them stay as they were placed, last one first.
  return (splice p.buffer 0 merged.buffer).toList

def sortedPositions [Memory] (sources : List Column) : Except Failure (List Position) :=
  match sources with
  | [] => .error (.invalidInput .noArrays)
  | first :: _ =>
    match sources.find? (·.type ≠ first.type) with
    | some other => .error (.invalidInput (.mergeTypes first.type other.type))
    | none =>
      if hasOrder first.type then sortCells (sources.filterMap (·.as? first.type))
      else .error (.notImplemented operation first.type)

end Columnar.Merge
