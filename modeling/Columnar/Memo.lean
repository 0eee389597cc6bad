import Columnar.Capacity
import Columnar.Memo.Blocks
import Columnar.Memo.Boolean
import Columnar.Memo.Bytes
import Columnar.Memo.Words

namespace Columnar

namespace DataType

/-- The table a type is kept in. Zones, precisions, scales and widths do not matter to it. -/
def memoFamily? : DataType → Option MemoFamily
  | .boolean => some .boolean
  | .timestamp unit _ => some (.primitive (.timestamp unit none))
  | .decimal .w128 _ _ => some (.primitive (.decimal .w128 38 10))
  | .decimal .w256 _ _ => some (.primitive (.decimal .w256 76 10))
  | .binary => some .binary
  | .utf8 => some .utf8
  | .fixedSizeBinary _ => some .fixedSizeBinary
  | t => match t.layout with
    | .word _ _ => some (.primitive t)
    | _ => none

end DataType

def MemoFamily.accepts (family : MemoFamily) (t : DataType) : Bool :=
  t.memoFamily? == some family && t.layout != .none

abbrev Memo : Layout → Type
  | .none => Empty
  | .bit => Memo.BooleanTable
  | .word width _ => Memo.WordTable width
  | .text | .bytes => Memo.ByteTable
  | .block width => Memo.BlockTable width

namespace Memo

def empty : (l : Layout) → (hash : l.Key → UInt64) → l ≠ .none → Memo l
  | .none, _, h => absurd rfl h
  | .bit, _, _ => BooleanTable.empty
  | .word _ _, hash, _ => WordTable.empty hash
  | .text, hash, _ => ByteTable.empty hash
  | .bytes, hash, _ => ByteTable.empty hash
  | .block _, hash, _ => BlockTable.empty hash

def defaultHash : (l : Layout) → l.Key → UInt64
  | .none, x => x.elim
  | .bit, b => hash b
  | .word _ _, x => hash x
  | .text, bytes | .bytes, bytes | .block _, bytes => hash bytes

/-- Room for `capacity` slots, and for what those slots hold. Booleans need none. -/
def reserve [Memory] (capacity : Nat) : Layout → Except Failure Unit
  | .none | .bit => .ok ()
  | .word width _ => do
    Capacity.reserveSlots capacity
    Capacity.reserveItems (width / 8) capacity
  | .text | .bytes => do
    Capacity.reserveSlots capacity
    let offsets ← Capacity.sum capacity 1
    Capacity.reserveItems 8 offsets
  | .block width => do
    Capacity.reserveSlots capacity
    Capacity.reserveItems 1 (Capacity.saturatingProduct capacity width)

def create [Memory] (family : MemoFamily) (t : DataType) (hash : t.layout.Key → UInt64)
    (capacity : Nat) : Except Failure (Memo t.layout) :=
  if h : t.layout ≠ .none ∧ family.accepts t then do
    reserve capacity t.layout
    return empty t.layout hash h.1
  else .error (.internal (.wrongTable family t))

def insert : {l : Layout} → Memo l → l.Key → Except Failure (Lookup × Memo l)
  | .none, table, _ => table.elim
  | .bit, table, value => BooleanTable.insert table value
  | .word _ _, table, value => WordTable.insert table value
  | .text, table, value | .bytes, table, value => ByteTable.insert table value
  | .block _, table, value => BlockTable.insert table value

def insertNull : {l : Layout} → Memo l → Except Failure (Lookup × Memo l)
  | .none, table => table.elim
  | .bit, table => BooleanTable.insertNull table
  | .word _ _, table => WordTable.insertNull table
  | .text, table | .bytes, table => ByteTable.insertNull table
  | .block _, table => BlockTable.insertNull table

def nullSlot? : {l : Layout} → Memo l → Option Nat
  | .none, table => table.elim
  | .bit, table => BooleanTable.nullSlot table
  | .word _ _, table => WordTable.nullSlot table
  | .text, table | .bytes, table => ByteTable.nullSlot table
  | .block _, table => BlockTable.nullSlot table

/-- The number of slots given out, that of null included. -/
def size : {l : Layout} → Memo l → Nat
  | .none, table => table.elim
  | .bit, table => BooleanTable.size table
  | .word _ _, table => WordTable.size table
  | .text, table | .bytes, table => ByteTable.size table
  | .block _, table => BlockTable.size table

def isEmpty {l : Layout} (table : Memo l) : Bool := table.size == 0

def clear : {l : Layout} → Memo l → Memo l
  | .none, table => table.elim
  | .bit, _ => BooleanTable.empty
  | .word _ _, table => WordTable.empty (WordTable.hash table)
  | .text, table | .bytes, table => ByteTable.empty (ByteTable.hash table)
  | .block _, table => BlockTable.empty (BlockTable.hash table)

def toCells : {l : Layout} → Memo l → Except Failure (Cells l)
  | .none, table => table.elim
  | .bit, table => .ok (BooleanTable.toCells table)
  | .word _ _, table => .ok (WordTable.toCells table)
  | .text, table => ByteTable.toTextCells table
  | .bytes, table => ByteTable.toCells table
  | .block _, table => .ok (BlockTable.toCells table)

/-- The slots in order as a column. A table of words gives them the type `as`, which must be one of its
own; the other tables keep to the type `t` they were created for. -/
def toColumn (family : MemoFamily) (t : DataType) (table : Memo t.layout) (as : DataType) :
    Except Failure Column :=
  match family with
  | .primitive _ =>
    if h : family.accepts as ∧ t.layout = as.layout then
      (toCells (h.2 ▸ table)).map fun cells => ⟨as, cells⟩
    else .error .outOfBounds
  | _ => (toCells table).map fun cells => ⟨t, cells⟩

end Memo

end Columnar
