import Columnar.Column
import Columnar.Memo.Slot
import Columnar.Text.Utf8

namespace Columnar.Memo

structure ByteTable where
  hash : List UInt8 → UInt64
  index : SlotIndex
  buffer : Array UInt8
  offsets : Array Nat
  nullSlot : Option Nat

namespace ByteTable

def empty (hash : List UInt8 → UInt64) : ByteTable := ⟨hash, .empty, #[], #[0], none⟩

def size (table : ByteTable) : Nat := table.offsets.size - 1

def span (table : ByteTable) (slot : Nat) : List UInt8 :=
  (table.buffer.extract (table.offsets.getD slot 0) (table.offsets.getD (slot + 1) 0)).toList

def find? (table : ByteTable) (value : List UInt8) : Option Nat :=
  table.index.find? (table.hash value) fun slot => table.span slot == value

def insert (table : ByteTable) (value : List UInt8) : Except Failure (Lookup × ByteTable) :=
  match table.find? value with
  | some slot => .ok (.found slot, table)
  | none => do
    let slot ← nextSlot table.size
    return (.inserted slot,
      { table with
        index := table.index.insert (table.hash value) slot
        buffer := table.buffer ++ value
        offsets := table.offsets.push (table.buffer.size + value.length) })

def insertNull (table : ByteTable) : Except Failure (Lookup × ByteTable) :=
  match table.nullSlot with
  | some slot => .ok (.found slot, table)
  | none => do
    let slot ← nextSlot table.size
    return (.inserted slot,
      { table with offsets := table.offsets.push table.buffer.size, nullSlot := some slot })

def spans (table : ByteTable) : Array (List UInt8) := (Array.range table.size).map table.span

def checkOffsets (table : ByteTable) (t : DataType) : Except Failure Unit :=
  if table.offsets.all (· ≤ Layout.largestOffset) then .ok ()
  else .error (.capacity (.offsets t table.buffer.size))

def toCells (table : ByteTable) : Except Failure (Cells .bytes) := do
  table.checkOffsets .binary
  return Cells.withNull (table.spans.map some) table.nullSlot

/-- All the bytes together must be text, and every slot must start where a character does. -/
def checkText (table : ByteTable) : Except Failure Unit :=
  match Text.decode table.buffer.toList with
  | .error fault => .error (.format (.notUtf8 fault))
  | .ok _ =>
    match table.offsets.find? fun o => !Text.isBoundary table.buffer o with
    | some o => .error (.format (.splitCharacter o))
    | none => .ok ()

def toTextCells (table : ByteTable) : Except Failure (Cells .text) := do
  table.checkOffsets .utf8
  table.checkText
  let texts ← table.spans.mapM fun span =>
    (Text.decode span).mapError fun fault => .format (.notUtf8 fault)
  return Cells.withNull (texts.map some) table.nullSlot

end ByteTable

end Columnar.Memo
