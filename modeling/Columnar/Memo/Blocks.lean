import Columnar.Column
import Columnar.Memo.Slot

namespace Columnar.Memo

structure BlockTable (width : Nat) where
  hash : List UInt8 → UInt64
  index : SlotIndex
  buffer : Array UInt8
  size : Nat
  nullSlot : Option Nat

namespace BlockTable

variable {width : Nat}

def empty (hash : List UInt8 → UInt64) : BlockTable width := ⟨hash, .empty, #[], 0, none⟩

def block (table : BlockTable width) (slot : Nat) : List UInt8 :=
  (table.buffer.extract (slot * width) ((slot + 1) * width)).toList

def find? (table : BlockTable width) (value : List UInt8) : Option Nat :=
  table.index.find? (table.hash value) fun slot => table.block slot == value

def insert (table : BlockTable width) (value : List UInt8) :
    Except Failure (Lookup × BlockTable width) :=
  match table.find? value with
  | some slot => .ok (.found slot, table)
  | none => do
    let slot ← nextSlot table.size
    return (.inserted slot,
      { table with
        index := table.index.insert (table.hash value) slot
        buffer := table.buffer ++ value
        size := table.size + 1 })

def insertNull (table : BlockTable width) : Except Failure (Lookup × BlockTable width) :=
  match table.nullSlot with
  | some slot => .ok (.found slot, table)
  | none => do
    let slot ← nextSlot table.size
    return (.inserted slot,
      { table with
        buffer := table.buffer ++ Array.replicate width (0 : UInt8)
        size := table.size + 1
        nullSlot := some slot })

/-- How many blocks a column made from the buffer has. Blocks of width zero leave no bytes to count,
so then only a validity mask has a length. -/
def cellCount (table : BlockTable width) : Nat :=
  if width = 0 then if table.nullSlot.isSome then table.size else 0
  else table.buffer.size / width

def cell (table : BlockTable width) (slot : Nat) : Option (Block width) :=
  if h : (table.block slot).length = width then some ⟨table.block slot, h⟩ else none

def toCells (table : BlockTable width) : Cells (.block width) :=
  Cells.withNull ((Array.range table.cellCount).map table.cell) table.nullSlot

end BlockTable

end Columnar.Memo
