import Columnar.Column
import Columnar.Memo.Slot

namespace Columnar.Memo

structure WordTable (width : Nat) where
  hash : BitVec width → UInt64
  index : SlotIndex
  values : Array (BitVec width)
  nullSlot : Option Nat

namespace WordTable

variable {width : Nat}

def empty (hash : BitVec width → UInt64) : WordTable width := ⟨hash, .empty, #[], none⟩

def size (table : WordTable width) : Nat := table.values.size

def find? (table : WordTable width) (value : BitVec width) : Option Nat :=
  table.index.find? (table.hash value) fun slot => table.values[slot]? == some value

def insert (table : WordTable width) (value : BitVec width) :
    Except Failure (Lookup × WordTable width) :=
  match table.find? value with
  | some slot => .ok (.found slot, table)
  | none => do
    let slot ← nextSlot table.size
    return (.inserted slot,
      { table with
        index := table.index.insert (table.hash value) slot
        values := table.values.push value })

def insertNull (table : WordTable width) : Except Failure (Lookup × WordTable width) :=
  match table.nullSlot with
  | some slot => .ok (.found slot, table)
  | none => do
    let slot ← nextSlot table.size
    return (.inserted slot, { table with values := table.values.push 0, nullSlot := some slot })

def toCells {reading : Reading} (table : WordTable width) : Cells (.word width reading) :=
  Cells.withNull (table.values.map some) table.nullSlot

end WordTable

end Columnar.Memo
