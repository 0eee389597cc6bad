import Columnar.Column
import Columnar.Memo.Slot

namespace Columnar.Memo

structure BooleanTable where
  falseSlot : Option Nat
  trueSlot : Option Nat
  nullSlot : Option Nat
  order : Array (Option Bool)

namespace BooleanTable

def empty : BooleanTable := ⟨none, none, none, #[]⟩

def size (table : BooleanTable) : Nat := table.order.size

def slot? (table : BooleanTable) : Bool → Option Nat
  | false => table.falseSlot
  | true => table.trueSlot

def withSlot (table : BooleanTable) (slot : Nat) : Bool → BooleanTable
  | false => { table with falseSlot := some slot, order := table.order.push (some false) }
  | true => { table with trueSlot := some slot, order := table.order.push (some true) }

def insert (table : BooleanTable) (value : Bool) : Except Failure (Lookup × BooleanTable) :=
  match table.slot? value with
  | some slot => .ok (.found slot, table)
  | none => do
    let slot ← nextSlot table.size
    return (.inserted slot, table.withSlot slot value)

def insertNull (table : BooleanTable) : Except Failure (Lookup × BooleanTable) :=
  match table.nullSlot with
  | some slot => .ok (.found slot, table)
  | none => do
    let slot ← nextSlot table.size
    return (.inserted slot, { table with nullSlot := some slot, order := table.order.push none })

def toCells (table : BooleanTable) : Cells .bit := Cells.ofList table.order.toList

end BooleanTable

end Columnar.Memo
