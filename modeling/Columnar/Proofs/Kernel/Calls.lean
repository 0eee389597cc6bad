import Columnar.Proofs.Kernel.Ledger
import Columnar.Proofs.Trace

namespace Columnar

inductive Call
  | append (column : Column)
  | flush
  | flushFinal
  | dictionary
  | reset

inductive Answer
  | appended (result : Except Failure Unit)
  | flushed (keys : Except Failure (Option (Cells DataType.int32.layout)))
  | flushedFinal (counts : Option (Cells DataType.int64.layout))
  | dictionary (entries : Except Failure Column)
  | reset

namespace Kernel

variable {op : Operation} {t : DataType}

def call [Memory] (kernel : Kernel op t) : Call → Answer × Kernel op t
  | .append column => (.appended (kernel.append column).2, (kernel.append column).1)
  | .flush => (.flushed kernel.flush.1, kernel.flush.2)
  | .flushFinal => (.flushedFinal kernel.flushFinal.1, kernel.flushFinal.2)
  | .dictionary => (.dictionary kernel.dictionary, kernel)
  | .reset => (.reset, kernel.reset)

/-- A kernel as it is when it is made, and again after a reset. -/
inductive Begun [Memory] : Kernel op t → Prop
  | made {capacity : ℕ} {kernel : Kernel op t} (h : create op t capacity = .ok kernel) : Begun kernel
  | reset (kernel : Kernel op t) : Begun kernel.reset

theorem Begun.holds [Memory] {kernel : Kernel op t} (h : kernel.Begun) : kernel.Holds (.empty op _) := by
  cases h with
  | made h => exact create_holds h
  | reset kernel => exact reset_holds kernel

theorem append_other [Memory] {kernel : Kernel op t} {column : Column} (h : column.as? t = none) :
    kernel.append column = (kernel, .error (.invalidInput (.chunkType t column.type))) := by
  simp only [append, h]

end Kernel

namespace Ledger

variable [Memory] {op : Operation} {t : DataType}

/-- A column of another type leaves no trace. -/
def appendColumn (ledger : Ledger op t.Element) (column : Column) : Step (Ledger op t.Element) Unit :=
  match column.as? t with
  | none => (ledger, .error (.invalidInput (.chunkType t column.type)))
  | some cells => ledger.append cells.toList

theorem appendColumn_eq (ledger : Ledger op t.Element) (column : Column) :
    ledger.appendColumn column = (ledger, .error (.invalidInput (.chunkType t column.type))) ∨
      ledger.appendColumn column = ledger.append (column.elements t) := by
  unfold appendColumn Column.elements
  cases column.as? t with
  | none => exact Or.inl rfl
  | some cells => exact Or.inr rfl

def next (ledger : Ledger op t.Element) : Call → Ledger op t.Element
  | .append column => (ledger.appendColumn column).1
  | .flush => ledger.flush.2
  | .flushFinal => ledger.flushFinal.2
  | .dictionary => ledger
  | .reset => .empty op _

end Ledger

namespace Kernel

variable [Memory] {op : Operation} {t : DataType} {kernel : Kernel op t} {ledger : Ledger op t.Element}

theorem appendColumn_holds (h : kernel.Holds ledger) (column : Column) :
    (kernel.append column).2 = (ledger.appendColumn column).2 ∧
      (kernel.append column).1.Holds (ledger.appendColumn column).1 := by
  unfold Ledger.appendColumn
  split
  · next hother => rw [append_other hother]; exact ⟨rfl, h⟩
  · next cells hcells =>
    obtain rfl := Column.as?_eq_some.mp hcells
    exact append_holds h cells

theorem call_holds (h : kernel.Holds ledger) (call : Call) :
    (kernel.call call).2.Holds (ledger.next call) := by
  cases call with
  | append column => exact (appendColumn_holds h column).2
  | flush => exact (flush_holds h).2
  | flushFinal => exact (flushFinal_holds h).2
  | dictionary => exact h
  | reset => exact reset_holds kernel

end Kernel

end Columnar
