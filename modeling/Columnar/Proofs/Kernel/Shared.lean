import Columnar.Proofs.Kernel.Calls

namespace Columnar

inductive SharedCall
  | append (column : Column)
  | flushFinal
  | dictionary
  | reset

/-- What an append is answered with: the keys of its own column, if the operation is one that has keys. -/
abbrev SharedReply : Type := Except Failure (Option (Cells DataType.int32.layout))

inductive SharedAnswer
  | appended (reply : SharedReply)
  | flushedFinal (counts : Option (Cells DataType.int64.layout))
  | dictionary (entries : Except Failure Column)
  | reset

variable [Memory] {op : Operation} {t : DataType}

namespace Ledger

/-- An append followed at once by a flush, whether it failed or not. -/
def appendShared (ledger : Ledger op t.Element) (column : Column) :
    Step (Ledger op t.Element) (Option (Cells DataType.int32.layout)) :=
  let (ledger, result) := ledger.appendColumn column
  let (out, ledger) := ledger.flush
  (ledger, result.map fun _ => out)

def nextShared (ledger : Ledger op t.Element) : SharedCall → Ledger op t.Element
  | .append column => (ledger.appendShared column).1
  | .flushFinal => ledger.flushFinal.2
  | .dictionary => ledger
  | .reset => .empty op _

end Ledger

namespace SharedKernel

variable {shared : SharedKernel op t} {ledger : Ledger op t.Element}

def call (shared : SharedKernel op t) : SharedCall → SharedAnswer × SharedKernel op t
  | .append column => (.appended (shared.append column).2, (shared.append column).1)
  | .flushFinal => (.flushedFinal shared.flushFinal.1, shared.flushFinal.2)
  | .dictionary => (.dictionary shared.dictionary, shared)
  | .reset => (.reset, shared.reset)

theorem append_holds (h : shared.inner.Holds ledger) (column : Column) :
    (shared.append column).2 = (ledger.appendShared column).2 ∧
      (shared.append column).1.inner.Holds (ledger.appendShared column).1 := by
  obtain ⟨hresult, happended⟩ := Kernel.appendColumn_holds h column
  obtain ⟨hout, hflushed⟩ := Kernel.flush_holds happended
  refine ⟨?_, hflushed⟩
  simp only [append, Ledger.appendShared, hresult, hout]
  cases (ledger.appendColumn column).2 <;> rfl

theorem call_holds (h : shared.inner.Holds ledger) (c : SharedCall) :
    (shared.call c).2.inner.Holds (ledger.nextShared c) := by
  cases c with
  | append column => exact (append_holds h column).2
  | flushFinal => exact (Kernel.flushFinal_holds h).2
  | dictionary => exact h
  | reset => exact Kernel.reset_holds shared.inner

end SharedKernel

end Columnar
