import Columnar.Proofs.Distinct.Ends
import Columnar.Proofs.Merge.Ascending

namespace Columnar

def NotImplemented {α : Type} (result : Except Failure α) : Prop :=
  ∃ operation t, result = .error (.notImplemented operation t)

section NotImplemented

variable {α β : Type}

end NotImplemented

namespace Capacity

end Capacity

variable [Memory] {op : Operation} {t : DataType} {capacity : ℕ}

namespace Merge

section Types

variable {first other : Column} {before rest after : List Column}

end Types

section Alike

variable {columns : List (Cells t.layout)} (hne : columns ≠ [])

include hne

end Alike

end Merge

end Columnar
