import Columnar.Proofs.Merge.Ascending

namespace Columnar

namespace Layout

end Layout

variable {l : Layout}

/-- How far the offsets of a column go that has all of the positions. -/
def Cells.reach (c : Cells l) : ℕ := ((List.range c.length).map c.extent).sum

namespace Position

def extent (sources : Array (Cells l)) (p : Position) : ℕ :=
  sources[p.array.toNat]?.elim 0 (·.extent p.offset.toNat)

section Gather

variable {sources : Array (Cells l)} {offset : ℕ} {p : Position} {ps : List Position}

variable {xs : List (Option l.Element)} (h : ps.map (element? sources) = xs.map some)

include h

end Gather

section Take

variable (t : DataType) (columns : List (Cells t.layout)) (hne : columns ≠ [])

include hne

end Take

end Position

namespace Merge

section Elements

variable {columns : List (Cells l)} (hfit : Addressable columns) {array : ℕ} {c : Cells l}

include hfit

end Elements

end Merge

end Columnar
