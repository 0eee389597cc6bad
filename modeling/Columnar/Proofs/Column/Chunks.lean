import Columnar.Proofs.Kernel.Calls
import Columnar.Sample

namespace Columnar

/-- Windows of `step` positions, the last of which ends with the cells. -/
def Cells.pieces {l : Layout} (c : Cells l) (step : ℕ) : List (Cells l) :=
  (List.range ((c.length + step - 1) / step)).map fun i =>
    c.slice (i * step) (min step (c.length - i * step))

/-- Pieces of a column: windows one behind the other that together are the column, none of them empty and none
but the last shorter than `step`. -/
structure Column.CutInto (c : Column) (step : ℕ) (pieces : List Column) : Prop where
  windows : ∀ i piece, pieces[i]? = some piece →
    piece = c.slice ((pieces.take i).map Column.length).sum piece.length
  whole : pieces.flatMap (Column.elements c.type) = c.elements c.type
  length_ne_zero : ∀ piece ∈ pieces, piece.length ≠ 0
  length_le : ∀ piece ∈ pieces, piece.length ≤ step
  length_eq : ∀ i piece, pieces[i]? = some piece → i + 1 < pieces.length → piece.length = step

theorem Column.chunks_mk {t : DataType} (c : Cells t.layout) (chunkLength : ℕ) :
    Column.chunks ⟨t, c⟩ chunkLength = (c.pieces (max chunkLength 1)).map (Column.mk t) := by
  rw [Cells.pieces, List.map_map]
  rfl

namespace Cells

variable {l : Layout} (c : Cells l) {step : ℕ}

theorem length_slice_min (o : ℕ) :
    (c.slice o (min step (c.length - o))).length = min step (c.length - o) :=
  min_eq_left (min_le_right _ _)

theorem toList_slice_min (o : ℕ) :
    (c.slice o (min step (c.length - o))).toList = (c.toList.drop o).take step := by
  rw [toList_slice, ← c.length_toList, ← List.length_drop, List.take_eq_take_min, min_assoc, min_self,
    ← List.take_eq_take_min]

theorem flatMap_range_slice (n : ℕ) :
    ((List.range n).flatMap fun i => (c.slice (i * step) (min step (c.length - i * step))).toList) =
      c.toList.take (n * step) := by
  induction n with
  | zero => simp
  | succ n ih =>
    rw [List.range_succ, List.flatMap_append, ih, List.flatMap_singleton, toList_slice_min,
      Nat.succ_mul, List.take_add]

theorem lt_length_pieces_iff (hstep : 0 < step) (i : ℕ) :
    i < (c.pieces step).length ↔ i * step < c.length := by
  rw [pieces, List.length_map, List.length_range, ← Nat.succ_le_iff, Nat.le_div_iff_mul_le hstep,
    Nat.succ_mul]
  omega

theorem getElem?_pieces {i : ℕ} {piece : Cells l} (h : (c.pieces step)[i]? = some piece) :
    piece = c.slice (i * step) (min step (c.length - i * step)) := by
  obtain ⟨hi, rfl⟩ := List.getElem?_eq_some_iff.mp h
  simp [pieces]

theorem flatMap_pieces (hstep : 0 < step) : (c.pieces step).flatMap toList = c.toList := by
  have hall : c.length ≤ (c.pieces step).length * step :=
    Nat.le_of_not_lt fun hlt => absurd ((c.lt_length_pieces_iff hstep _).mpr hlt) (lt_irrefl _)
  rw [pieces, List.length_map, List.length_range] at hall
  rw [pieces, List.flatMap_map, flatMap_range_slice, List.take_of_length_le (by simpa using hall)]

theorem sum_length_take_pieces (hstep : 0 < step) {i : ℕ} (hi : i < (c.pieces step).length) :
    (((c.pieces step).take i).map length).sum = i * step := by
  have hstart := (c.lt_length_pieces_iff hstep i).mp hi
  have hfirst : ((c.pieces step).take i).flatMap toList = c.toList.take (i * step) := by
    rw [pieces, List.length_map, List.length_range] at hi
    rw [pieces, ← List.map_take, List.take_range, min_eq_left hi.le, List.flatMap_map,
      flatMap_range_slice]
  have hlengths := congrArg List.length hfirst
  rw [List.length_flatMap, List.length_take, length_toList, min_eq_left hstart.le] at hlengths
  simpa using hlengths

end Cells

/-- A chunk length of zero counts as one. -/
theorem Column.cutInto_chunks (c : Column) (chunkLength : ℕ) :
    c.CutInto (max chunkLength 1) (c.chunks chunkLength) := by
  obtain ⟨t, c⟩ := c
  have hstep : 0 < max chunkLength 1 := by omega
  generalize hmax : max chunkLength 1 = step at hstep
  rw [chunks_mk, hmax]
  have hpiece {i : ℕ} {piece : Column} (h : ((c.pieces step).map (Column.mk t))[i]? = some piece) :
      i < (c.pieces step).length ∧
        piece = ⟨t, c.slice (i * step) (min step (c.length - i * step))⟩ := by
    rw [List.getElem?_map, Option.map_eq_some_iff] at h
    obtain ⟨cells, hcells, rfl⟩ := h
    exact ⟨(List.getElem?_eq_some_iff.mp hcells).1, by rw [c.getElem?_pieces hcells]⟩
  have hlength {i : ℕ} {piece : Column} (h : ((c.pieces step).map (Column.mk t))[i]? = some piece) :
      piece.length = min step (c.length - i * step) := by
    rw [(hpiece h).2]
    exact c.length_slice_min _
  have hmem {piece : Column} (h : piece ∈ (c.pieces step).map (Column.mk t)) :
      piece.length ≠ 0 ∧ piece.length ≤ step := by
    obtain ⟨i, h⟩ := List.mem_iff_getElem?.mp h
    have hstart := (c.lt_length_pieces_iff hstep i).mp (hpiece h).1
    rw [hlength h]
    omega
  refine ⟨fun i piece h => ?_, ?_, fun piece h => (hmem h).1, fun piece h => (hmem h).2,
    fun i piece h hlast => ?_⟩
  -- All windows before a window are full, so it starts where they end.
  · have hbefore : ((((c.pieces step).map (Column.mk t)).take i).map Column.length).sum = i * step := by
      rw [← c.sum_length_take_pieces hstep (hpiece h).1, ← List.map_take, List.map_map]
      rfl
    rw [hbefore, hlength h]
    exact (hpiece h).2
  · rw [elements_mk, ← c.flatMap_pieces hstep, List.flatMap_map]
    exact congrArg (List.flatMap · _) (funext elements_mk)
  · rw [List.length_map, c.lt_length_pieces_iff hstep, Nat.succ_mul] at hlast
    rw [hlength h]
    omega

end Columnar
