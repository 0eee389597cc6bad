import Columnar.Proofs.Merge.Ascending

namespace Columnar

variable {l : Layout}

/-- The number of a position when the columns lie one after another. -/
def Position.overall (columns : List (Cells l)) (p : Position) : ℕ :=
  ((columns.take p.array.toNat).map Cells.length).sum + p.offset.toNat

namespace Merge

/-- The same element in the concatenation of the columns. -/
def moved (columns : List (Cells l)) (p : Position) : Position :=
  ⟨0, UInt32.ofNat (p.overall columns)⟩

theorem positionsOf_append {α : Type} (keep : Option α → Bool) (array offset : ℕ)
    (xs ys : List (Option α)) :
    positionsOf keep array offset (xs ++ ys) =
      positionsOf keep array offset xs ++ positionsOf keep array (offset + xs.length) ys := by
  rw [positionsOf, List.zipIdx_append, List.filter_append, List.map_append]
  rfl

section Moved

variable (before : List (Cells l)) (c : Cells l) (rest : List (Cells l))

theorem moved_mk (harray : before.length ≤ largestNumber) {offset : ℕ}
    (hoffset : offset ≤ largestNumber) :
    moved (before ++ c :: rest) ⟨UInt32.ofNat before.length, UInt32.ofNat offset⟩ =
      ⟨UInt32.ofNat 0, UInt32.ofNat ((before.map Cells.length).sum + offset)⟩ := by
  rw [moved, Position.overall, toNat_ofNat_of_le harray, toNat_ofNat_of_le hoffset, List.take_left]
  rfl

theorem map_moved_positionsOf (keep : Option l.Element → Bool)
    (harray : before.length ≤ largestNumber) (offset : ℕ) (xs : List (Option l.Element))
    (hlength : offset + xs.length ≤ largestNumber + 1) :
    (positionsOf keep before.length offset xs).map (moved (before ++ c :: rest)) =
      positionsOf keep 0 ((before.map Cells.length).sum + offset) xs := by
  induction xs generalizing offset with
  | nil => rfl
  | cons x xs ih =>
    rw [List.length_cons] at hlength
    rw [positionsOf_cons, List.map_append, ih (offset + 1) (by omega), positionsOf_cons,
      Nat.add_assoc]
    by_cases hx : keep x
    · rw [if_pos hx, if_pos hx, List.map_singleton,
        moved_mk before c rest harray (by omega)]
    · rw [if_neg hx, if_neg hx, List.map_nil]

end Moved

theorem map_moved_partsOf (keep : Option l.Element → Bool) (before rest : List (Cells l))
    (hfit : Addressable (before ++ rest)) :
    (partsOf keep before.length (rest.map Cells.toList)).flatten.map (moved (before ++ rest)) =
      positionsOf keep 0 (before.map Cells.length).sum (rest.flatMap Cells.toList) := by
  induction rest generalizing before with
  | nil => rfl
  | cons c rest ih =>
    obtain ⟨hmany, hlong⟩ := hfit
    have harray : before.length ≤ largestNumber := by
      rw [List.length_append, List.length_cons] at hmany
      omega
    have hc : c.length ≤ largestNumber := hlong c (by simp)
    have hfirst := map_moved_positionsOf before c rest keep harray 0 c.toList (by simp; omega)
    -- The first column joins those before it.
    have hlater := ih (before ++ [c]) (by simpa using ⟨hmany, hlong⟩)
    rw [List.append_cons before c rest] at hfirst ⊢
    rw [List.map_cons, partsOf_cons, List.flatten_cons, List.map_append, hfirst, List.flatMap_cons,
      positionsOf_append, Nat.add_zero]
    simpa using hlater

section Whole

variable {columns : List (Cells l)} {whole : Cells l}
  (hwhole : whole.toList = columns.flatMap Cells.toList)

include hwhole

theorem getElem?_overall {p : Position} {x : Option l.Element}
    (hx : Position.element? columns.toArray p = some x) : whole.toList[p.overall columns]? = some x := by
  rw [Position.element?_toArray, Option.bind_eq_some_iff] at hx
  obtain ⟨xs, hxs, hx⟩ := hx
  have hsum : ((columns.take p.array.toNat).map Cells.length).sum =
      (((columns.map Cells.toList).map List.length).take p.array.toNat).sum := by
    simp [List.map_take, Function.comp_def]
  obtain ⟨harray, rfl⟩ := List.getElem?_eq_some_iff.mp hxs
  rw [hwhole, List.flatMap_def, Position.overall, hsum, ← List.getElem?_drop, List.drop_sum_flatten,
    List.drop_eq_getElem_cons harray, List.flatten_cons,
    List.getElem?_append_left (List.getElem?_eq_some_iff.mp hx).1]
  exact hx

theorem overall_lt {p : Position} {x : Option l.Element}
    (hx : Position.element? columns.toArray p = some x) : p.overall columns < whole.length := by
  rw [← Cells.length_toList]
  exact (List.getElem?_eq_some_iff.mp (getElem?_overall hwhole hx)).1

variable (hlength : whole.length ≤ largestNumber)

include hlength

theorem toNat_offset_moved {p : Position} {x : Option l.Element}
    (hx : Position.element? columns.toArray p = some x) :
    (moved columns p).offset.toNat = p.overall columns := by
  have hlt := overall_lt hwhole hx
  exact toNat_ofNat_of_le (by omega)

theorem element?_moved {p : Position} {x : Option l.Element}
    (hx : Position.element? columns.toArray p = some x) :
    Position.element? [whole].toArray (moved columns p) = some x := by
  have hnumber := toNat_offset_moved hwhole hlength hx
  have harray : (moved columns p).array.toNat = 0 := rfl
  rw [Position.element?_toArray, harray, hnumber]
  exact getElem?_overall hwhole hx

theorem leAt_moved {p q : Position} (hp : IsValue columns.toArray p) (hq : IsValue columns.toArray q) :
    leAt columns.toArray p q = leAt [whole].toArray (moved columns p) (moved columns q) := by
  obtain ⟨x, hx⟩ := hp
  obtain ⟨y, hy⟩ := hq
  simp only [leAt, hx, hy, element?_moved hwhole hlength hx, element?_moved hwhole hlength hy]

theorem addressable_of_whole (hmany : columns.length ≤ largestNumber + 1) : Addressable columns := by
  refine ⟨hmany, fun c hc => ?_⟩
  have hpart : c.toList.length ≤ (columns.flatMap Cells.toList).length :=
    (List.sublist_flatten_of_mem (List.mem_map_of_mem hc)).length_le
  rw [← hwhole, Cells.length_toList, Cells.length_toList] at hpart
  omega

omit hlength in
theorem reserve_whole [Memory] : reserve [whole] = reserve columns := by
  have htotal : whole.length = (columns.map Cells.length).sum := by
    rw [← Cells.length_toList, hwhole, List.length_flatMap]
    simp
  rw [reserve, reserve, List.map_singleton, List.sum_singleton, htotal]

theorem sortCells_concat [Memory] (hmany : columns.length ≤ largestNumber + 1)
    (hroom : reserve columns = .ok ()) :
    ∃ positions, sortCells columns = .ok positions ∧
      sortCells [whole] = .ok (positions.map (moved columns)) ∧
      ∀ p ∈ positions, ∃ x, Position.element? columns.toArray p = some x := by
  have hfit : Addressable columns := addressable_of_whole hwhole hlength hmany
  have hone : Addressable [whole] := ⟨by simp, by simpa using hlength⟩
  have hwholeRoom : reserve [whole] = .ok () := (reserve_whole hwhole).trans hroom
  have hparts (keep : Option l.Element → Bool) :
      (partsOf keep 0 ([whole].map Cells.toList)).flatten =
        (partsOf keep 0 (columns.map Cells.toList)).flatten.map (moved columns) := by
    have hall := map_moved_partsOf keep [] columns hfit
    rw [← hwhole] at hall
    simpa [partsOf_cons, partsOf] using hall.symm
  -- Moved positions hold the same elements, so it makes no difference whether they are moved or sorted first.
  have hvalues : ((partsOf Option.isSome 0 (columns.map Cells.toList)).flatten.mergeSort
      (leAt columns.toArray)).map (moved columns) =
        ((partsOf Option.isSome 0 (columns.map Cells.toList)).flatten.map (moved columns)).mergeSort
          (leAt [whole].toArray) := by
    refine List.map_mergeSort fun p hp q hq => ?_
    exact leAt_moved hwhole hlength (isValue_of_mem_parts hfit hp) (isValue_of_mem_parts hfit hq)
  refine ⟨_, sortCells_eq columns hfit hroom, ?_, fun p hp => ?_⟩
  · rw [sortCells_eq [whole] hone hwholeRoom, hparts, hparts, List.map_append, hvalues, List.map_reverse]
  · rcases List.mem_append.mp hp with hvalue | hnull
    · obtain ⟨x, hx, -⟩ := (mem_partsOf_iff hfit _ p).mp (List.mem_mergeSort.mp hvalue)
      exact ⟨x, hx⟩
    · obtain ⟨x, hx, -⟩ := (mem_partsOf_iff hfit _ p).mp (List.mem_reverse.mp hnull)
      exact ⟨x, hx⟩

end Whole

/-- The sorted positions of columns, numbered through all columns, are entry by entry the sorted offsets of
their concatenation, the nulls at the end included. Numbers have 32 bits: more columns than that are refused,
and so is a concatenation of more elements. Both ask for the same room, and fail alike without it. -/
theorem sortedPositions_concat [Memory] (t : DataType) (ht : hasOrder t) (columns : List (Cells t.layout))
    (hne : columns ≠ []) (whole : Cells t.layout)
    (hwhole : whole.toList = columns.flatMap Cells.toList) :
    (columns.length ≤ largestNumber + 1 → whole.length ≤ largestNumber → reserve columns = .ok () →
      ∃ positions inWhole,
        sortedPositions (columns.map (Column.mk t)) = .ok positions ∧
        sortedPositions [⟨t, whole⟩] = .ok inWhole ∧
        (∀ p ∈ inWhole, p.array = 0) ∧
        positions.map (Position.overall columns) = inWhole.map (·.offset.toNat)) ∧
    (∀ e, reserve columns = .error e →
      sortedPositions (columns.map (Column.mk t)) = .error e ∧
      sortedPositions [⟨t, whole⟩] = .error e) ∧
    (largestNumber + 1 < columns.length → ∃ fault,
      sortedPositions (columns.map (Column.mk t)) = .error (.capacity fault)) ∧
    (largestNumber < whole.length → ∃ fault,
      sortedPositions [⟨t, whole⟩] = .error (.capacity fault)) := by
  have hone : sortedPositions [⟨t, whole⟩] = sortCells [whole] :=
    sortedPositions_mk t [whole] (List.cons_ne_nil _ _) ht
  rw [sortedPositions_mk t columns hne ht, hone]
  refine ⟨fun hmany hlength hroom => ?_, fun e hrefused => ?_, fun hmany => ?_, fun hlong => ?_⟩
  · obtain ⟨positions, hcolumns, hmoved, helements⟩ :=
      sortCells_concat hwhole hlength hmany hroom
    refine ⟨positions, _, hcolumns, hmoved, ?_, ?_⟩
    · intro q hq
      obtain ⟨p, -, rfl⟩ := List.mem_map.mp hq
      rfl
    · rw [List.map_map]
      refine List.map_congr_left fun p hp => ?_
      obtain ⟨x, hx⟩ := helements p hp
      exact (toNat_offset_moved hwhole hlength hx).symm
  · exact ⟨sortCells_unreserved hrefused,
      sortCells_unreserved ((reserve_whole hwhole).trans hrefused)⟩
  · exact sortCells_refused columns fun hfit => absurd hfit.1.1 (Nat.not_le_of_lt hmany)
  · refine sortCells_refused [whole] fun hfit => ?_
    exact absurd (hfit.1.2 whole List.mem_cons_self) (Nat.not_le_of_lt hlong)

/-- Ties across three columns, one of them empty, a null in each of the others, and a NaN under a mask. -/
theorem sortedPositions_concat_floats :
    letI : Memory := .of47Bits
    let columns : List (Cells DataType.float64.layout) :=
      [.ofList [some 0x0000000000000000#64, none, some 0x8000000000000000#64], .ofList [],
        .masked #[some 0x7ff8000000000001#64, some 0x0000000000000000#64] #[false, true]]
    let whole : Cells DataType.float64.layout :=
      (Cells.ofList [some 5#64, some 0x0000000000000000#64, none, some 0x8000000000000000#64, none,
        some 0x0000000000000000#64]).slice 1 5
    hasOrder .float64 = true ∧ columns ≠ [] ∧ whole.toList = columns.flatMap Cells.toList ∧
    columns.length ≤ largestNumber + 1 ∧ whole.length ≤ largestNumber ∧ reserve columns = .ok () ∧
    ∃ positions inWhole,
      sortedPositions (columns.map (Column.mk .float64)) = .ok positions ∧
      sortedPositions [⟨.float64, whole⟩] = .ok inWhole ∧ (∀ p ∈ inWhole, p.array = 0) ∧
      positions.map (Position.overall columns) = inWhole.map (·.offset.toNat) := by
  intro columns whole
  let memory : Memory := .of47Bits
  have hne : columns ≠ [] := List.cons_ne_nil _ _
  have hwhole : whole.toList = columns.flatMap Cells.toList := rfl
  have hmany : columns.length ≤ largestNumber + 1 := by decide
  have hlength : whole.length ≤ largestNumber := by decide
  have hroom : reserve columns = .ok () := rfl
  exact ⟨rfl, hne, hwhole, hmany, hlength, hroom,
    (sortedPositions_concat .float64 rfl columns hne whole hwhole).1 hmany hlength hroom⟩

end Merge

end Columnar
