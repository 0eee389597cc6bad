import Columnar.Merge
import Columnar.Proofs.Merge.Runs

namespace Columnar.Merge

variable {α : Type}

/-- The positions of the elements kept, the first element of the column standing at `offset`. -/
def positionsOf (keep : Option α → Bool) (array offset : ℕ) (xs : List (Option α)) :
    List Position :=
  ((xs.zipIdx offset).filter fun x => keep x.1).map
    fun x => ⟨UInt32.ofNat array, UInt32.ofNat x.2⟩

def partsOf (keep : Option α → Bool) (array : ℕ) (columns : List (List (Option α))) :
    List (List Position) :=
  (columns.zipIdx array).map fun c => positionsOf keep c.2 0 c.1

@[simp] theorem positionsOf_nil (keep : Option α → Bool) (array offset : ℕ) :
    positionsOf keep array offset [] = [] := rfl

theorem positionsOf_cons (keep : Option α → Bool) (array offset : ℕ) (x : Option α)
    (xs : List (Option α)) :
    positionsOf keep array offset (x :: xs) =
      (if keep x then [⟨UInt32.ofNat array, UInt32.ofNat offset⟩] else []) ++
        positionsOf keep array (offset + 1) xs := by
  by_cases h : keep x <;> simp [positionsOf, h]

theorem partsOf_cons (keep : Option α → Bool) (array : ℕ) (xs : List (Option α))
    (columns : List (List (Option α))) :
    partsOf keep array (xs :: columns) =
      positionsOf keep array 0 xs :: partsOf keep (array + 1) columns := rfl

theorem mem_positionsOf {keep : Option α → Bool} {array offset : ℕ} {xs : List (Option α)}
    {p : Position} :
    p ∈ positionsOf keep array offset xs ↔ ∃ i x, xs[i]? = some x ∧ keep x ∧
      p = ⟨UInt32.ofNat array, UInt32.ofNat (offset + i)⟩ := by
  simp only [positionsOf, List.mem_map, List.mem_filter, Prod.exists,
    List.mem_zipIdx_iff_le_and_getElem?_sub]
  constructor
  · rintro ⟨x, i, ⟨⟨hi, hx⟩, hk⟩, rfl⟩
    exact ⟨i - offset, x, hx, hk, by rw [Nat.add_sub_cancel' hi]⟩
  · rintro ⟨i, x, hx, hk, rfl⟩
    exact ⟨x, offset + i, ⟨⟨by omega, by simpa using hx⟩, hk⟩, rfl⟩

theorem mem_partsOf_flatten {keep : Option α → Bool} {array : ℕ}
    {columns : List (List (Option α))} {p : Position} :
    p ∈ (partsOf keep array columns).flatten ↔ ∃ a xs i x, columns[a]? = some xs ∧
      xs[i]? = some x ∧ keep x ∧ p = ⟨UInt32.ofNat (array + a), UInt32.ofNat i⟩ := by
  simp only [partsOf, List.mem_flatten, List.mem_map, Prod.exists,
    List.mem_zipIdx_iff_le_and_getElem?_sub]
  constructor
  · rintro ⟨_, ⟨xs, a, ⟨ha, hxs⟩, rfl⟩, hp⟩
    obtain ⟨i, x, hx, hk, rfl⟩ := mem_positionsOf.mp hp
    exact ⟨a - array, xs, i, x, hxs, hx, hk, by rw [Nat.add_sub_cancel' ha, Nat.zero_add]⟩
  · rintro ⟨a, xs, i, x, hxs, hx, hk, rfl⟩
    exact ⟨_, ⟨xs, array + a, ⟨by omega, by simpa using hxs⟩, rfl⟩,
      mem_positionsOf.mpr ⟨i, x, hx, hk, by rw [Nat.zero_add]⟩⟩

theorem length_positionsOf (keep : Option α → Bool) (array offset : ℕ) (xs : List (Option α)) :
    (positionsOf keep array offset xs).length = xs.countP keep := by
  have h := congrArg (List.countP keep) (List.zipIdx_map_fst offset xs)
  rw [List.countP_map] at h
  rw [positionsOf, List.length_map, ← List.countP_eq_length_filter, ← h]
  rfl

theorem length_partsOf_flatten (keep : Option α → Bool) (array : ℕ)
    (columns : List (List (Option α))) :
    (partsOf keep array columns).flatten.length = (columns.map (List.countP keep)).sum := by
  induction columns generalizing array with
  | nil => rfl
  | cons xs columns ih =>
    rw [partsOf_cons, List.flatten_cons, List.length_append, length_positionsOf, ih, List.map_cons,
      List.sum_cons]

theorem getElem?_partsOf (keep : Option α → Bool) (columns : List (List (Option α))) (k : ℕ) :
    (partsOf keep 0 columns)[k]? = columns[k]?.map (positionsOf keep k 0) := by
  rw [partsOf, List.getElem?_map, List.getElem?_zipIdx]
  cases columns[k]? <;> simp

namespace Partition

/-- Values from the front, nulls up to the end and between them a gap. -/
def ofParts (values gap nulls : List Position) (runs : List Run) : Partition :=
  ⟨(values ++ gap ++ nulls).toArray, values.length, values.length + gap.length, runs⟩

theorem start_eq_ofParts (total : ℕ) :
    start total = ofParts [] (List.replicate total default) [] [] := by
  simp [start, ofParts]

theorem placeValue_ofParts (values gap nulls : List Position) (runs : List Run)
    (old item : Position) :
    (ofParts values (old :: gap) nulls runs).placeValue item =
      .ok (ofParts (values ++ [item]) gap nulls runs) := by
  have h : values.length < (values ++ old :: gap ++ nulls).toArray.size := by simp
  have hset : (values ++ old :: gap ++ nulls).toArray.set values.length item h =
      (values ++ [item] ++ gap ++ nulls).toArray := Array.ext' (by simp)
  have htail : values.length + (old :: gap).length = (values ++ [item]).length + gap.length := by
    simp only [List.length_append, List.length_cons, List.length_nil]
    omega
  apply (dif_pos h).trans
  simp only [ofParts, hset, htail, List.length_append, List.length_singleton]

theorem placeNull_ofParts (values gap nulls : List Position) (runs : List Run)
    (old item : Position) :
    (ofParts values (gap ++ [old]) nulls runs).placeNull item =
      .ok (ofParts values gap (item :: nulls) runs) := by
  -- The cell before the nulls is the last one of the gap.
  have hlast : values.length + (gap ++ [old]).length - 1 = (values ++ gap).length := by simp
  have h : 0 < values.length + (gap ++ [old]).length ∧
      values.length + (gap ++ [old]).length - 1 <
        (values ++ (gap ++ [old]) ++ nulls).toArray.size := by simp
  have hset : (values ++ (gap ++ [old]) ++ nulls).toArray.set
      (values.length + (gap ++ [old]).length - 1) item h.2 =
      (values ++ gap ++ item :: nulls).toArray := by
    apply Array.ext'
    simp only [hlast, Array.toList_set, ← List.append_assoc values]
    simp
  apply (dif_pos h).trans
  simp only [ofParts, hset]
  rw [hlast, List.length_append]

theorem place_ofParts (array offset : ℕ) (xs : List (Option α)) (values gap nulls : List Position)
    (runs : List Run) (hroom : xs.length ≤ gap.length) :
    ∃ gap', gap'.length + xs.length = gap.length ∧
      place (UInt32.ofNat array) (ofParts values gap nulls runs) offset xs =
        .ok (ofParts (values ++ positionsOf Option.isSome array offset xs) gap'
          ((positionsOf Option.isNone array offset xs).reverse ++ nulls) runs) := by
  induction xs generalizing offset values gap nulls with
  | nil => exact ⟨gap, rfl, by simp [place]⟩
  | cons x xs ih =>
    rw [List.length_cons] at hroom
    -- A value takes the first place of the gap and a null the last one.
    match x with
    | some x =>
      obtain ⟨old, gap, rfl⟩ : ∃ old rest, gap = old :: rest :=
        List.exists_cons_of_ne_nil (by rintro rfl; simp at hroom)
      obtain ⟨gap', hgap, h⟩ := ih (offset + 1)
        (values ++ [⟨UInt32.ofNat array, UInt32.ofNat offset⟩]) gap nulls (by simpa using hroom)
      refine ⟨gap', by simp; omega, ?_⟩
      simp only [place, Option.isSome_some, if_true, placeValue_ofParts, bind, Except.bind, h]
      simp [positionsOf_cons]
    | none =>
      obtain ⟨gap, old, rfl⟩ : ∃ rest old, gap = rest ++ [old] :=
        ⟨_, _, (List.dropLast_concat_getLast (by rintro rfl; simp at hroom)).symm⟩
      obtain ⟨gap', hgap, h⟩ := ih (offset + 1) values gap
        (⟨UInt32.ofNat array, UInt32.ofNat offset⟩ :: nulls) (by simpa using hroom)
      refine ⟨gap', by simp; omega, ?_⟩
      simp only [place, Option.isSome_none, Bool.false_eq_true, if_false, placeNull_ofParts, bind,
        Except.bind, h]
      simp [positionsOf_cons]

variable (order : Position → Position → Ordering)

theorem sortRun_ofParts (before items gap nulls : List Position) (runs : List Run) :
    sortRun order before.length (ofParts (before ++ items) gap nulls runs) =
      ofParts (before ++ items.mergeSort fun a b => order a b != .gt) gap nulls
        (runs ++ [⟨before.length, before.length + items.length⟩]) := by
  have hitems : ((before ++ items ++ gap ++ nulls).toArray.extract before.length
      (before ++ items).length).toList = items := by
    simp [List.extract_eq_take_drop]
  have hsplice := splice_toArray before items (gap ++ nulls)
    (items.mergeSort fun a b => order a b != .gt).toArray (by simp)
  simp only [← List.append_assoc] at hsplice
  simp only [sortRun, ofParts, hitems, hsplice]
  simp

theorem addColumn_ofParts {l : Layout} (array : ℕ) (c : Cells l) (harray : array ≤ largestNumber)
    (hlength : c.length ≤ largestNumber) (parts : List (List Position))
    (gap nulls : List Position) (hroom : c.length ≤ gap.length) :
    ∃ gap', gap'.length + c.length = gap.length ∧
      addColumn order (ofParts parts.flatten gap nulls (runsFrom 0 parts)) array c =
        let parts := parts ++ [(positionsOf Option.isSome array 0 c.toList).mergeSort
          fun a b => order a b != .gt]
        .ok (ofParts parts.flatten gap'
          ((positionsOf Option.isNone array 0 c.toList).reverse ++ nulls) (runsFrom 0 parts)) := by
  obtain ⟨gap', hgap, hplace⟩ := place_ofParts array 0 c.toList parts.flatten gap nulls
    (runsFrom 0 parts) (by rwa [Cells.length_toList])
  refine ⟨gap', by rwa [Cells.length_toList] at hgap, ?_⟩
  have hsort := sortRun_ofParts order parts.flatten (positionsOf Option.isSome array 0 c.toList)
    gap' ((positionsOf Option.isNone array 0 c.toList).reverse ++ nulls) (runsFrom 0 parts)
  simp only [addColumn, if_neg (Nat.not_lt.mpr harray), if_neg (Nat.not_lt.mpr hlength), hplace,
    bind, Except.bind, pure, Except.pure]
  apply congrArg Except.ok
  apply hsort.trans
  simp [runsFrom_append, runsFrom]

/-- One column after another: the values lie in a run for each column, and the nulls from the last
one back to the first. -/
theorem addColumns_ofParts {l : Layout} (array : ℕ) (columns : List (Cells l))
    (harrays : array + columns.length ≤ largestNumber + 1)
    (hlengths : ∀ c ∈ columns, c.length ≤ largestNumber)
    (parts : List (List Position)) (gap nulls : List Position)
    (hroom : (columns.map Cells.length).sum = gap.length) :
    addColumns order (ofParts parts.flatten gap nulls (runsFrom 0 parts)) array columns =
      let sorted := parts ++ (partsOf Option.isSome array (columns.map Cells.toList)).map
        fun part => part.mergeSort fun a b => order a b != .gt
      .ok (ofParts sorted.flatten []
        ((partsOf Option.isNone array (columns.map Cells.toList)).flatten.reverse ++ nulls)
        (runsFrom 0 sorted)) := by
  induction columns generalizing array parts gap nulls with
  | nil =>
    -- The gap was as long as the columns together, so by now it is used up.
    have hgap : gap = [] := List.length_eq_zero_iff.mp (by simpa using hroom.symm)
    simp [addColumns, partsOf, hgap]
  | cons c columns ih =>
    simp only [List.length_cons] at harrays
    rw [List.map_cons, List.sum_cons] at hroom
    obtain ⟨gap', hgap, h⟩ := addColumn_ofParts order array c (by omega) (hlengths c (by simp))
      parts gap nulls (by omega)
    simp only [addColumns, h, bind, Except.bind]
    rw [ih (array + 1) (by omega) (fun d hd => hlengths d (List.mem_cons_of_mem _ hd)) _ gap' _
      (by omega)]
    simp [partsOf_cons]

theorem addColumns_start {l : Layout} (columns : List (Cells l))
    (harrays : columns.length ≤ largestNumber + 1)
    (hlengths : ∀ c ∈ columns, c.length ≤ largestNumber) :
    addColumns order (start (columns.map Cells.length).sum) 0 columns =
      let sorted := (partsOf Option.isSome 0 (columns.map Cells.toList)).map
        fun part => part.mergeSort fun a b => order a b != .gt
      .ok (ofParts sorted.flatten []
        (partsOf Option.isNone 0 (columns.map Cells.toList)).flatten.reverse
        (runsFrom 0 sorted)) := by
  have h := addColumns_ofParts order 0 columns (by omega) hlengths []
    (List.replicate (columns.map Cells.length).sum default) [] (by simp)
  rw [start_eq_ofParts]
  simpa [runsFrom] using h

/-- A column too many, or one too long, is refused whatever went before. -/
theorem addColumns_refused {l : Layout} (array : ℕ) (columns : List (Cells l))
    (harray : array ≤ largestNumber + 1)
    (hbad : ¬(array + columns.length ≤ largestNumber + 1 ∧
      ∀ c ∈ columns, c.length ≤ largestNumber))
    (parts : List (List Position)) (gap nulls : List Position)
    (hroom : (columns.map Cells.length).sum = gap.length) :
    ∃ fault, addColumns order (ofParts parts.flatten gap nulls (runsFrom 0 parts)) array columns =
      .error (.capacity fault) := by
  induction columns generalizing array parts gap nulls with
  | nil => exact absurd ⟨harray, by simp⟩ hbad
  | cons c columns ih =>
    rw [List.map_cons, List.sum_cons] at hroom
    by_cases hmany : largestNumber < array
    · exact ⟨.mergeArrays, by simp [addColumns, addColumn, hmany, bind, Except.bind]⟩
    by_cases hlong : largestNumber < c.length
    · exact ⟨.mergeLength array c.length,
        by simp [addColumns, addColumn, hmany, hlong, bind, Except.bind]⟩
    -- This column can be numbered, so the one that cannot comes later.
    obtain ⟨gap', hgap, h⟩ := addColumn_ofParts order array c (by omega) (by omega) parts gap nulls
      (by omega)
    simp only [addColumns, h, bind, Except.bind]
    refine ih (array + 1) (by omega) (fun hgood => hbad ⟨?_, ?_⟩) _ gap' _ (by omega)
    · rw [List.length_cons]
      omega
    · exact List.forall_mem_cons.mpr ⟨by omega, hgood.2⟩

end Partition

end Columnar.Merge
