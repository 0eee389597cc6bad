import Columnar.Proofs.Merge.Ascending
import Columnar.Proofs.Merge.InPlace

namespace Columnar.Merge

variable {l : Layout}

/-- What is done to the buffer: a column is taken up, its elements are placed one by one, and its run is
sorted. -/
inductive Move
  | takeUp (array length : ℕ)
  | value (item : Position)
  | null (item : Position)
  | sort

def Move.places : Move → Bool
  | .value _ | .null _ => true
  | .takeUp _ _ | .sort => false

def placements {α : Type} (array offset : ℕ) : List (Option α) → List Move
  | [] => []
  | x :: xs =>
    let item : Position := ⟨UInt32.ofNat array, UInt32.ofNat offset⟩
    (if x.isSome then .value item else .null item) :: placements array (offset + 1) xs

def columnMoves (array : ℕ) (c : Cells l) : List Move :=
  .takeUp array c.length :: (placements array 0 c.toList ++ [.sort])

def moves (array : ℕ) : List (Cells l) → List Move
  | [] => []
  | c :: columns => columnMoves array c ++ moves (array + 1) columns

/-- A partition on the way, with the start of the run at hand and the cells written to so far. -/
structure Filling extends Partition where
  start : ℕ
  written : List ℕ

namespace Filling

def ofBuffer (buffer : Array Position) : Filling := ⟨⟨buffer, 0, buffer.size, []⟩, 0, []⟩

/-- Every position that is placed goes through here. -/
def write (f : Filling) (cell : ℕ) (item : Position) : Except Failure Filling :=
  if h : cell < f.buffer.size then
    .ok { f with buffer := f.buffer.set cell item, written := f.written ++ [cell] }
  else .error .outOfBounds

def perform (order : Position → Position → Ordering) (f : Filling) : Move → Except Failure Filling
  | .takeUp array length =>
    if largestNumber < array then .error (.capacity .mergeArrays)
    else if largestNumber < length then .error (.capacity (.mergeLength array length))
    else .ok { f with start := f.head }
  | .value item => do
    let f ← f.write f.head item
    return { f with head := f.head + 1 }
  | .null item =>
    if f.tail = 0 then .error .outOfBounds
    else do
      let f ← f.write (f.tail - 1) item
      return { f with tail := f.tail - 1 }
  | .sort =>
    if f.start ≤ f.head ∧ f.head ≤ f.buffer.size then
      .ok { f with toPartition := f.toPartition.sortRun order f.start }
    else .error .outOfBounds

def performAll (order : Position → Position → Ordering) (f : Filling) (moves : List Move) :
    Except Failure Filling :=
  moves.foldlM (perform order) f

variable {order : Position → Position → Ordering} {f : Filling} {rest : List Move}

theorem exists_of_map_toPartition {result : Except Failure Filling} {p : Partition}
    (h : result.map toPartition = .ok p) : ∃ f, result = .ok f ∧ f.toPartition = p := by
  cases result with
  | error e => cases h
  | ok f => exact ⟨f, rfl, Except.ok.inj h⟩

theorem eq_error_of_map_toPartition {result : Except Failure Filling} {e : Failure}
    (h : result.map toPartition = .error e) : result = .error e := by
  cases result with
  | error e' => exact congrArg Except.error (Except.error.inj h)
  | ok f => cases h

theorem performAll_cons (move : Move) (rest : List Move) :
    f.performAll order (move :: rest) = f.perform order move >>= (performAll order · rest) :=
  List.foldlM_cons

theorem performAll_append (done rest : List Move) :
    f.performAll order (done ++ rest) = f.performAll order done >>= (performAll order · rest) :=
  List.foldlM_append

theorem perform_value (order : Position → Position → Ordering) (f : Filling) (item : Position) :
    f.perform order (.value item) =
      if h : f.head < f.buffer.size then
        .ok { f with
          buffer := f.buffer.set f.head item
          head := f.head + 1
          written := f.written ++ [f.head] }
      else .error .outOfBounds := by
  rw [perform, write]
  split_ifs <;> rfl

theorem perform_null (order : Position → Position → Ordering) (f : Filling) (item : Position) :
    f.perform order (.null item) =
      if h : 0 < f.tail ∧ f.tail - 1 < f.buffer.size then
        .ok { f with
          buffer := f.buffer.set (f.tail - 1) item
          tail := f.tail - 1
          written := f.written ++ [f.tail - 1] }
      else .error .outOfBounds := by
  rw [perform, write]
  by_cases htail : f.tail = 0
  · rw [if_pos htail, dif_neg (by omega)]
  · rw [if_neg htail]
    by_cases hcell : f.tail - 1 < f.buffer.size
    · rw [dif_pos hcell, dif_pos ⟨Nat.pos_of_ne_zero htail, hcell⟩]
      rfl
    · rw [dif_neg hcell, dif_neg fun h => hcell h.2]
      rfl

/-! ### What every move keeps -/

/-- The gap has just the room for what is still to come, and the cells outside it have been written to, each of
them once. -/
structure Sound (f : Filling) (rest : List Move) : Prop where
  start_le : f.start ≤ f.head
  gap : f.head + rest.countP Move.places = f.tail
  tail_le : f.tail ≤ f.buffer.size
  written : f.written.Perm (List.range f.head ++ List.range' f.tail (f.buffer.size - f.tail))

theorem Sound.written_all (h : f.Sound []) : f.written.Perm (List.range f.buffer.size) := by
  have hmet : f.tail = f.head := by simpa using h.gap.symm
  have hsize : f.head + (f.buffer.size - f.head) = f.buffer.size := by
    have := h.tail_le
    omega
  have hwritten := h.written
  rw [hmet, List.range_eq_range'] at hwritten
  have hall := List.range'_append_1 (s := 0) (m := f.head) (n := f.buffer.size - f.head)
  rw [Nat.zero_add, hsize] at hall
  rwa [hall, ← List.range_eq_range'] at hwritten

theorem size_sortRun (order : Position → Position → Ordering) (hstart : f.start ≤ f.head)
    (hhead : f.head ≤ f.buffer.size) :
    (f.sortRun order f.start).buffer.size = f.buffer.size := by
  apply size_splice
  simp only [List.size_toArray, List.length_mergeSort, Array.length_toList, Array.size_extract]
  omega

theorem Sound.perform {move : Move} (h : f.Sound (move :: rest))
    (order : Position → Position → Ordering) :
    (∃ g : Filling, f.perform order move = .ok g ∧ g.buffer.size = f.buffer.size ∧ g.Sound rest) ∨
      ∃ fault, f.perform order move = .error (.capacity fault) := by
  obtain ⟨hstart, hgap, htail, hwritten⟩ := h
  cases move with
  | takeUp array length =>
    rw [Filling.perform]
    split_ifs with hmany hlong
    · exact Or.inr ⟨_, rfl⟩
    · exact Or.inr ⟨_, rfl⟩
    · exact Or.inl ⟨_, rfl, rfl, le_rfl, hgap, htail, hwritten⟩
  | value item =>
    rw [List.countP_cons_of_pos rfl] at hgap
    have hcell : f.head < f.buffer.size := by omega
    refine Or.inl ⟨_, (perform_value order f item).trans (dif_pos hcell), by simp, ?_⟩
    refine ⟨Nat.le_succ_of_le hstart, by dsimp only; omega, by simpa using htail, ?_⟩
    dsimp only
    -- The cell behind those of the front has been written to, so the front ends after it.
    rw [List.range_succ, Array.size_set, List.append_assoc]
    apply (hwritten.append_right [f.head]).trans
    rw [List.append_assoc]
    exact List.perm_append_comm.append_left _
  | null item =>
    rw [List.countP_cons_of_pos rfl] at hgap
    have hcell : 0 < f.tail ∧ f.tail - 1 < f.buffer.size := by omega
    refine Or.inl ⟨_, (perform_null order f item).trans (dif_pos hcell), by simp, ?_⟩
    refine ⟨hstart, by dsimp only; omega, by simp; omega, ?_⟩
    dsimp only
    -- The cell before those of the back has been written to, so the back starts with it.
    have hrange : List.range' (f.tail - 1) (f.buffer.size - (f.tail - 1)) =
        (f.tail - 1) :: List.range' f.tail (f.buffer.size - f.tail) := by
      have hcount : f.buffer.size - (f.tail - 1) = f.buffer.size - f.tail + 1 := by omega
      rw [hcount, List.range'_succ, Nat.sub_add_cancel hcell.1]
    rw [Array.size_set, hrange]
    apply (hwritten.append_right [f.tail - 1]).trans
    rw [List.append_assoc]
    exact List.perm_append_comm.append_left _
  | sort =>
    have hhead : f.head ≤ f.buffer.size := by omega
    have hsize := size_sortRun order hstart hhead
    refine Or.inl ⟨_, if_pos ⟨hstart, hhead⟩, hsize, hstart, hgap, ?_, ?_⟩
    · exact htail.trans hsize.ge
    · dsimp only
      rw [hsize]
      exact hwritten

theorem Sound.performAll {done : List Move} (h : f.Sound (done ++ rest))
    (order : Position → Position → Ordering) :
    (∃ g : Filling, f.performAll order done = .ok g ∧ g.buffer.size = f.buffer.size ∧
        g.Sound rest) ∨
      ∃ fault, f.performAll order done = .error (.capacity fault) := by
  induction done generalizing f with
  | nil => exact Or.inl ⟨f, rfl, rfl, h⟩
  | cons move done ih =>
    rw [performAll_cons]
    rcases h.perform order with ⟨next, hmove, hsize, hnext⟩ | ⟨fault, hmove⟩
    · rw [hmove]
      rcases ih hnext with ⟨g, hrest, hlast, hg⟩ | hrest
      · exact Or.inl ⟨g, hrest, hlast.trans hsize, hg⟩
      · exact Or.inr hrest
    · rw [hmove]
      exact Or.inr ⟨fault, rfl⟩

theorem countP_placements {α : Type} (array offset : ℕ) (xs : List (Option α)) :
    (placements array offset xs).countP Move.places = xs.length := by
  induction xs generalizing offset with
  | nil => rfl
  | cons x xs ih =>
    rw [placements, List.countP_cons_of_pos (by split <;> rfl), ih, List.length_cons]

theorem countP_moves (array : ℕ) (columns : List (Cells l)) :
    (moves array columns).countP Move.places = (columns.map Cells.length).sum := by
  induction columns generalizing array with
  | nil => rfl
  | cons c columns ih =>
    have hcolumn : (columnMoves array c).countP Move.places = c.length := by
      rw [columnMoves, List.countP_cons_of_neg (by simp [Move.places]), List.countP_append,
        countP_placements, Cells.length_toList]
      rfl
    rw [moves, List.countP_append, hcolumn, ih, List.map_cons, List.sum_cons]

theorem sound_ofBuffer {buffer : Array Position} {columns : List (Cells l)}
    (hsize : buffer.size = (columns.map Cells.length).sum) :
    (ofBuffer buffer).Sound (moves 0 columns) where
  start_le := le_rfl
  gap := by rw [countP_moves, ← hsize]; exact Nat.zero_add _
  tail_le := le_rfl
  written := by simp [ofBuffer]

/-! ### The moves make up the partitioning -/

section Place

variable {α : Type}

theorem start_perform {g : Filling} {move : Move} (hplaces : move.places)
    (h : f.perform order move = .ok g) : g.start = f.start := by
  cases move with
  | takeUp | sort => cases hplaces
  | value item =>
    rw [perform_value] at h
    split_ifs at h
    obtain rfl := Except.ok.inj h
    rfl
  | null item =>
    rw [perform_null] at h
    split_ifs at h
    obtain rfl := Except.ok.inj h
    rfl

theorem placeValue_eq (order : Position → Position → Ordering) (f : Filling) (item : Position) :
    f.placeValue item = (f.perform order (.value item)).map toPartition := by
  rw [perform_value, Partition.placeValue]
  split_ifs <;> rfl

theorem placeNull_eq (order : Position → Position → Ordering) (f : Filling) (item : Position) :
    f.placeNull item = (f.perform order (.null item)).map toPartition := by
  rw [perform_null, Partition.placeNull]
  split_ifs <;> rfl

/-- Placing elements neither does anything else nor moves the start of the run. -/
theorem place_eq (order : Position → Position → Ordering) (f : Filling) (array offset : ℕ)
    (xs : List (Option α)) :
    f.place (UInt32.ofNat array) offset xs =
        (f.performAll order (placements array offset xs)).map toPartition ∧
      ∀ g, f.performAll order (placements array offset xs) = .ok g → g.start = f.start := by
  induction xs generalizing f offset with
  | nil => exact ⟨rfl, fun g h => by obtain rfl := Except.ok.inj h; rfl⟩
  | cons x xs ih =>
    let item : Position := ⟨UInt32.ofNat array, UInt32.ofNat offset⟩
    let move : Move := if x.isSome then .value item else .null item
    have hplaces : move.places := by
      cases x <;> rfl
    have hplace : f.place (UInt32.ofNat array) offset (x :: xs) =
        (f.perform order move).map toPartition >>= fun p =>
          p.place (UInt32.ofNat array) (offset + 1) xs := by
      cases x with
      | some x => exact congrArg (· >>= _) (placeValue_eq order f item)
      | none => exact congrArg (· >>= _) (placeNull_eq order f item)
    rw [hplace, placements, performAll_cons]
    change _ = Except.map toPartition (f.perform order move >>= _) ∧
      ∀ g, f.perform order move >>= _ = .ok g → _
    cases hmove : f.perform order move with
    | error e => exact ⟨rfl, fun g h => by cases h⟩
    | ok next =>
      obtain ⟨hrest, hsame⟩ := ih next (offset + 1)
      exact ⟨hrest, fun g h => (hsame g h).trans (start_perform hplaces hmove)⟩

end Place

theorem addColumn_eq {array : ℕ} {c : Cells l} (h : f.Sound (columnMoves array c ++ rest))
    (order : Position → Position → Ordering) :
    f.addColumn order array c = (f.performAll order (columnMoves array c)).map toPartition := by
  rw [columnMoves, performAll_cons, Partition.addColumn, perform]
  split_ifs with hmany hlong
  · rfl
  · rfl
  -- Taking up a column only marks where its run starts.
  · let g : Filling := { f with start := f.head }
    have hg : g.Sound (placements array 0 c.toList ++ ([.sort] ++ rest)) := by
      rw [← List.append_assoc]
      exact ⟨le_rfl, h.gap, h.tail_le, h.written⟩
    obtain ⟨hplace, hstart⟩ := place_eq order g array 0 c.toList
    change (g.place (UInt32.ofNat array) 0 c.toList >>= fun placed =>
      .ok (placed.sortRun order f.head)) =
        (g.performAll order (placements array 0 c.toList ++ [.sort])).map toPartition
    rw [performAll_append, hplace]
    rcases hg.performAll order with ⟨placed, hplaced, -, hsound⟩ | ⟨fault, hfault⟩
    · have hhead : placed.head ≤ placed.buffer.size := by
        have := hsound.gap
        have := hsound.tail_le
        omega
      rw [hplaced]
      change Except.ok (placed.sortRun order g.start) =
        (placed.performAll order [.sort]).map toPartition
      rw [performAll_cons, perform, if_pos ⟨hsound.start_le, hhead⟩, ← hstart placed hplaced]
      rfl
    · rw [hfault]
      rfl

theorem addColumns_eq {array : ℕ} {columns : List (Cells l)} (h : f.Sound (moves array columns))
    (order : Position → Position → Ordering) :
    f.addColumns order array columns =
      (f.performAll order (moves array columns)).map toPartition := by
  induction columns generalizing f array with
  | nil => rfl
  | cons c columns ih =>
    rw [moves, performAll_append, Partition.addColumns, addColumn_eq h]
    rcases h.performAll order with ⟨g, hg, -, hnext⟩ | ⟨fault, hfault⟩
    · rw [hg]
      exact ih hnext
    · rw [hfault]
      rfl

end Filling

/-! ### The buffer in the end -/

/-- A partition without a gap: a sorted run for each column, side by side from the front, and behind them the
nulls. -/
structure Partitioned (columns : List (Cells l)) (p : Partition) : Prop where
  met : p.head = p.tail
  head_eq : p.head = (columns.map fun c => c.toList.countP Option.isSome).sum
  length_runs : p.runs.length = columns.length
  mergeable : Mergeable (compareAt columns.toArray) p.buffer p.runs
  cover_eq : cover p.runs = ⟨0, p.head⟩
  run : ∀ k c run, columns[k]? = some c → p.runs[k]? = some run →
    run.length = c.toList.countP Option.isSome ∧
      (∀ q, q ∈ run.items p.buffer ↔ q.array.toNat = k ∧ IsValue columns.toArray q) ∧
      (run.items p.buffer).Pairwise (Precedes columns.toArray)
  nulls : ∀ q, q ∈ p.buffer.toList.drop p.tail ↔ Position.element? columns.toArray q = some none

theorem Precedes.compareAt_ne_gt {sources : Array (Cells l)} {p q : Position}
    (h : Precedes sources p q) : compareAt sources p q ≠ .gt := by
  obtain ⟨x, y, hx, hy, hless⟩ := h
  simp only [compareAt, hx, hy]
  rcases hless with hless | ⟨rfl, -⟩
  · simp [(Layout.order_eq_lt_iff x y).mpr hless]
  · simp [Layout.order_self]

section Partitioned

variable {columns : List (Cells l)} (hfit : Addressable columns)
include hfit

theorem sorted_positionsOf {k : ℕ} {c : Cells l} (hc : columns[k]? = some c) :
    let items := (positionsOf Option.isSome k 0 c.toList).mergeSort (leAt columns.toArray)
    items.length = c.toList.countP Option.isSome ∧
      (∀ q, q ∈ items ↔ q.array.toNat = k ∧ IsValue columns.toArray q) ∧
      items.Pairwise (Precedes columns.toArray) := by
  intro items
  have hmem : ∀ q, q ∈ positionsOf Option.isSome k 0 c.toList ↔
      q.array.toNat = k ∧ IsValue columns.toArray q := by
    intro q
    rw [mem_positionsOf_iff hfit hc]
    simp [IsValue, Option.isSome_iff_exists]
  have hlength := hfit.2 c (List.mem_of_getElem? hc)
  refine ⟨?_, fun q => ?_, ?_⟩
  · rw [List.length_mergeSort, length_positionsOf]
  · rw [List.mem_mergeSort, hmem]
  · apply pairwise_mergeSort_leAt (fun q hq => ((hmem q).mp hq).2)
    exact pairwise_positionsOf Option.isSome k 0 c.toList (by rw [Cells.length_toList]; omega)

theorem partitioned_ofParts {sorted : List (List Position)}
    (hsorted : sorted = (partsOf Option.isSome 0 (columns.map Cells.toList)).map fun part =>
      part.mergeSort fun a b => compareAt columns.toArray a b != .gt) :
    Partitioned columns (.ofParts sorted.flatten []
      (partsOf Option.isNone 0 (columns.map Cells.toList)).flatten.reverse
      (runsFrom 0 sorted)) := by
  rw [map_mergeSort_compareAt fun p hp => isValue_of_mem_parts hfit hp] at hsorted
  have hpart : ∀ k, sorted[k]? = columns[k]?.map fun c =>
      (positionsOf Option.isSome k 0 c.toList).mergeSort (leAt columns.toArray) := by
    intro k
    rw [hsorted, List.getElem?_map, getElem?_partsOf, List.getElem?_map, Option.map_map,
      Option.map_map]
    rfl
  have hascending : ∀ part ∈ sorted, part.Pairwise fun a b => compareAt columns.toArray a b ≠ .gt := by
    intro part hmem
    obtain ⟨k, hk⟩ := List.getElem?_of_mem hmem
    rw [hpart, Option.map_eq_some_iff] at hk
    obtain ⟨c, hc, rfl⟩ := hk
    exact (sorted_positionsOf hfit hc).2.2.imp Precedes.compareAt_ne_gt
  -- Nothing but the values and the nulls is left in the buffer.
  have hnulls := (ascending_sorted columns hfit).mem_nulls
  generalize (partsOf Option.isNone 0 (columns.map Cells.toList)).flatten.reverse = nulls
    at hnulls ⊢
  have hbuffer : (Partition.ofParts sorted.flatten [] nulls (runsFrom 0 sorted)).buffer =
      (sorted.flatten ++ nulls).toArray := by
    rw [Partition.ofParts, List.append_nil]
  constructor
  case met => simp [Partition.ofParts]
  case head_eq =>
    change sorted.flatten.length = _
    have hlength := length_partsOf_flatten Option.isSome 0 (columns.map Cells.toList)
    rw [List.map_map] at hlength
    apply Eq.trans _ hlength
    simp [hsorted, List.length_flatten, Function.comp_def]
  case length_runs => simp [Partition.ofParts, hsorted, partsOf]
  case mergeable =>
    rw [hbuffer]
    exact mergeable_runsFrom nulls hascending
  case cover_eq => exact cover_runsFrom sorted
  case run =>
    intro k c run hc hrun
    obtain ⟨⟨hstart, hstop⟩, hitems⟩ := items_runsFrom hrun nulls
    rw [hpart, hc, Option.map_some, Option.some.injEq] at hitems
    obtain ⟨hlength, hsorted⟩ := sorted_positionsOf hfit hc
    have hsize : run.stop ≤ (sorted.flatten ++ nulls).toArray.size := by
      rw [List.size_toArray, List.length_append]
      omega
    have hstretch := Run.start_add_length_items ⟨hstart, hsize⟩
    rw [hitems] at hlength hsorted
    rw [hbuffer]
    refine ⟨?_, hsorted⟩
    rw [Run.length, ← hlength]
    omega
  case nulls =>
    intro q
    rw [hbuffer, ← hnulls]
    simp [Partition.ofParts]

end Partitioned

namespace Filling

theorem toPartition_ofBuffer (buffer : Array Position) :
    (ofBuffer buffer).toPartition = .ofParts [] buffer.toList [] [] := by
  simp [ofBuffer, Partition.ofParts]

section Ends

variable {columns : List (Cells l)} {buffer : Array Position}
  (hsize : buffer.size = (columns.map Cells.length).sum)
include hsize

theorem performAll_moves (hfit : Addressable columns) :
    ∃ f : Filling, (ofBuffer buffer).performAll (compareAt columns.toArray) (moves 0 columns) = .ok f ∧
      Partitioned columns f.toPartition := by
  have hfill := Partition.addColumns_ofParts (compareAt columns.toArray) 0 columns
    (by rw [Nat.zero_add]; exact hfit.1) hfit.2 [] buffer.toList []
    (by rw [Array.length_toList, hsize])
  have hrun := addColumns_eq (sound_ofBuffer hsize) (compareAt columns.toArray)
  rw [toPartition_ofBuffer] at hrun
  obtain ⟨f, hf, hparts⟩ := exists_of_map_toPartition (hrun.symm.trans hfill)
  refine ⟨f, hf, ?_⟩
  rw [hparts, List.append_nil]
  exact partitioned_ofParts hfit rfl

theorem performAll_moves_refused (hbad : ¬Addressable columns) :
    ∃ fault, (ofBuffer buffer).performAll (compareAt columns.toArray) (moves 0 columns) =
      .error (.capacity fault) := by
  obtain ⟨fault, hrefused⟩ := Partition.addColumns_refused (compareAt columns.toArray) 0 columns
    (Nat.zero_le _) (by rwa [Nat.zero_add]) [] buffer.toList []
    (by rw [Array.length_toList, hsize])
  have hrun := addColumns_eq (sound_ofBuffer hsize) (compareAt columns.toArray)
  rw [toPartition_ofBuffer] at hrun
  exact ⟨fault, eq_error_of_map_toPartition (hrun.symm.trans hrefused)⟩

end Ends

end Filling

/-- Partitioning goes through its moves one by one. After each of them the gap between the two ends has as many
cells as there are elements to come, and the cells outside it have been written to once each; so no move ever
leaves the buffer, and the only failures are columns that are too many or too long. In the end every cell has
been written to once, the ends have met, and each column has its sorted run. -/
theorem addColumns_partitions (columns : List (Cells l)) (buffer : Array Position)
    (hsize : buffer.size = (columns.map Cells.length).sum) :
    let order := compareAt columns.toArray
    let performed := (Filling.ofBuffer buffer).performAll order
    (Filling.ofBuffer buffer).addColumns order 0 columns =
        (performed (moves 0 columns)).map Filling.toPartition ∧
      (∀ done rest, moves 0 columns = done ++ rest →
        (∃ f : Filling, performed done = .ok f ∧ f.buffer.size = buffer.size ∧ f.Sound rest) ∨
          ¬Addressable columns ∧ ∃ fault, performed done = .error (.capacity fault)) ∧
      (Addressable columns → ∃ f : Filling, performed (moves 0 columns) = .ok f ∧
        f.written.Perm (List.range buffer.size) ∧ Partitioned columns f.toPartition) ∧
      (¬Addressable columns → ∃ fault, performed (moves 0 columns) = .error (.capacity fault)) := by
  intro order performed
  have hsteps : ∀ done rest, moves 0 columns = done ++ rest →
      (∃ f : Filling, performed done = .ok f ∧ f.buffer.size = buffer.size ∧ f.Sound rest) ∨
        ∃ fault, performed done = .error (.capacity fault) := by
    intro done rest hmoves
    exact Filling.Sound.performAll (hmoves ▸ Filling.sound_ofBuffer hsize) order
  refine ⟨Filling.addColumns_eq (Filling.sound_ofBuffer hsize) order, fun done rest hmoves => ?_,
    fun hfit => ?_, Filling.performAll_moves_refused hsize⟩
  · refine (hsteps done rest hmoves).imp_right fun hfault => ⟨fun hfit => ?_, hfault⟩
    -- What fails half way fails in the end.
    obtain ⟨f, hf, -⟩ := Filling.performAll_moves hsize hfit
    obtain ⟨fault, hfault⟩ := hfault
    rw [hmoves, Filling.performAll_append, show Filling.performAll _ _ done = _ from hfault] at hf
    cases hf
  · obtain ⟨f, hf, hpartitioned⟩ := Filling.performAll_moves hsize hfit
    refine ⟨f, hf, ?_, hpartitioned⟩
    rcases hsteps (moves 0 columns) [] (by simp) with ⟨g, hg, hbuffer, hsound⟩ | ⟨fault, hfault⟩
    · obtain rfl : f = g := Except.ok.inj (hf.symm.trans hg)
      exact hbuffer ▸ hsound.written_all
    · cases hf.symm.trans hfault

/-- A column of values and a null, an empty one and one of nulls alone, in the buffer that sorting starts
with. -/
theorem addColumns_partitions_floats :
    let columns : List (Cells DataType.float64.layout) :=
      [.ofList [some 0x0000000000000000#64, none, some 0x8000000000000000#64], .ofList [],
        .masked #[some 0x7ff8000000000001#64, some 0x0000000000000000#64] #[false, false]]
    let buffer : Array Position := Array.replicate 5 default
    buffer.size = (columns.map Cells.length).sum ∧ Addressable columns ∧
      ∃ p, (Partition.start 5).addColumns (compareAt columns.toArray) 0 columns = .ok p ∧
        Partitioned columns p ∧ p.head = 2 := by
  intro columns buffer
  have hsize : buffer.size = (columns.map Cells.length).sum := by decide
  have hfit : Addressable columns := by
    simp [Addressable, columns, Cells.ofList, Cells.masked, largestNumber]
  obtain ⟨hrun, -, hends, -⟩ := addColumns_partitions columns buffer hsize
  obtain ⟨f, hf, -, hpartitioned⟩ := hends hfit
  rw [hf] at hrun
  exact ⟨hsize, hfit, f.toPartition, hrun, hpartitioned, hpartitioned.head_eq⟩

end Columnar.Merge
