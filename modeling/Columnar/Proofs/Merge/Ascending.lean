import Columnar.Proofs.Layout.Order
import Columnar.Proofs.Merge.Partition

namespace Columnar

variable {l : Layout}

theorem Position.element?_toArray (columns : List (Cells l)) (p : Position) :
    Position.element? columns.toArray p =
      ((columns.map Cells.toList)[p.array.toNat]?).bind (·[p.offset.toNat]?) := by
  simp only [Position.element?, List.getElem?_toArray, List.getElem?_map]
  cases columns[p.array.toNat]? with
  | none => rfl
  | some c =>
    by_cases h : p.offset.toNat < c.length
    · simp [Cells.toList, h]
    · simp [Cells.toList, h]

/-- The earlier column first, and in one column the smaller offset. -/
def Position.Before (p q : Position) : Prop :=
  p.array < q.array ∨ p.array = q.array ∧ p.offset < q.offset

namespace Merge

def IsValue (sources : Array (Cells l)) (p : Position) : Prop :=
  ∃ x, Position.element? sources p = some (some x)

/-- By value first and then by position. -/
def Precedes (sources : Array (Cells l)) (p q : Position) : Prop :=
  ∃ x y, Position.element? sources p = some (some x) ∧
    Position.element? sources q = some (some y) ∧ (l.Less x y ∨ x = y ∧ p.Before q)

/-- Positions without a value all come first and tie; among values it is the order of values. -/
def leAt (sources : Array (Cells l)) (p q : Position) : Bool :=
  match Position.element? sources p, Position.element? sources q with
  | some (some x), some (some y) => (l.order (l.key x) (l.key y)).isLE
  | some (some _), _ => false
  | _, _ => true

section Preorder

variable {sources : Array (Cells l)} {p q : Position}

theorem leAt_trans (a b c : Position) : leAt sources a b → leAt sources b c → leAt sources a c := by
  unfold leAt
  rcases Position.element? sources a with _ | _ | x <;>
    rcases Position.element? sources b with _ | _ | y <;>
      rcases Position.element? sources c with _ | _ | z <;> simp
  exact Std.TransCmp.isLE_trans

theorem leAt_total (a b : Position) : leAt sources a b || leAt sources b a := by
  unfold leAt
  rcases Position.element? sources a with _ | _ | x <;>
    rcases Position.element? sources b with _ | _ | y <;> simp
  rw [← l.order_swap (l.key x)]
  cases l.order (l.key x) (l.key y) <;> simp

theorem not_gt_eq_leAt (hp : IsValue sources p) (hq : IsValue sources q) :
    (compareAt sources p q != .gt) = leAt sources p q := by
  obtain ⟨x, hx⟩ := hp
  obtain ⟨y, hy⟩ := hq
  simp only [compareAt, leAt, hx, hy]
  cases l.order (l.key x) (l.key y) <;> rfl

theorem keeps_eq_leAt (hp : IsValue sources p) (hq : IsValue sources q) :
    keeps (compareAt sources) p q = leAt sources p q := by
  obtain ⟨x, hx⟩ := hp
  obtain ⟨y, hy⟩ := hq
  simp only [keeps, compareAt, leAt, hx, hy]
  rw [← l.order_swap (l.key x)]
  cases l.order (l.key x) (l.key y) <;> rfl

end Preorder

/-- The columns are few and short enough for 32-bit positions. -/
def Addressable (columns : List (Cells l)) : Prop :=
  columns.length ≤ largestNumber + 1 ∧ ∀ c ∈ columns, c.length ≤ largestNumber

theorem toNat_ofNat_of_le {n : ℕ} (h : n ≤ largestNumber) : (UInt32.ofNat n).toNat = n :=
  UInt32.toNat_ofNat_of_lt' (by simpa [UInt32.size, largestNumber] using Nat.lt_succ_of_le h)

theorem mem_positionsOf_iff {columns : List (Cells l)} (hfit : Addressable columns) {k : ℕ}
    {c : Cells l} (hc : columns[k]? = some c) (keep : Option l.Element → Bool) (p : Position) :
    p ∈ positionsOf keep k 0 c.toList ↔
      p.array.toNat = k ∧ ∃ x, Position.element? columns.toArray p = some x ∧ keep x := by
  have hk : k < columns.length := (List.getElem?_eq_some_iff.mp hc).1
  have hlen := hfit.2 c (List.mem_of_getElem? hc)
  have hcount := hfit.1
  have hxs : (columns.map Cells.toList)[k]? = some c.toList := by rw [List.getElem?_map, hc]; rfl
  rw [mem_positionsOf, Position.element?_toArray]
  constructor
  · rintro ⟨i, x, hx, hkeep, rfl⟩
    have hi : i < c.toList.length := (List.getElem?_eq_some_iff.mp hx).1
    rw [Cells.length_toList] at hi
    have hk' : (UInt32.ofNat k).toNat = k := toNat_ofNat_of_le (by omega)
    have hi' : (UInt32.ofNat (0 + i)).toNat = i := by
      rw [Nat.zero_add, toNat_ofNat_of_le (by omega)]
    refine ⟨hk', x, ?_, hkeep⟩
    rw [hk', hi', hxs, Option.bind_some, hx]
  · rintro ⟨rfl, x, hx, hkeep⟩
    rw [hxs, Option.bind_some] at hx
    exact ⟨p.offset.toNat, x, hx, hkeep, by simp⟩

theorem mem_partsOf_iff {columns : List (Cells l)} (hfit : Addressable columns)
    (keep : Option l.Element → Bool) (p : Position) :
    p ∈ (partsOf keep 0 (columns.map Cells.toList)).flatten ↔
      ∃ x, Position.element? columns.toArray p = some x ∧ keep x := by
  have hparts : ∀ k, (partsOf keep 0 (columns.map Cells.toList))[k]? =
      columns[k]?.map fun c => positionsOf keep k 0 c.toList := by
    intro k
    rw [getElem?_partsOf, List.getElem?_map, Option.map_map]
    rfl
  rw [List.mem_flatten]
  constructor
  · rintro ⟨part, hpart, hp⟩
    obtain ⟨k, hk⟩ := List.getElem?_of_mem hpart
    rw [hparts, Option.map_eq_some_iff] at hk
    obtain ⟨c, hc, rfl⟩ := hk
    exact ((mem_positionsOf_iff hfit hc keep p).mp hp).2
  · rintro ⟨x, hx, hkeep⟩
    have hcolumn := hx
    rw [Position.element?_toArray, Option.bind_eq_some_iff] at hcolumn
    obtain ⟨xs, hxs, -⟩ := hcolumn
    rw [List.getElem?_map, Option.map_eq_some_iff] at hxs
    obtain ⟨c, hc, -⟩ := hxs
    refine ⟨_, List.mem_of_getElem? (by rw [hparts, hc]; rfl), ?_⟩
    exact (mem_positionsOf_iff hfit hc keep p).mpr ⟨rfl, x, hx, hkeep⟩

theorem isValue_of_mem_parts {columns : List (Cells l)} (hfit : Addressable columns)
    {p : Position} (hp : p ∈ (partsOf Option.isSome 0 (columns.map Cells.toList)).flatten) :
    IsValue columns.toArray p := by
  obtain ⟨x, hx, hsome⟩ := (mem_partsOf_iff hfit Option.isSome p).mp hp
  obtain ⟨y, rfl⟩ := Option.isSome_iff_exists.mp hsome
  exact ⟨y, hx⟩

theorem pairwise_positionsOf (keep : Option l.Element → Bool) (array offset : ℕ)
    (xs : List (Option l.Element)) (h : offset + xs.length ≤ largestNumber + 1) :
    (positionsOf keep array offset xs).Pairwise Position.Before := by
  induction xs generalizing offset with
  | nil => exact List.Pairwise.nil
  | cons x xs ih =>
    rw [List.length_cons] at h
    rw [positionsOf_cons, List.pairwise_append]
    refine ⟨by split <;> simp, ih (offset + 1) (by omega), ?_⟩
    intro p hp q hq
    obtain ⟨-, rfl⟩ : _ ∧ p = ⟨UInt32.ofNat array, UInt32.ofNat offset⟩ := by simpa using hp
    obtain ⟨i, y, hy, -, rfl⟩ := mem_positionsOf.mp hq
    have hi := (List.getElem?_eq_some_iff.mp hy).1
    refine Or.inr ⟨rfl, UInt32.lt_iff_toNat_lt.mpr ?_⟩
    rw [toNat_ofNat_of_le (by omega), toNat_ofNat_of_le (by omega)]
    omega

theorem pairwise_partsOf (keep : Option l.Element → Bool) (array : ℕ) (columns : List (Cells l))
    (harrays : array + columns.length ≤ largestNumber + 1)
    (hlengths : ∀ c ∈ columns, c.length ≤ largestNumber) :
    (partsOf keep array (columns.map Cells.toList)).flatten.Pairwise Position.Before := by
  induction columns generalizing array with
  | nil => exact List.Pairwise.nil
  | cons c columns ih =>
    rw [List.length_cons] at harrays
    have hc := hlengths c (by simp)
    rw [List.map_cons, partsOf_cons, List.flatten_cons, List.pairwise_append]
    refine ⟨pairwise_positionsOf keep array 0 c.toList (by simp; omega),
      ih (array + 1) (by omega) (fun d hd => hlengths d (List.mem_cons_of_mem _ hd)), ?_⟩
    -- Positions of a column come before those of any later column.
    intro p hp q hq
    obtain ⟨i, x, -, -, rfl⟩ := mem_positionsOf.mp hp
    obtain ⟨a, xs, j, y, hxs, -, -, rfl⟩ := mem_partsOf_flatten.mp hq
    have ha : a < columns.length := by simpa using (List.getElem?_eq_some_iff.mp hxs).1
    refine Or.inl (UInt32.lt_iff_toNat_lt.mpr ?_)
    rw [toNat_ofNat_of_le (by omega), toNat_ofNat_of_le (by omega)]
    omega

theorem foldl_length_eq_sum (columns : List (Cells l)) :
    columns.foldl (fun n c => n + c.length) 0 = (columns.map Cells.length).sum := by
  rw [List.sum_eq_foldl, List.foldl_map]

section Parts

variable {sources : Array (Cells l)} {parts : List (List Position)}
  (hvalue : ∀ p ∈ parts.flatten, IsValue sources p)
include hvalue

theorem map_mergeSort_compareAt :
    (parts.map fun part => part.mergeSort fun a b => compareAt sources a b != .gt) =
      parts.map fun part => part.mergeSort (leAt sources) := by
  apply List.map_congr_left
  intro part hpart
  apply mergeSort_congr
  intro a ha b hb
  exact not_gt_eq_leAt (hvalue a (List.mem_flatten_of_mem hpart ha))
    (hvalue b (List.mem_flatten_of_mem hpart hb))

/-- Once each part is sorted, merging the runs sorts all of them. -/
theorem mergeRuns_sorted_parts {sorted : List (List Position)}
    (hsorted : sorted = parts.map fun part => part.mergeSort (leAt sources)) :
    ∃ run scratch, mergeRuns (compareAt sources) (runsFrom 0 sorted)
        ⟨sorted.flatten.toArray, #[]⟩ =
      .ok (run, ⟨(parts.flatten.mergeSort (leAt sources)).toArray, scratch⟩) := by
  have hflat : sorted.flatten.mergeSort (leAt sources) = parts.flatten.mergeSort (leAt sources) :=
    hsorted ▸ mergeSort_flatten_sorted leAt_trans leAt_total parts
  -- The comparison is a preorder on values only, and sorting brings nothing else in.
  have hitems : ∀ p ∈ sorted.flatten, IsValue sources p := by
    intro p hp
    rw [← (List.mergeSort_perm _ (leAt sources)).mem_iff, hflat, List.mem_mergeSort] at hp
    exact hvalue p hp
  have hruns : ∀ part ∈ sorted, part.Pairwise fun a b => leAt sources a b := by
    intro part hpart
    obtain ⟨part, -, rfl⟩ := List.mem_map.mp (hsorted ▸ hpart)
    exact List.pairwise_mergeSort leAt_trans leAt_total part
  rw [← hflat]
  exact mergeRuns_flatten leAt_trans leAt_total sorted
    (fun a ha b hb => keeps_eq_leAt (hitems a ha) (hitems b hb)) hruns #[]

end Parts

theorem length_partsOf_le (keep : Option l.Element → Bool) (columns : List (Cells l)) :
    (partsOf keep 0 (columns.map Cells.toList)).flatten.length ≤ (columns.map Cells.length).sum := by
  rw [length_partsOf_flatten, List.map_map]
  refine List.sum_le_sum fun c _ => ?_
  exact List.countP_le_length.trans_eq c.length_toList

def reserve [Memory] (columns : List (Cells l)) : Except Failure Unit :=
  Capacity.reserveItems Position.packedWidth (columns.map Cells.length).sum

section Sorted

variable [Memory]

theorem sortCells_unreserved {columns : List (Cells l)} {e : Failure}
    (h : reserve columns = .error e) : sortCells columns = .error e := by
  rw [reserve, ← foldl_length_eq_sum] at h
  simp only [sortCells, h, bind, Except.bind]

/-- The local sorts and the merges amount to one stable sort of the values' positions. -/
theorem sortCells_eq (columns : List (Cells l)) (hfit : Addressable columns)
    (hroom : reserve columns = .ok ()) :
    sortCells columns =
      .ok ((partsOf Option.isSome 0 (columns.map Cells.toList)).flatten.mergeSort
          (leAt columns.toArray) ++
        (partsOf Option.isNone 0 (columns.map Cells.toList)).flatten.reverse) := by
  have hfill := Partition.addColumns_start (compareAt columns.toArray) columns hfit.1 hfit.2
  have hvalue := fun p => isValue_of_mem_parts hfit (p := p)
  have hcount := length_partsOf_le Option.isSome columns
  generalize partsOf Option.isSome 0 (columns.map Cells.toList) = parts at hfill hvalue hcount ⊢
  generalize (partsOf Option.isNone 0 (columns.map Cells.toList)).flatten.reverse = nulls
    at hfill ⊢
  simp only [map_mergeSort_compareAt hvalue] at hfill
  -- The merged values take the room of the unmerged ones, so the nulls behind them stay in place.
  have hsize : parts.flatten.length =
      (parts.map fun part => part.mergeSort (leAt columns.toArray)).flatten.length := by
    simp [List.length_flatten, Function.comp_def]
  generalize hsorted : (parts.map fun part => part.mergeSort (leAt columns.toArray)) = sorted
    at hfill hsize
  obtain ⟨run, scratch, hmerge⟩ := mergeRuns_sorted_parts hvalue hsorted.symm
  have hvalues : (Partition.ofParts sorted.flatten [] nulls (runsFrom 0 sorted)).buffer.extract 0
      (Partition.ofParts sorted.flatten [] nulls (runsFrom 0 sorted)).head =
        sorted.flatten.toArray := by
    apply Array.ext'
    simp [Partition.ofParts, List.extract_eq_take_drop]
  -- The values are not more than all elements, so they have room as well.
  have hvalueRoom : Capacity.reserveItems Position.packedWidth
      (Partition.ofParts sorted.flatten [] nulls (runsFrom 0 sorted)).head = .ok () :=
    Capacity.reserveItems_of_le (hsize.symm.trans_le hcount) hroom
  have hsplice := splice_toArray [] sorted.flatten nulls
    (parts.flatten.mergeSort (leAt columns.toArray)).toArray (by simpa using hsize)
  rw [reserve] at hroom
  simp only [sortCells, foldl_length_eq_sum, hroom, hfill, hvalueRoom, bind, Except.bind, hvalues]
  rw [show mergeRuns _ (Partition.ofParts sorted.flatten [] nulls (runsFrom 0 sorted)).runs _ = _
    from hmerge]
  apply congrArg Except.ok
  simpa [Partition.ofParts] using congrArg Array.toList hsplice

end Sorted

/-- What the order of all elements is: values in front, ascending, and nulls behind, descending. -/
structure Ascending (sources : Array (Cells l)) (values nulls : List Position) : Prop where
  mem_values : ∀ p, p ∈ values ↔ IsValue sources p
  mem_nulls : ∀ p, p ∈ nulls ↔ Position.element? sources p = some none
  values_ordered : values.Pairwise (Precedes sources)
  nulls_ordered : nulls.Pairwise fun p q => q.Before p

/-- Only equal values tie, and those the stable sort leaves in the order of their positions. -/
theorem pairwise_mergeSort_leAt {sources : Array (Cells l)} {items : List Position}
    (hvalue : ∀ p ∈ items, IsValue sources p) (hitems : items.Pairwise Position.Before) :
    (items.mergeSort (leAt sources)).Pairwise (Precedes sources) := by
  refine (pairwise_mergeSort_ties leAt_trans leAt_total hitems).imp_of_mem ?_
  intro p q hp hq h
  obtain ⟨x, hx⟩ := hvalue p (List.mem_mergeSort.mp hp)
  obtain ⟨y, hy⟩ := hvalue q (List.mem_mergeSort.mp hq)
  simp only [leAt, hx, hy] at h
  refine ⟨x, y, hx, hy, ?_⟩
  cases hxy : l.order (l.key x) (l.key y) with
  | lt => exact Or.inl ((Layout.order_eq_lt_iff x y).mp hxy)
  | eq =>
    refine Or.inr ⟨(Layout.order_eq_eq_iff x y).mp hxy, h.2 ?_⟩
    rw [← l.order_swap, hxy]
    rfl
  | gt => simp [hxy] at h

theorem ascending_sorted (columns : List (Cells l)) (hfit : Addressable columns) :
    Ascending columns.toArray
      ((partsOf Option.isSome 0 (columns.map Cells.toList)).flatten.mergeSort
        (leAt columns.toArray))
      (partsOf Option.isNone 0 (columns.map Cells.toList)).flatten.reverse where
  mem_values p := by
    rw [List.mem_mergeSort, mem_partsOf_iff hfit]
    simp [IsValue, Option.isSome_iff_exists]
  mem_nulls p := by
    rw [List.mem_reverse, mem_partsOf_iff hfit]
    simp
  values_ordered := pairwise_mergeSort_leAt (fun p hp => isValue_of_mem_parts hfit hp)
    (pairwise_partsOf Option.isSome 0 columns (by have := hfit.1; omega) hfit.2)
  nulls_ordered := by
    rw [List.pairwise_reverse]
    exact pairwise_partsOf Option.isNone 0 columns (by have := hfit.1; omega) hfit.2

theorem Precedes.ne {sources : Array (Cells l)} {p q : Position} (h : Precedes sources p q) :
    p ≠ q := by
  rintro rfl
  obtain ⟨x, y, hx, hy, h⟩ := h
  obtain rfl : x = y := by simpa [hx] using hy
  rcases h with h | ⟨-, h⟩
  · have hself := (Layout.order_eq_lt_iff x x).mpr h
    simp [Layout.order_self] at hself
  · simp [Position.Before] at h

theorem Ascending.nodup {sources : Array (Cells l)} {values nulls : List Position}
    (h : Ascending sources values nulls) : (values ++ nulls).Nodup := by
  refine List.nodup_append.mpr ⟨h.values_ordered.imp Precedes.ne, h.nulls_ordered.imp ?_, ?_⟩
  · rintro p _ hbefore rfl
    simp [Position.Before] at hbefore
  · rintro p hp _ hq rfl
    obtain ⟨x, hx⟩ := (h.mem_values p).mp hp
    simp [(h.mem_nulls p).mp hq] at hx

theorem Addressable.congr {columns others : List (Cells l)} (hfit : Addressable columns)
    (h : others.map Cells.toList = columns.map Cells.toList) : Addressable others := by
  have hlengths : others.map Cells.length = columns.map Cells.length := by
    simpa [Function.comp_def] using congrArg (List.map List.length) h
  refine ⟨?_, fun c hc => ?_⟩
  · have hcount := congrArg List.length h
    rw [List.length_map, List.length_map] at hcount
    exact hcount ▸ hfit.1
  · obtain ⟨d, hd, hdc⟩ := List.mem_map.mp (hlengths ▸ List.mem_map_of_mem hc)
    exact hdc ▸ hfit.2 d hd

section Refused

variable [Memory]

/-- Room is asked for before anything is numbered. -/
theorem sortCells_refused (columns : List (Cells l))
    (hbad : ¬(Addressable columns ∧ reserve columns = .ok ())) :
    ∃ fault, sortCells columns = .error (.capacity fault) := by
  cases hroom : reserve columns with
  | error e =>
    obtain ⟨fault, rfl⟩ := Capacity.reserveItems_error hroom
    exact ⟨fault, sortCells_unreserved hroom⟩
  | ok _ =>
    have hmany : ¬Addressable columns := fun hfit => hbad ⟨hfit, hroom⟩
    obtain ⟨fault, h⟩ := Partition.addColumns_refused (compareAt columns.toArray) 0 columns
      (by omega) (by rwa [Nat.zero_add]) [] (List.replicate (columns.map Cells.length).sum default)
      [] (by simp)
    refine ⟨fault, ?_⟩
    rw [reserve] at hroom
    rw [sortCells, foldl_length_eq_sum, Partition.start_eq_ofParts]
    simp only [hroom, show Partition.addColumns (compareAt columns.toArray) (Partition.ofParts []
      (List.replicate (columns.map Cells.length).sum default) [] []) 0 columns = _ from h, bind,
      Except.bind]

theorem sortedPositions_mk (t : DataType) (columns : List (Cells t.layout)) (hne : columns ≠ [])
    (ht : hasOrder t) : sortedPositions (columns.map (Column.mk t)) = sortCells columns := by
  obtain ⟨first, rest, rfl⟩ := List.exists_cons_of_ne_nil hne
  have hsame : ((first :: rest).map (Column.mk t)).find? (·.type ≠ t) = none := by
    simp
  have hcells : ((first :: rest).map (Column.mk t)).filterMap (·.as? t) = first :: rest := by
    simp [List.filterMap_map]
  simp only [List.map_cons] at hsame hcells ⊢
  simp only [sortedPositions, hsame, hcells, ht, if_true]

end Refused

end Merge

end Columnar
