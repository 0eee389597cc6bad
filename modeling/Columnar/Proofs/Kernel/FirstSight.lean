import Columnar.Proofs.Kernel.Ledger

namespace Columnar

namespace SlotCounts

theorem bump_tracked {counts : SlotCounts} {slot : ℕ} (h : slot < counts.size) :
    bump counts slot = .ok (counts.modify slot (· + 1)) :=
  if_pos h

theorem bump_next (counts : SlotCounts) : bump counts counts.size = .ok (counts.push 1) := by
  change (if counts.size < counts.size then _ else if counts.size = counts.size then _ else _) = _
  rw [if_neg (Nat.lt_irrefl _), if_pos rfl]

theorem toList_toCells (counts : SlotCounts) :
    (SlotCounts.toCells counts).toList = counts.toList.map fun n => some (BitVec.ofNat 64 n) := by
  rw [toCells, Cells.toList_ofValues]
  exact List.map_map

theorem length_toCells (counts : SlotCounts) :
    (SlotCounts.toCells counts).length = counts.size := by
  rw [← Cells.length_toList, toList_toCells]
  exact (List.length_map _).trans Array.length_toList

end SlotCounts

namespace Ledger

variable {α : Type} [DecidableEq α] {seen history : List (Option α)} {x : Option α}

theorem enter_eq_append (seen : List (Option α)) (x : Option α) :
    ∃ more, enter seen x = seen ++ more := by
  by_cases h : x ∈ seen
  · exact ⟨[], by simp [enter, h]⟩
  · exact ⟨[x], by simp [enter, h]⟩

theorem length_enter_of_not_mem (h : x ∉ seen) : (enter seen x).length = seen.length + 1 := by
  simp [enter, h]

theorem idxOf_enter (seen : List (Option α)) (x : Option α) :
    (enter seen x).idxOf x = seen.idxOf x := by
  by_cases h : x ∈ seen
  · rw [enter, if_pos h]
  · rw [enter, if_neg h, List.idxOf_append, if_neg h, List.idxOf_cons_self, List.idxOf_eq_length h,
      Nat.zero_add]

theorem eraseDups_concat (xs : List (Option α)) (x : Option α) :
    (xs ++ [x]).eraseDups = enter xs.eraseDups x := by
  rw [List.eraseDups_append, List.removeAll, enter]
  by_cases h : x ∈ xs <;> simp [h, List.eraseDups_cons]

theorem nodup_eraseDups (xs : List (Option α)) : xs.eraseDups.Nodup := by
  induction xs using List.reverseRecOn with
  | nil => exact List.nodup_nil
  | append_singleton xs x ih =>
    rw [eraseDups_concat, enter]
    split
    · exact ih
    · next h => exact Memo.nodup_concat ih h

theorem getElem_eq_iff_idxOf (hnodup : seen.Nodup) {i : ℕ} (hi : i < seen.length) :
    seen[i] = x ↔ seen.idxOf x = i := by
  constructor
  · rintro rfl
    exact hnodup.idxOf_getElem i hi
  · rintro rfl
    exact List.getElem_idxOf hi

theorem count_concat (history : List (Option α)) (x y : Option α) :
    (history ++ [x]).count y = history.count y + if y = x then 1 else 0 := by
  rw [List.count_append, List.count_singleton]
  by_cases h : y = x
  · simp [h]
  · simp [h, Ne.symm h]

theorem sum_count_eraseDups (xs : List (Option α)) :
    (xs.eraseDups.map (xs.count ·)).sum = xs.length := by
  have hperm : List.Perm xs.eraseDups xs.dedup :=
    (List.perm_ext_iff_of_nodup (nodup_eraseDups xs) xs.nodup_dedup).mpr fun x => by simp
  rw [(hperm.map (xs.count ·)).sum_eq]
  convert List.sum_map_count_dedup_eq_length xs
  rfl

/-- Every slot counts its element, and a new slot starts with the one occurrence that opened it. -/
theorem bump_counts (hnodup : seen.Nodup) (hseen : ∀ y, y ∈ seen ↔ y ∈ history) (x : Option α) :
    SlotCounts.bump (seen.map (history.count ·)).toArray (seen.idxOf x) =
      .ok ((enter seen x).map ((history ++ [x]).count ·)).toArray := by
  by_cases hx : x ∈ seen
  · rw [SlotCounts.bump_tracked (by simpa using List.idxOf_lt_length_of_mem hx), enter, if_pos hx]
    refine congrArg Except.ok (Array.ext (by simp) fun i hi _ => ?_)
    have hi : i < seen.length := by simpa using hi
    simp only [Array.getElem_modify, List.getElem_toArray, List.getElem_map, count_concat,
      getElem_eq_iff_idxOf hnodup hi]
    split <;> rfl
  -- A new element has the slot after the last count.
  · have hnew : history.count x = 0 := List.count_eq_zero.mpr (mt (hseen x).mpr hx)
    rw [List.idxOf_eq_length hx, enter, if_neg hx]
    have hsize : seen.length = (seen.map (history.count ·)).toArray.size := by simp
    rw [hsize, SlotCounts.bump_next]
    refine congrArg Except.ok (Array.ext' ?_)
    rw [Array.toList_push, List.map_append, List.map_singleton, count_concat, hnew, if_pos rfl]
    refine congrArg (· ++ [1]) (List.map_congr_left fun y hy => ?_)
    rw [count_concat, if_neg (by rintro rfl; exact hx hy), Nat.add_zero]

def slots (seen xs : List (Option α)) : List (Option ℕ) :=
  xs.map (Option.map fun y => seen.idxOf (some y))

theorem slots_append {xs : List (Option α)} (h : ∀ y, some y ∈ xs → some y ∈ seen)
    (more : List (Option α)) : slots (seen ++ more) xs = slots seen xs := by
  apply List.map_congr_left
  intro x hx
  cases x with
  | none => rfl
  | some y => simp [List.idxOf_append, h y hx]

theorem slots_enter {xs : List (Option α)} (h : ∀ y, some y ∈ xs → some y ∈ seen) (y : α) :
    slots (enter seen (some y)) (xs ++ [some y]) = slots seen xs ++ [some (seen.idxOf (some y))] := by
  obtain ⟨more, hmore⟩ := enter_eq_append seen (some y)
  have hold : slots (enter seen (some y)) xs = slots seen xs := by rw [hmore, slots_append h]
  rw [slots, List.map_append, ← slots, hold, List.map_singleton, Option.map_some, idxOf_enter]

end Ledger

namespace PendingKeys

def ofSlots (slots : List (Option ℕ)) : PendingKeys :=
  ⟨(slots.map fun slot => (slot.getD 0 : ℤ)).toArray, (slots.map Option.isSome).toArray, by simp⟩

theorem push_ofSlots (slots : List (Option ℕ)) (slot : ℕ) :
    (ofSlots slots).push slot = ofSlots (slots ++ [some slot]) := by
  simp [ofSlots, push]

theorem pushNull_ofSlots (slots : List (Option ℕ)) :
    (ofSlots slots).pushNull = ofSlots (slots ++ [none]) := by
  simp [ofSlots, pushNull]

def key (slot : ℕ) : DataType.int32.Element := BitVec.ofNat 32 slot

theorem isValid_cells (keys : PendingKeys) {i : ℕ} (hi : i < keys.slots.size) :
    keys.cells.isValid i = keys.mask.getD i false := by
  have hmask : i < keys.mask.size := keys.size_eq ▸ hi
  by_cases hall : keys.mask.toList.all id
  · have hbit : keys.mask[i] = true :=
      List.all_eq_true.mp hall keys.mask[i] (Array.getElem_mem_toList hmask)
    have hcells : keys.cells.validity = none := if_pos hall
    simp [Cells.isValid, hcells, hmask, hbit]
  · have hcells : keys.cells.validity = some keys.mask := if_neg hall
    have hoffset : keys.cells.offset = 0 := rfl
    simp [Cells.isValid, hcells, hoffset]

/-- The zero kept for a null never shows. -/
theorem toList_cells_ofSlots (slots : List (Option ℕ)) :
    (ofSlots slots).cells.toList = slots.map (Option.map key) := by
  apply List.ext_getElem (by simp [cells, ofSlots])
  intro i _ hi
  have hi : i < slots.length := by simpa using hi
  have hvalid := isValid_cells (ofSlots slots) (by simpa [ofSlots] using hi)
  simp only [Cells.toList, List.getElem_map, List.getElem_range, Cells.get, hvalid]
  cases h : slots[i] <;> simp [cells, ofSlots, hi, h, key, BitVec.ofInt_natCast]

end PendingKeys

namespace Operation

variable {α : Type}

/-- The elements that get slots: all of them, or all but the nulls. -/
def recorded (op : Operation) (xs : List (Option α)) : List (Option α) :=
  xs.filter fun x => op.memoizesNulls || x.isSome

theorem mem_recorded {op : Operation} {xs : List (Option α)} {x : Option α} :
    x ∈ op.recorded xs ↔ x ∈ xs ∧ ¬(x = none ∧ ¬op.memoizesNulls) := by
  rw [recorded, List.mem_filter]
  cases x <;> simp

theorem recorded_eq_self {op : Operation} (hop : op.memoizesNulls) (xs : List (Option α)) :
    op.recorded xs = xs := by
  simp [recorded, hop]

theorem recorded_dictionaryEncode (xs : List (Option α)) :
    Operation.dictionaryEncode.recorded xs = xs.filter Option.isSome := by
  simp [recorded, memoizesNulls]

theorem recorded_concat (op : Operation) (xs : List (Option α)) {x : Option α}
    (hx : ¬(x = none ∧ ¬op.memoizesNulls)) :
    op.recorded (xs ++ [x]) = op.recorded xs ++ [x] := by
  rw [recorded, recorded, List.filter_append]
  cases x <;> simp_all

end Operation

section After

variable {α : Type} [DecidableEq α]

/-- What is left of `history` when only `pending` has not been handed out. -/
def Tally.after : (op : Operation) → (seen history pending : List (Option α)) → Tally op
  | .unique, _, _, _ => ()
  | .valueCounts, seen, history, _ => (seen.map (history.count ·)).toArray
  | .dictionaryEncode, seen, _, pending => .ofSlots (Ledger.slots seen pending)

theorem Tally.observe_after {op : Operation} {seen history pending : List (Option α)}
    (hnodup : seen.Nodup) (hseen : ∀ y, y ∈ seen ↔ y ∈ op.recorded history)
    (hpending : pending ⊆ history) {x : Option α} (hx : ¬(x = none ∧ ¬op.memoizesNulls)) :
    (Tally.after op seen history pending).observe (.found (seen.idxOf x)) =
      .ok (Tally.after op (Ledger.enter seen x) (history ++ [x]) (pending ++ [x])) := by
  cases op with
  | unique => rfl
  | valueCounts =>
    apply Ledger.bump_counts hnodup
    intro y
    rw [hseen, Operation.recorded_eq_self rfl]
  | dictionaryEncode =>
    obtain ⟨y, rfl⟩ : ∃ y, x = some y := Option.ne_none_iff_exists'.mp (by
      rintro rfl
      exact hx ⟨rfl, by decide⟩)
    -- Pending elements are listed already, so the new entry moves none of their slots.
    have hknown : ∀ z, some z ∈ pending → some z ∈ seen := by
      intro z hz
      rw [hseen, Operation.mem_recorded]
      exact ⟨hpending hz, by simp⟩
    rw [Tally.observe, Tally.after, PendingKeys.push_ofSlots, Tally.after,
      Ledger.slots_enter hknown y]

def Operation.keys (op : Operation) (seen pending : List (Option α)) :
    Option (Cells DataType.int32.layout) :=
  match op with
  | .unique | .valueCounts => none
  | .dictionaryEncode => some (PendingKeys.ofSlots (Ledger.slots seen pending)).cells

/-- Keys handed out early stay the same when more is seen. -/
theorem Operation.keys_append (op : Operation) {xs pending : List (Option α)} (h : pending ⊆ xs)
    (ys : List (Option α)) :
    op.keys (op.recorded (xs ++ ys)).eraseDups pending =
      op.keys (op.recorded xs).eraseDups pending := by
  cases op with
  | unique | valueCounts => rfl
  | dictionaryEncode =>
    have hseen : ∀ y, some y ∈ pending → some y ∈ (dictionaryEncode.recorded xs).eraseDups := by
      intro y hy
      rw [List.mem_eraseDups, mem_recorded]
      exact ⟨h hy, by simp⟩
    rw [keys, keys, recorded, List.filter_append, List.eraseDups_append, ← recorded,
      Ledger.slots_append hseen]

namespace Ledger

variable {op : Operation} {history pending : List (Option α)}

def after (op : Operation) (history pending : List (Option α)) : Ledger op α :=
  ⟨(op.recorded history).eraseDups, .after op (op.recorded history).eraseDups history pending⟩

theorem after_nil (op : Operation) : after op ([] : List (Option α)) [] = empty op α := by
  cases op <;> rfl

theorem visit_after (hpending : pending ⊆ history) (x : Option α)
    (hroom : ((op.recorded (history ++ [x])).eraseDups).length ≤ Memo.largestSlot + 1) :
    (after op history pending).visit x = (after op (history ++ [x]) (pending ++ [x]), .ok ()) := by
  by_cases hx : x = none ∧ ¬op.memoizesNulls
  · obtain ⟨rfl, hop⟩ := hx
    rw [visit, if_pos ⟨rfl, hop⟩]
    cases op with
    | unique | valueCounts => exact absurd rfl hop
    | dictionaryEncode =>
      simp [observe, after, Operation.recorded, Tally.after, Tally.observe,
        PendingKeys.pushNull_ofSlots, slots, Operation.memoizesNulls]
  · rw [op.recorded_concat history hx, eraseDups_concat] at hroom
    -- An element that is listed needs no slot, and one that is not makes the list longer.
    have hslot : x ∈ (op.recorded history).eraseDups ∨
        (op.recorded history).eraseDups.length ≤ Memo.largestSlot := by
      by_cases hmem : x ∈ (op.recorded history).eraseDups
      · exact Or.inl hmem
      · rw [length_enter_of_not_mem hmem] at hroom
        exact Or.inr (Nat.le_of_succ_le_succ hroom)
    have hobserve := Tally.observe_after (nodup_eraseDups (op.recorded history))
      (fun y => List.mem_eraseDups) hpending hx
    rw [visit, if_neg hx, after, if_pos hslot, observe, hobserve, after,
      op.recorded_concat history hx, eraseDups_concat]

theorem length_recorded_eraseDups_le (op : Operation) (xs ys : List (Option α)) :
    (op.recorded xs).eraseDups.length ≤ (op.recorded (xs ++ ys)).eraseDups.length := by
  rw [Operation.recorded, Operation.recorded, List.filter_append, List.eraseDups_append,
    List.length_append]
  exact Nat.le_add_right _ _

theorem visitAll_after (hpending : pending ⊆ history) (xs : List (Option α))
    (hroom : ((op.recorded (history ++ xs)).eraseDups).length ≤ Memo.largestSlot + 1) :
    (after op history pending).visitAll xs = (after op (history ++ xs) (pending ++ xs), .ok ()) := by
  induction xs generalizing history pending with
  | nil => simp [visitAll]
  | cons x xs ih =>
    rw [List.append_cons] at hroom
    have hstep := visit_after hpending x ((length_recorded_eraseDups_le op _ xs).trans hroom)
    -- The elements visited so far are the end of the history, so their slots stay what they were.
    rw [visitAll, hstep]
    simpa using ih (List.append_subset.mpr ⟨List.Subset.trans hpending (List.subset_append_left _ _),
      List.subset_append_right _ _⟩) hroom

theorem reserve_after [Memory] (op : Operation) (history : List (Option α)) (n : ℕ) :
    (after op history []).tally.reserve n = (Tally.empty op).reserve n := by
  cases op <;> rfl

theorem append_after [Memory] (xs : List (Option α))
    (hreserve : (Tally.empty op).reserve xs.length = .ok ())
    (hroom : ((op.recorded (history ++ xs)).eraseDups).length ≤ Memo.largestSlot + 1) :
    (after op history []).append xs = (after op (history ++ xs) xs, .ok ()) := by
  rw [append, reserve_after, hreserve]
  exact visitAll_after (List.nil_subset _) xs hroom

theorem append_refused [Memory] (xs : List (Option α)) {e : Failure}
    (hreserve : (Tally.empty op).reserve xs.length = .error e) :
    (after op history []).append xs = (after op history [], .error e) := by
  rw [append, reserve_after, hreserve]

theorem flush_after (op : Operation) (history pending : List (Option α)) :
    (after op history pending).flush =
      (op.keys (op.recorded history).eraseDups pending, after op history []) := by
  cases op <;> rfl

theorem flushFinal_after (history pending : List (Option α)) :
    (after .valueCounts history pending).flushFinal.1 = some (SlotCounts.toCells
      ((Operation.valueCounts.recorded history).eraseDups.map (history.count ·)).toArray) :=
  rfl

end Ledger

end After

theorem Kernel.create_after [Memory] {op : Operation} {t : DataType} {capacity : ℕ}
    {kernel : Kernel op t} (h : create op t capacity = .ok kernel) : kernel.Holds (.after op [] []) := by
  rw [Ledger.after_nil]
  exact create_holds h

section Occurrences

variable {α : Type} [DecidableEq α]

/-- A number of occurrences as it is handed out. -/
def SlotCounts.cell (n : ℕ) : DataType.int64.Element := BitVec.ofNat 64 n

/-- The distinct elements in order of first sight, each beside the number of its occurrences. -/
def occurrences (xs : List (Option α)) : List (Option α × Option DataType.int64.Element) :=
  xs.eraseDups.map fun x => (x, some (SlotCounts.cell (xs.count x)))

theorem eraseDups_perm {xs ys : List (Option α)} (h : ∀ x, x ∈ xs ↔ x ∈ ys) :
    List.Perm xs.eraseDups ys.eraseDups := by
  apply (List.perm_ext_iff_of_nodup (Ledger.nodup_eraseDups xs) (Ledger.nodup_eraseDups ys)).mpr
  intro x
  rw [List.mem_eraseDups, List.mem_eraseDups, h]

theorem occurrences_perm {xs ys : List (Option α)} (h : List.Perm xs ys) :
    List.Perm (occurrences xs) (occurrences ys) := by
  have hcount : (fun x => (x, some (SlotCounts.cell (xs.count x)))) =
      fun x => (x, some (SlotCounts.cell (ys.count x))) := by
    funext x
    rw [h.count_eq]
  rw [occurrences, occurrences, hcount]
  exact (eraseDups_perm fun x => h.mem_iff).map _

theorem zip_occurrences (xs : List (Option α)) :
    xs.eraseDups.zip (xs.eraseDups.map fun x => some (SlotCounts.cell (xs.count x))) =
      occurrences xs :=
  List.map_prod_left_eq_zip.symm

end Occurrences

namespace Kernel

section Counts

variable {t : DataType} {kernel : Kernel .valueCounts t} {history pending : List (Option t.Element)}
  (h : kernel.Holds (.after .valueCounts history pending))

include h

theorem flushFinal_counts : ∃ counts, kernel.flushFinal.1 = some counts ∧
    counts.toList = history.eraseDups.map fun x => some (SlotCounts.cell (history.count x)) := by
  have hcounts := (flushFinal_holds h).1
  rw [Ledger.flushFinal_after, Operation.recorded_eq_self rfl] at hcounts
  exact ⟨_, hcounts, (SlotCounts.toList_toCells _).trans (List.map_map ..)⟩

theorem counts_of_holds (ht : t ≠ .fixedSizeBinary 0) {dictionary : Cells t.layout}
    (hdictionary : kernel.dictionary = .ok ⟨t, dictionary⟩) :
    ∃ counts, kernel.flushFinal.1 = some counts ∧ dictionary.length = counts.length ∧
      dictionary.toList.zip counts.toList = occurrences history := by
  obtain ⟨counts, hcounts, hlist⟩ := flushFinal_counts h
  have hentries := toList_dictionary h (DataType.layout_ne_block_zero ht) hdictionary
  rw [Ledger.after, Operation.recorded_eq_self rfl] at hentries
  refine ⟨counts, hcounts, ?_, ?_⟩
  · rw [← Cells.length_toList, ← Cells.length_toList, hentries, hlist, List.length_map]
  · rw [hentries, hlist, zip_occurrences]

end Counts

end Kernel

end Columnar
