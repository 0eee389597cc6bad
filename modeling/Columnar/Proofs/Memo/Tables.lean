import Columnar.Memo.Blocks
import Columnar.Memo.Boolean
import Columnar.Memo.Words
import Columnar.Proofs.Memo.Entries

namespace Columnar.Memo

namespace BooleanTable

variable {table : BooleanTable} {entries : List (Option Bool)}

structure Holds (table : BooleanTable) (entries : List (Option Bool)) : Prop where
  nodup : entries.Nodup
  order : table.order.toList = entries
  slot? : ∀ value slot, table.slot? value = some slot ↔ entries[slot]? = some (some value)
  nullSlot : ∀ slot, table.nullSlot = some slot ↔ entries[slot]? = some none

theorem holds_empty : empty.Holds [] where
  nodup := List.nodup_nil
  order := rfl
  slot? value slot := by cases value <;> simp [empty, BooleanTable.slot?]
  nullSlot := by simp [empty]

theorem Holds.size_eq (h : table.Holds entries) : table.size = entries.length := by
  rw [size, ← h.order, Array.length_toList]

theorem slot?_withSlot (table : BooleanTable) (slot : ℕ) (value other : Bool) :
    (table.withSlot slot value).slot? other =
      if other = value then some slot else table.slot? other := by
  cases value <;> cases other <;> rfl

theorem insert_admitted (h : table.Holds entries) (value : Bool) :
    Admitted Holds table entries (some value) (table.insert value) := by
  refine .of_find (h.slot? value) h.size_eq fun hnew => ?_
  refine ⟨nodup_concat h.nodup hnew, ?_, fun other slot => ?_, fun slot => ?_⟩
  · cases value <;> simp [withSlot, h.order]
  · rw [slot?_withSlot, getElem?_concat_eq_some, ← h.slot?]
    split
    · next heq =>
      subst heq
      -- The slot that is given now cannot be that of the other value as well.
      have habsent : table.slot? other ≠ some slot := by
        intro hs
        exact hnew (List.mem_of_getElem? ((h.slot? other slot).mp hs))
      simp [habsent, eq_comm]
    · next hne => simp [Ne.symm hne]
  · rw [← nullSlot_concat_key h.nullSlot]
    cases value <;> rfl

theorem insertNull_admitted (h : table.Holds entries) :
    Admitted Holds table entries none table.insertNull := by
  refine .of_find h.nullSlot h.size_eq fun hnew => ?_
  refine ⟨nodup_concat h.nodup hnew, by simp [h.order], fun value slot => ?_,
    nullSlot_concat_null hnew⟩
  rw [getElem?_concat_eq_some, ← h.slot?]
  cases value <;> simp [slot?]

theorem toList_toCells (h : table.Holds entries) : table.toCells.toList = entries := by
  rw [toCells, Cells.toList_ofList, h.order]

theorem Holds.toCells_unique {other : BooleanTable} (h : table.Holds entries)
    (hother : other.Holds entries) : table.toCells = other.toCells := by
  rw [toCells, toCells, h.order, hother.order]

end BooleanTable

namespace WordTable

variable {width : ℕ} {table : WordTable width} {entries : List (Option (BitVec width))}

structure Holds (table : WordTable width) (entries : List (Option (BitVec width))) : Prop where
  indexed : Indexed table.index table.hash entries
  values : table.values.toList = entries.map (·.getD 0)
  nullSlot : ∀ slot, table.nullSlot = some slot ↔ entries[slot]? = some none

theorem holds_empty (hash : BitVec width → UInt64) : (empty hash).Holds [] where
  indexed := Indexed.empty hash
  values := rfl
  nullSlot := by simp [empty]

theorem Holds.size_eq (h : table.Holds entries) : table.size = entries.length := by
  rw [size, ← Array.length_toList, h.values, List.length_map]

theorem Holds.getElem?_values (h : table.Holds entries) {slot : ℕ} {value : BitVec width}
    (hslot : entries[slot]? = some (some value)) : table.values[slot]? = some value := by
  rw [← Array.getElem?_toList, h.values, List.getElem?_map, hslot]
  rfl

theorem find?_eq_some_iff (h : table.Holds entries) (value : BitVec width) (slot : ℕ) :
    table.find? value = some slot ↔ entries[slot]? = some (some value) := by
  apply h.indexed.find?_eq_some_iff
  intro slot other hslot
  simp [h.getElem?_values hslot]

theorem insert_admitted (h : table.Holds entries) (value : BitVec width) :
    Admitted Holds table entries (some value) (table.insert value) := by
  refine .of_find (find?_eq_some_iff h value) h.size_eq fun hnew => ?_
  exact ⟨h.indexed.insert hnew, by simp [h.values], nullSlot_concat_key h.nullSlot⟩

theorem insertNull_admitted (h : table.Holds entries) :
    Admitted Holds table entries none table.insertNull := by
  refine .of_find h.nullSlot h.size_eq fun hnew => ?_
  exact ⟨h.indexed.insertNull hnew, by simp [h.values], nullSlot_concat_null hnew⟩

theorem toList_toCells {reading : Reading} (h : table.Holds entries) :
    (table.toCells : Cells (.word width reading)).toList = entries := by
  refine Cells.toList_withNull ?_ h.nullSlot fun slot value hslot => ?_
  · rw [Array.size_map]
    exact h.size_eq
  · rw [Array.getElem?_map, h.getElem?_values hslot]
    rfl

theorem Holds.toCells_unique {reading : Reading} {other : WordTable width}
    (h : table.Holds entries) (hother : other.Holds entries) :
    (table.toCells : Cells (.word width reading)) = other.toCells := by
  have hvalues : table.values = other.values := Array.ext' (h.values.trans hother.values.symm)
  rw [toCells, toCells, hvalues, nullSlot_unique h.nullSlot hother.nullSlot]

end WordTable

namespace BlockTable

variable {width : ℕ} {table : BlockTable width} {entries : List (Option (List UInt8))}

def stored (width : ℕ) (entry : Option (List UInt8)) : List UInt8 :=
  entry.getD (List.replicate width 0)

structure Holds (table : BlockTable width) (entries : List (Option (List UInt8))) : Prop where
  indexed : Indexed table.index table.hash entries
  widths : ∀ bytes, some bytes ∈ entries → bytes.length = width
  buffer : table.buffer.toList = entries.flatMap (stored width)
  size : table.size = entries.length
  nullSlot : ∀ slot, table.nullSlot = some slot ↔ entries[slot]? = some none

theorem holds_empty (hash : List UInt8 → UInt64) : (empty hash : BlockTable width).Holds [] where
  indexed := Indexed.empty hash
  widths := by simp
  buffer := rfl
  size := rfl
  nullSlot := by simp [empty]

theorem length_flatMap_stored {entries : List (Option (List UInt8))}
    (hwidths : ∀ bytes, some bytes ∈ entries → bytes.length = width) :
    (entries.flatMap (stored width)).length = entries.length * width := by
  induction entries with
  | nil => simp
  | cons entry entries ih =>
    have hentry : (stored width entry).length = width := by
      cases entry with
      | none => simp [stored]
      | some bytes => exact hwidths bytes (by simp)
    rw [List.flatMap_cons, List.length_append, hentry,
      ih fun bytes hbytes => hwidths bytes (List.mem_cons_of_mem _ hbytes), List.length_cons]
    ring

theorem Holds.block_eq (h : table.Holds entries) {slot : ℕ} {entry : Option (List UInt8)}
    (hslot : entries[slot]? = some entry) : table.block slot = stored width entry := by
  have hlt := (List.getElem?_eq_some_iff.mp hslot).1
  have hreach : ∀ n ≤ entries.length,
      ((entries.take n).flatMap (stored width)).length = n * width := by
    intro n hn
    rw [length_flatMap_stored fun bytes hbytes => h.widths bytes (List.mem_of_mem_take hbytes),
      List.length_take_of_le hn]
  rw [← extract_flatMap (stored width) h.buffer hslot, hreach slot hlt.le, hreach (slot + 1) hlt]
  rfl

theorem find?_eq_some_iff (h : table.Holds entries) (bytes : List UInt8) (slot : ℕ) :
    table.find? bytes = some slot ↔ entries[slot]? = some (some bytes) := by
  apply h.indexed.find?_eq_some_iff
  intro slot other hslot
  simp [h.block_eq hslot, stored]

theorem insert_admitted (h : table.Holds entries) {bytes : List UInt8}
    (hbytes : bytes.length = width) :
    Admitted Holds table entries (some bytes) (table.insert bytes) := by
  refine .of_find (find?_eq_some_iff h bytes) h.size fun hnew => ?_
  refine ⟨h.indexed.insert hnew, fun other hother => ?_, by simp [h.buffer, stored],
    by simp [h.size], nullSlot_concat_key h.nullSlot⟩
  rcases List.mem_append.mp hother with hold | hlast
  · exact h.widths other hold
  · obtain rfl : other = bytes := by simpa using hlast
    exact hbytes

theorem insertNull_admitted (h : table.Holds entries) :
    Admitted Holds table entries none table.insertNull := by
  refine .of_find h.nullSlot h.size fun hnew => ?_
  exact ⟨h.indexed.insertNull hnew, by simpa using h.widths, by simp [h.buffer, stored],
    by simp [h.size], nullSlot_concat_null hnew⟩

theorem Holds.isSome_nullSlot (h : table.Holds entries) :
    table.nullSlot.isSome ↔ none ∈ entries := by
  rw [Option.isSome_iff_exists, List.mem_iff_getElem?]
  exact exists_congr h.nullSlot

/-- The bytes tell how many blocks there are. Where there are no bytes only a null does. -/
theorem cellCount_eq (h : table.Holds entries) :
    table.cellCount = if width = 0 ∧ none ∉ entries then 0 else entries.length := by
  by_cases hwidth : width = 0
  · simp only [cellCount, h.isSome_nullSlot, h.size, hwidth, if_true, true_and, ite_not]
  · rw [cellCount, if_neg hwidth, if_neg (by simp [hwidth]), ← Array.length_toList, h.buffer,
      length_flatMap_stored h.widths, Nat.mul_div_cancel _ (Nat.pos_of_ne_zero hwidth)]

/-- Blocks come back as they were put in, but those of width zero only beside a null. -/
theorem toList_toCells {xs : List (Option (Block width))}
    (h : table.Holds (xs.map (Option.map Subtype.val))) :
    table.toCells.toList = if width = 0 ∧ none ∉ xs then [] else xs := by
  have hcount : table.cellCount = if width = 0 ∧ none ∉ xs then 0 else xs.length := by
    simpa using cellCount_eq h
  by_cases hlost : width = 0 ∧ none ∉ xs
  · rw [if_pos hlost] at hcount ⊢
    apply List.eq_nil_of_length_eq_zero
    rw [Cells.length_toList, toCells, Cells.length_withNull, Array.size_map, Array.size_range, hcount]
  · rw [if_neg hlost] at hcount ⊢
    refine Cells.toList_withNull (by simpa using hcount) (fun slot => ?_) fun slot x hslot => ?_
    · rw [h.nullSlot]
      simp
    · have hlt : slot < table.cellCount := hcount ▸ (List.getElem?_eq_some_iff.mp hslot).1
      have hentry : (xs.map (Option.map Subtype.val))[slot]? = some (some x.1) := by simp [hslot]
      have hblock : table.block slot = x.1 := h.block_eq hentry
      simp [hlt, cell, hblock, x.2]

/-- This holds of blocks of width zero as well, of which a column may lose some. -/
theorem Holds.toCells_unique {other : BlockTable width} (h : table.Holds entries)
    (hother : other.Holds entries) : table.toCells = other.toCells := by
  have hbuffer : table.buffer = other.buffer := Array.ext' (h.buffer.trans hother.buffer.symm)
  have hsize : table.size = other.size := h.size.trans hother.size.symm
  have hnull : table.nullSlot = other.nullSlot := nullSlot_unique h.nullSlot hother.nullSlot
  have hcell : table.cell = other.cell := by
    funext slot
    have hblock : table.block slot = other.block slot := by rw [block, block, hbuffer]
    simp only [cell, hblock]
  rw [toCells, toCells, cellCount, cellCount, hcell, hbuffer, hsize, hnull]

end BlockTable

end Columnar.Memo
