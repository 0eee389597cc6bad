import Columnar.Memo.Bytes
import Columnar.Proofs.Memo.Entries
import Columnar.Proofs.Text.Utf8

namespace Columnar.Memo.ByteTable

variable {table : ByteTable} {entries : List (Option (List UInt8))}

/-- What the buffer has for an entry; the null slot has no bytes. -/
def stored (entry : Option (List UInt8)) : List UInt8 := entry.getD []

structure Holds (table : ByteTable) (entries : List (Option (List UInt8))) : Prop where
  indexed : Indexed table.index table.hash entries
  buffer : table.buffer.toList = entries.flatMap stored
  size_offsets : table.offsets.size = entries.length + 1
  offsets : ∀ n ≤ entries.length, table.offsets[n]? = some ((entries.take n).flatMap stored).length
  nullSlot : ∀ slot, table.nullSlot = some slot ↔ entries[slot]? = some none

theorem holds_empty (hash : List UInt8 → UInt64) : (empty hash).Holds [] where
  indexed := Indexed.empty hash
  buffer := rfl
  size_offsets := rfl
  offsets n hn := by
    obtain rfl : n = 0 := by simpa using hn
    rfl
  nullSlot := by simp [empty]

theorem Holds.size_eq (h : table.Holds entries) : table.size = entries.length := by
  rw [size, h.size_offsets, Nat.add_sub_cancel]

theorem Holds.size_buffer (h : table.Holds entries) :
    table.buffer.size = (entries.flatMap stored).length := by
  rw [← Array.length_toList, h.buffer]

theorem Holds.span_eq (h : table.Holds entries) {slot : ℕ} {entry : Option (List UInt8)}
    (hslot : entries[slot]? = some entry) : table.span slot = stored entry := by
  have hlt := (List.getElem?_eq_some_iff.mp hslot).1
  rw [← extract_flatMap stored h.buffer hslot, span, Array.getD_eq_getD_getElem?,
    Array.getD_eq_getD_getElem?, h.offsets slot hlt.le, h.offsets (slot + 1) hlt]
  rfl

theorem find?_eq_some_iff (h : table.Holds entries) (bytes : List UInt8) (slot : ℕ) :
    table.find? bytes = some slot ↔ entries[slot]? = some (some bytes) := by
  apply h.indexed.find?_eq_some_iff
  intro slot other hslot
  simp [h.span_eq hslot, stored]

theorem Holds.offsets_concat (h : table.Holds entries) (entry : Option (List UInt8)) {n : ℕ}
    (hn : n ≤ (entries ++ [entry]).length) :
    (table.offsets.push (table.buffer.size + (stored entry).length))[n]? =
      some (((entries ++ [entry]).take n).flatMap stored).length := by
  rw [Array.getElem?_push, h.size_offsets]
  split
  · next heq =>
    subst heq
    rw [List.take_of_length_le (by simp), List.flatMap_append, List.length_append, h.size_buffer]
    simp
  · next hne =>
    have hle : n ≤ entries.length := by
      rw [List.length_append, List.length_singleton] at hn
      omega
    rw [h.offsets n hle, List.take_append_of_le_length hle]

theorem insert_admitted (h : table.Holds entries) (bytes : List UInt8) :
    Admitted Holds table entries (some bytes) (table.insert bytes) := by
  refine .of_find (find?_eq_some_iff h bytes) h.size_eq fun hnew => ?_
  exact ⟨h.indexed.insert hnew, by simp [h.buffer, stored], by simp [h.size_offsets],
    fun n hn => h.offsets_concat (some bytes) hn, nullSlot_concat_key h.nullSlot⟩

theorem insertNull_admitted (h : table.Holds entries) :
    Admitted Holds table entries none table.insertNull := by
  refine .of_find h.nullSlot h.size_eq fun hnew => ?_
  exact ⟨h.indexed.insertNull hnew, by simp [h.buffer, stored], by simp [h.size_offsets],
    fun n hn => h.offsets_concat none hn, nullSlot_concat_null hnew⟩

theorem Holds.mem_offsets (h : table.Holds entries) {offset : ℕ} (hmem : offset ∈ table.offsets) :
    ∃ n ≤ entries.length, offset = ((entries.take n).flatMap stored).length := by
  obtain ⟨n, hn⟩ := Array.mem_iff_getElem?.mp hmem
  have hlt : n < table.offsets.size := (Array.getElem?_eq_some_iff.mp hn).1
  have hle : n ≤ entries.length := by
    rw [h.size_offsets] at hlt
    omega
  exact ⟨n, hle, Option.some.inj (hn.symm.trans (h.offsets n hle))⟩

theorem Holds.checkOffsets_eq_ok (h : table.Holds entries) (t : DataType)
    (hfit : (entries.flatMap stored).length ≤ Layout.largestOffset) : table.checkOffsets t = .ok () := by
  apply if_pos
  apply Array.all_eq_true_iff_forall_mem.mpr
  intro offset hmem
  obtain ⟨n, -, rfl⟩ := h.mem_offsets hmem
  have hsub := (List.take_sublist n entries).flatMap stored
  exact decide_eq_true (hsub.length_le.trans hfit)

/-- The last offset is the number of all bytes, so it is the first to be too large. -/
theorem Holds.checkOffsets_refused (h : table.Holds entries) (t : DataType)
    (hover : Layout.largestOffset < (entries.flatMap stored).length) :
    table.checkOffsets t = .error (.capacity (.offsets t (entries.flatMap stored).length)) := by
  have hlast := h.offsets entries.length le_rfl
  rw [List.take_length] at hlast
  have hnot : ¬table.offsets.all (· ≤ Layout.largestOffset) := by
    intro hall
    have hle := Array.all_eq_true_iff_forall_mem.mp hall _ (Array.mem_of_getElem? hlast)
    exact absurd (of_decide_eq_true hle) (Nat.not_le_of_lt hover)
  rw [checkOffsets, if_neg hnot, h.size_buffer]

theorem Holds.toList_spans (h : table.Holds entries) : table.spans.toList = entries.map stored := by
  apply List.ext_getElem (by simp [spans, h.size_eq])
  intro slot _ hslot
  rw [List.length_map] at hslot
  have hspan := h.span_eq (List.getElem?_eq_getElem hslot)
  simpa [spans] using hspan

theorem toCells_ok (h : table.Holds entries)
    (hfit : (entries.flatMap stored).length ≤ Layout.largestOffset) :
    ∃ cells, table.toCells = .ok cells ∧ cells.toList = entries := by
  refine ⟨_, by rw [toCells, h.checkOffsets_eq_ok _ hfit]; rfl, ?_⟩
  refine Cells.toList_withNull ?_ h.nullSlot fun slot value hslot => ?_
  · simp [spans, h.size_eq]
  · rw [Array.getElem?_map, ← Array.getElem?_toList, h.toList_spans, List.getElem?_map, hslot]
    rfl

theorem toCells_refused (h : table.Holds entries)
    (hover : Layout.largestOffset < (entries.flatMap stored).length) :
    table.toCells = .error (.capacity (.offsets .binary (entries.flatMap stored).length)) := by
  rw [toCells, h.checkOffsets_refused _ hover]
  rfl

theorem toTextCells_refused (h : table.Holds entries)
    (hover : Layout.largestOffset < (entries.flatMap stored).length) :
    table.toTextCells = .error (.capacity (.offsets .utf8 (entries.flatMap stored).length)) := by
  rw [toTextCells, h.checkOffsets_refused _ hover]
  rfl

section Unique

variable {other : ByteTable} (h : table.Holds entries) (hother : other.Holds entries)
include h hother

/-- All that does not help to find an entry is settled by the entries. -/
theorem Holds.fields_unique : table.buffer = other.buffer ∧ table.offsets = other.offsets ∧
    table.nullSlot = other.nullSlot := by
  refine ⟨Array.ext' (h.buffer.trans hother.buffer.symm), ?_,
    nullSlot_unique h.nullSlot hother.nullSlot⟩
  apply Array.ext_getElem?
  intro n
  by_cases hn : n ≤ entries.length
  · rw [h.offsets n hn, hother.offsets n hn]
  · have hout : entries.length + 1 ≤ n := Nat.lt_of_not_le hn
    rw [Array.getElem?_eq_none (h.size_offsets ▸ hout),
      Array.getElem?_eq_none (hother.size_offsets ▸ hout)]

theorem Holds.spans_unique : table.spans = other.spans :=
  Array.ext' (h.toList_spans.trans hother.toList_spans.symm)

theorem Holds.checkOffsets_unique (t : DataType) : table.checkOffsets t = other.checkOffsets t := by
  obtain ⟨hbuffer, hoffsets, -⟩ := h.fields_unique hother
  rw [checkOffsets, checkOffsets, hbuffer, hoffsets]

theorem Holds.toCells_unique : table.toCells = other.toCells := by
  obtain ⟨-, -, hnull⟩ := h.fields_unique hother
  rw [toCells, toCells, h.checkOffsets_unique hother, h.spans_unique hother, hnull]

theorem Holds.toTextCells_unique : table.toTextCells = other.toTextCells := by
  obtain ⟨hbuffer, hoffsets, hnull⟩ := h.fields_unique hother
  have htext : table.checkText = other.checkText := by
    rw [checkText, checkText, hbuffer, hoffsets]
  rw [toTextCells, toTextCells, h.checkOffsets_unique hother, htext, h.spans_unique hother, hnull]

end Unique

section Text

variable {xs : List (Option String)}

def letters (x : Option String) : List Char := (x.getD "").toList

theorem flatMap_stored_text (xs : List (Option String)) :
    (xs.map (Option.map (·.toUTF8.toList))).flatMap stored =
      (xs.flatMap letters).flatMap String.utf8EncodeChar := by
  rw [List.flatMap_map, List.flatMap_assoc]
  apply List.flatMap_congr
  intro x _
  cases x with
  | none => simp [stored, letters]
  | some s => exact Text.toUTF8_toList s

theorem checkText_eq_ok (h : table.Holds (xs.map (Option.map (·.toUTF8.toList)))) :
    table.checkText = .ok () := by
  have hbuffer : table.buffer =
      ((xs.flatMap letters).flatMap String.utf8EncodeChar).toArray := by
    apply Array.ext'
    rw [h.buffer, flatMap_stored_text]
  -- Every offset is the end of some whole texts, so no character lies across it.
  have hboundary : ∀ offset ∈ table.offsets, ¬!Text.isBoundary table.buffer offset := by
    intro offset hmem
    obtain ⟨n, -, rfl⟩ := h.mem_offsets hmem
    have hsplit : xs.flatMap letters =
        (xs.take n).flatMap letters ++ (xs.drop n).flatMap letters := by
      rw [← List.flatMap_append, List.take_append_drop]
    rw [hbuffer, ← List.map_take, flatMap_stored_text, hsplit, Text.isBoundary_utf8]
    simp
  rw [checkText, Text.decode, hbuffer, Text.decodeFrom_utf8, ← hbuffer]
  simp [Except.map, Array.find?_eq_none.mpr hboundary]

theorem toTextCells_ok (h : table.Holds (xs.map (Option.map (·.toUTF8.toList))))
    (hfit : ((xs.map (Option.map (·.toUTF8.toList))).flatMap stored).length ≤ Layout.largestOffset) :
    ∃ cells, table.toTextCells = .ok cells ∧ cells.toList = xs := by
  -- The spans are the texts themselves, with an empty one for null.
  have hspans : table.spans = (xs.map (·.getD "")).toArray.map (·.toUTF8.toList) := by
    apply Array.ext'
    rw [h.toList_spans]
    simp only [List.map_map, Array.toList_map]
    apply List.map_congr_left
    intro x _
    cases x with
    | none => simp [stored]
    | some s => rfl
  have htexts : (table.spans.mapM fun span =>
      (Text.decode span).mapError fun fault => Failure.format (.notUtf8 fault)) =
        .ok (xs.map (·.getD "")).toArray := by
    simp only [hspans, Array.mapM_map, Function.comp_def, Text.decode_toUTF8, Except.mapError]
    exact Array.mapM_pure.trans (congrArg Except.ok (Array.map_id _))
  refine ⟨_, by rw [toTextCells, h.checkOffsets_eq_ok _ hfit, checkText_eq_ok h, htexts]; rfl, ?_⟩
  refine Cells.toList_withNull (by simp) (fun slot => ?_) fun slot s hslot => ?_
  · rw [h.nullSlot]
    simp
  · simp [hslot]

end Text

end Columnar.Memo.ByteTable
