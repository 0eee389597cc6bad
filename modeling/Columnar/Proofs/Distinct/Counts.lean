import Columnar.Proofs.Distinct.Unique
import Columnar.Proofs.Kernel.Keys

namespace Columnar

/-- A struct of values beside counts. -/
structure StructColumn.Counts {t : DataType} (s : StructColumn) (values : Cells t.layout)
    (counts : Cells DataType.int64.layout) : Prop where
  fields : s.fields = [.plain "values" t true, .plain "counts" .int64 false]
  columns : s.columns = [⟨t, values⟩, ⟨.int64, counts⟩]
  length : s.length = values.length

theorem exists_counts_ofColumns {t : DataType} (values : Cells t.layout)
    {counts : Cells DataType.int64.layout} (hsome : none ∉ counts.toList)
    (hlength : values.length = counts.length) :
    ∃ s, StructColumn.ofColumns (valueCountsFields t) [⟨t, values⟩, ⟨.int64, counts⟩] = .ok s ∧
      s.Counts values counts := by
  have hnulls : counts.nullCount = 0 := counts.nullCount_eq_zero_iff.mpr hsome
  have hfits : ∀ pair ∈ (valueCountsFields t).zip [⟨t, values⟩, ⟨.int64, counts⟩],
      pair.1.Fits values.length pair.2 := by
    simp only [valueCountsFields, List.zip_cons_cons, List.zip_nil_right, List.forall_mem_cons]
    exact ⟨⟨rfl, rfl, Or.inl rfl⟩, ⟨rfl, hlength.symm, Or.inr hnulls⟩, by simp⟩
  exact ⟨_, StructColumn.ofColumns_eq_ok rfl hfits, rfl, rfl, rfl⟩

namespace Distinct

variable [Memory] {t : DataType} {columns : List Column} {capacity : ℕ}
  {chunks : List (Cells t.layout)} {entries : Cells t.layout} {done : Pass .valueCounts t}
  (hdone : pass .valueCounts t columns capacity = .ok done)
  (houtcome : Outcome chunks entries done)

include hdone houtcome

theorem valueCountsChunked_of_outcome
    (hall : entries.toList = (chunks.flatMap Cells.toList).eraseDups) :
    ∃ s counts, valueCountsChunked t columns capacity = .ok s ∧ s.Counts entries counts ∧
      entries.length = counts.length ∧
      entries.toList.zip counts.toList = occurrences (chunks.flatMap Cells.toList) := by
  obtain ⟨counts, hcounts, hlist⟩ := Kernel.flushFinal_counts houtcome.kernel
  have hlength : entries.length = counts.length := by
    rw [← Cells.length_toList, ← Cells.length_toList, hlist, hall, List.length_map]
  have hsome : none ∉ counts.toList := by
    rw [hlist]
    simp
  obtain ⟨s, hs, hstruct⟩ := exists_counts_ofColumns entries hsome hlength
  refine ⟨s, counts, ?_, hstruct, hlength, ?_⟩
  · rw [valueCountsChunked, hdone]
    simp only [bind, Except.bind, hcounts, houtcome.dictionary, Option.getD_some]
    exact (if_pos hlength.symm).trans hs
  · rw [hlist, hall, zip_occurrences]

/-- There is a count for every slot, whether its element shows or not. -/
theorem valueCountsChunked_of_missing
    (hmissing : entries.length ≠ (chunks.flatMap Cells.toList).eraseDups.length) :
    valueCountsChunked t columns capacity = .error (.internal (.countsLength
      (chunks.flatMap Cells.toList).eraseDups.length entries.length)) := by
  obtain ⟨counts, hcounts, hlist⟩ := Kernel.flushFinal_counts houtcome.kernel
  have hlength : counts.length = (chunks.flatMap Cells.toList).eraseDups.length := by
    rw [← Cells.length_toList, hlist, List.length_map]
  rw [← hlength] at hmissing ⊢
  rw [valueCountsChunked, hdone]
  simp only [bind, Except.bind, hcounts, houtcome.dictionary, Option.getD_some]
  exact if_neg hmissing.symm

end Distinct

/-- The values are the distinct elements, each beside the number of positions of all chunks that hold
it. The numbers are at least one and add up to the number of positions. -/
theorem valueCountsChunked_count [Memory] {t : DataType} {capacity : ℕ}
    (hkernel : ∃ kernel, Kernel.create .valueCounts t capacity = .ok kernel)
    (ht : t ≠ .fixedSizeBinary 0) (chunks : List (Cells t.layout))
    (hfits : t.layout.Fits (chunks.flatMap Cells.toList).eraseDups) :
    ∃ s values counts, valueCountsChunked t (chunks.map (Column.mk t)) capacity = .ok s ∧
      s.Counts values counts ∧
      uniqueChunked t (chunks.map (Column.mk t)) capacity = .ok ⟨t, values⟩ ∧
      values.toList = (chunks.flatMap Cells.toList).eraseDups ∧
      values.length = counts.length ∧ none ∉ counts.toList ∧
      counts.toList = values.toList.map
        (fun x => some (BitVec.ofNat 64 ((chunks.flatMap Cells.toList).count x))) ∧
      (∀ x ∈ values.toList, 1 ≤ (chunks.flatMap Cells.toList).count x) ∧
      (values.toList.map ((chunks.flatMap Cells.toList).count ·)).sum =
        (chunks.map Cells.length).sum ∧
      ((chunks.map Cells.length).sum < 2 ^ 63 → ∀ x,
        (BitVec.ofNat 64 ((chunks.flatMap Cells.toList).count x)).toInt =
          (chunks.flatMap Cells.toList).count x) := by
  have hunique : ∃ kernel, Kernel.create .unique t capacity = .ok kernel :=
    Kernel.create_ok_iff.mpr (Kernel.create_ok_iff.mp hkernel)
  have hrecorded : t.layout.Fits (Operation.valueCounts.recorded (chunks.flatMap Cells.toList)).eraseDups := by
    rwa [Operation.recorded_eq_self rfl]
  obtain ⟨done, values, hdone, houtcome, hall⟩ :=
    Distinct.pass_done hkernel ht chunks hrecorded (Distinct.reserveAll_ok rfl chunks)
  obtain ⟨plain, distinct, hplain, hsame, -⟩ :=
    Distinct.pass_done hunique ht chunks hrecorded (Distinct.reserveAll_ok rfl chunks)
  obtain rfl : distinct = values := hsame.entries_unique houtcome rfl
  rw [Operation.recorded_eq_self rfl] at hall
  obtain ⟨s, counts, hs, hstruct, hlength, hzip⟩ :=
    Distinct.valueCountsChunked_of_outcome hdone houtcome hall
  have htotal : (chunks.map Cells.length).sum = (chunks.flatMap Cells.toList).length := by
    simp [List.length_flatMap]
  have hcounts : counts.toList = distinct.toList.map
      (fun x => some (SlotCounts.cell ((chunks.flatMap Cells.toList).count x))) := by
    have hsecond := congrArg (List.map Prod.snd) hzip
    rw [List.map_snd_zip (by simp [hlength]), occurrences, List.map_map, ← hall] at hsecond
    exact hsecond
  refine ⟨s, distinct, counts, hs, hstruct, ?_, hall, hlength, ?_, hcounts, fun x hx => ?_, ?_,
    fun hfew x => ?_⟩
  · rw [uniqueChunked, hplain, ← hsame.dictionary]
    rfl
  · rw [hcounts]
    simp
  · rw [hall, List.mem_eraseDups] at hx
    exact List.count_pos_iff.mpr hx
  · rw [hall, htotal]
    exact Ledger.sum_count_eraseDups _
  · exact SlotCounts.toInt_cell_count (htotal ▸ hfew) x

/-- A null over a zero, two zeros that differ in sign, and an empty chunk. -/
theorem valueCountsChunked_count_zeros :
    letI : Memory := .of47Bits
    let chunks : List (Cells DataType.float64.layout) :=
      [.ofList [some 0x0000000000000000#64, none, some 0x8000000000000000#64], .ofList [],
        .masked #[some 0x0000000000000000#64, some 0x0000000000000000#64] #[false, true]]
    (∃ kernel, Kernel.create .valueCounts .float64 5 = .ok kernel) ∧
    DataType.float64 ≠ .fixedSizeBinary 0 ∧
    DataType.float64.layout.Fits (chunks.flatMap Cells.toList).eraseDups ∧
    ∃ s values counts, valueCountsChunked .float64 (chunks.map (Column.mk .float64)) 5 = .ok s ∧
      s.Counts values counts ∧
      uniqueChunked .float64 (chunks.map (Column.mk .float64)) 5 = .ok ⟨.float64, values⟩ ∧
      values.toList = [some 0x0000000000000000#64, none, some 0x8000000000000000#64] ∧
      counts.toList = [some 2#64, some 2#64, some 1#64] := by
  intro chunks
  let memory : Memory := .of47Bits
  have hkernel : ∃ kernel, Kernel.create .valueCounts .float64 5 = .ok kernel :=
    ⟨_, Kernel.create_eq_ok .valueCounts rfl (by decide) rfl⟩
  have htype : DataType.float64 ≠ .fixedSizeBinary 0 := by decide
  have hdistinct : (chunks.flatMap Cells.toList).eraseDups =
      [some 0x0000000000000000#64, none, some 0x8000000000000000#64] := rfl
  have hfits : DataType.float64.layout.Fits (chunks.flatMap Cells.toList).eraseDups := by
    rw [hdistinct]
    exact ⟨by decide, by decide⟩
  obtain ⟨s, values, counts, hs, hstruct, hunique, hvalues, -, -, hcounts, -⟩ :=
    valueCountsChunked_count hkernel htype chunks hfits
  refine ⟨hkernel, htype, hfits, s, values, counts, hs, hstruct, hunique,
    hvalues.trans hdistinct, ?_⟩
  rw [hcounts, hvalues, hdistinct]
  rfl

end Columnar
