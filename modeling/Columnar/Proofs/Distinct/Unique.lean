import Columnar.Proofs.Distinct.Pass

namespace Columnar

namespace Distinct

variable [Memory] {op : Operation} {t : DataType}

/-- How the chunks store what they hold makes no difference to a pass. -/
theorem feed_congr (kernel : Kernel op t) {chunks others : List (Cells t.layout)}
    (h : others.map Cells.toList = chunks.map Cells.toList) :
    feed kernel (others.map (Column.mk t)) = feed kernel (chunks.map (Column.mk t)) := by
  induction chunks generalizing kernel others with
  | nil => rw [List.map_eq_nil_iff.mp h]
  | cons c chunks ih =>
    obtain ⟨d, others, rfl, hd, hrest⟩ := List.map_eq_cons_iff.mp h
    simp only [List.map_cons, feed, kernel.append_congr hd, ih _ hrest]

theorem pass_congr (op : Operation) (capacity : ℕ) {chunks others : List (Cells t.layout)}
    (h : others.map Cells.toList = chunks.map Cells.toList) :
    pass op t (others.map (Column.mk t)) capacity = pass op t (chunks.map (Column.mk t)) capacity := by
  simp only [pass, feed_congr _ h]

end Distinct

section Unique

variable [Memory] {t : DataType} {capacity : ℕ}
  (hkernel : ∃ kernel, Kernel.create .unique t capacity = .ok kernel)
  (ht : t ≠ .fixedSizeBinary 0) (chunks : List (Cells t.layout))
  (hfits : t.layout.Fits (chunks.flatMap Cells.toList).eraseDups)

include hkernel ht hfits

theorem uniqueChunked_ok :
    ∃ cells, uniqueChunked t (chunks.map (Column.mk t)) capacity = .ok ⟨t, cells⟩ ∧
      cells.toList = (chunks.flatMap Cells.toList).eraseDups := by
  obtain ⟨done, cells, hdone, houtcome, hall⟩ := Distinct.pass_done hkernel ht chunks
    (by rwa [Operation.recorded_eq_self rfl]) (Distinct.reserveAll_ok rfl chunks)
  rw [Operation.recorded_eq_self rfl] at hall
  refine ⟨cells, ?_, hall⟩
  rw [uniqueChunked, hdone, ← houtcome.dictionary]
  rfl

/-- The distinct elements are the elements of all chunks without their repetitions, in order of first
sight, and they come in the type of the chunks. Null is one of them, and nothing that lies under a null or
outside a window is. -/
theorem uniqueChunked_eraseDups :
    ∃ cells, uniqueChunked t (chunks.map (Column.mk t)) capacity = .ok ⟨t, cells⟩ ∧
      cells.toList = (chunks.flatMap Cells.toList).eraseDups ∧
      ∀ others : List (Cells t.layout), others.map Cells.toList = chunks.map Cells.toList →
        uniqueChunked t (others.map (Column.mk t)) capacity = .ok ⟨t, cells⟩ := by
  obtain ⟨cells, hcells, hlist⟩ := uniqueChunked_ok hkernel ht chunks hfits
  refine ⟨cells, hcells, hlist, ?_⟩
  intro others h
  rw [← hcells, uniqueChunked, Distinct.pass_congr .unique capacity h, uniqueChunked]

end Unique

/-- Empty bytes, bytes under a null and bytes outside a window, which a null could be taken for. -/
theorem uniqueChunked_eraseDups_binary :
    letI : Memory := .of47Bits
    let chunks : List (Cells DataType.binary.layout) :=
      [.masked #[some [7], some [], some [7]] #[false, true, true], .ofList [],
        (Cells.ofList [some [9], none, some [7], some [0]]).slice 1 3]
    (∃ kernel, Kernel.create .unique .binary 5 = .ok kernel) ∧
    DataType.binary ≠ .fixedSizeBinary 0 ∧
    DataType.binary.layout.Fits (chunks.flatMap Cells.toList).eraseDups ∧
    ∃ cells, uniqueChunked .binary (chunks.map (Column.mk .binary)) 5 = .ok ⟨.binary, cells⟩ ∧
      cells.toList = [none, some [], some [7], some [0]] := by
  intro chunks
  let memory : Memory := .of47Bits
  have hkernel : ∃ kernel, Kernel.create .unique .binary 5 = .ok kernel :=
    ⟨_, Kernel.create_eq_ok .unique rfl (by decide) rfl⟩
  have htype : DataType.binary ≠ .fixedSizeBinary 0 := by decide
  have hdistinct : (chunks.flatMap Cells.toList).eraseDups = [none, some [], some [7], some [0]] :=
    rfl
  have hfits : DataType.binary.layout.Fits (chunks.flatMap Cells.toList).eraseDups := by
    rw [hdistinct]
    exact ⟨by decide, by decide⟩
  obtain ⟨cells, h, hlist, -⟩ := uniqueChunked_eraseDups hkernel htype chunks hfits
  exact ⟨hkernel, htype, hfits, cells, h, hlist.trans hdistinct⟩

end Columnar
