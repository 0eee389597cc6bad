import Columnar.Proofs.Distinct.Counts
import Columnar.Proofs.Kernel.KeyAccount
import Columnar.Proofs.Merge.Taken

namespace Columnar

section Sorted

variable {α : Type} [DecidableEq α] {r : Option α → Option α → Prop}
  (hasymm : ∀ x y, r x y → ¬r y x) {xs : List (Option α)}

include hasymm

end Sorted

namespace Distinct

variable {t : DataType}

section Full

variable [Memory] {op : Operation} {kernel : Kernel op t} {history : List (Option t.Element)}
  (h : kernel.Holds (.after op history [])) (hroomy : Ledger.Roomy op history)

include h hroomy

theorem feed_cons_full {c : Cells t.layout} (hreserve : (Tally.empty op).reserve c.length = .ok ())
    (hfull : ¬Ledger.Roomy op (history ++ c.toList)) (rest : List Column) :
    feed kernel (⟨t, c⟩ :: rest) = .error (.capacity .distinctValues) := by
  have hresult : (kernel.append ⟨t, c⟩).2 = .error (.capacity .distinctValues) := by
    rw [(Kernel.append_holds h c).1, Ledger.append, Ledger.reserve_after, Cells.length_toList,
      hreserve]
    simp only [Ledger.visitAll_intake hroomy (List.nil_subset _) c.toList, if_neg hfull]
  simp only [feed, hresult, bind, Except.bind]

/-- A pass with more distinct elements than there are slots stops at the first that has none. -/
theorem feed_full (chunks : List (Cells t.layout)) (hreserve : reserveAll op chunks = .ok ())
    (hfull : ¬Ledger.Roomy op (history ++ chunks.flatMap Cells.toList)) :
    feed kernel (chunks.map (Column.mk t)) = .error (.capacity .distinctValues) := by
  induction chunks generalizing kernel history with
  | nil =>
    rw [List.flatMap_nil, List.append_nil] at hfull
    exact absurd hroomy hfull
  | cons c chunks ih =>
    rw [List.flatMap_cons, ← List.append_assoc] at hfull
    rw [List.map_cons]
    cases hc : (Tally.empty op).reserve c.length with
    | error e => simp [reserveAll, hc, bind, Except.bind] at hreserve
    | ok _ =>
      rw [reserveAll, hc] at hreserve
      by_cases hmore : Ledger.Roomy op (history ++ c.toList)
      · obtain ⟨next, hnext, hfeed⟩ := feed_cons h hc hmore (chunks.map (Column.mk t))
        rw [hfeed, ih hnext hmore hreserve hfull]
        rfl
      · exact feed_cons_full h hroomy hc hmore _

end Full

end Distinct

section Count

variable [Memory] {t : DataType} {capacity : ℕ}
  (hkernel : ∃ kernel, Kernel.create .valueCounts t capacity = .ok kernel)
  (chunks : List (Cells t.layout))

include hkernel

end Count

end Columnar
