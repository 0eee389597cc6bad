import Columnar.Proofs.Kernel.Calls

namespace Columnar

variable {op : Operation} {t : DataType}

/-- The same call of a kernel of nulls and of a kernel of type `t`, both of which are given the same number
of nulls and nothing else. -/
inductive Call.SameNulls (t : DataType) : Call → Call → Prop
  | append (nulls : Cells DataType.null.layout) (cells : Cells t.layout)
    (h : cells.toList = List.replicate nulls.length none) :
    SameNulls t (.append ⟨.null, nulls⟩) (.append ⟨t, cells⟩)
  | flush : SameNulls t .flush .flush
  | flushFinal : SameNulls t .flushFinal .flushFinal
  | dictionary : SameNulls t .dictionary .dictionary
  | reset : SameNulls t .reset .reset

/-- The same answer of both. Dictionaries, which are of two types, have the same number of nulls and nothing
else. -/
inductive Answer.SameNulls (t : DataType) : Answer → Answer → Prop
  | appended (result : Except Failure Unit) : SameNulls t (.appended result) (.appended result)
  | flushed (keys : Option (Cells DataType.int32.layout)) :
    SameNulls t (.flushed (.ok keys)) (.flushed (.ok keys))
  | flushedFinal (counts : Option (Cells DataType.int64.layout)) :
    SameNulls t (.flushedFinal counts) (.flushedFinal counts)
  | dictionary {nulls : Cells DataType.null.layout} {entries : Cells t.layout} (n : ℕ)
    (hnulls : nulls.toList = List.replicate n none)
    (hentries : entries.toList = List.replicate n none) :
    SameNulls t (.dictionary (.ok ⟨.null, nulls⟩)) (.dictionary (.ok ⟨t, entries⟩))
  | reset : SameNulls t .reset .reset

namespace Kernel

/-- The flag of the one says what the table of the other holds, and both have collected the same. -/
inductive Alike : Kernel op .null → Kernel op t → Prop
  | intro (seen : Bool) (tally : Tally op) {other : Kernel op t}
    (h : other.Holds (nullLedger _ seen tally)) : Alike (.nulls seen tally) other

theorem nullLedger_empty (α : Type) : nullLedger α false (.empty op) = .empty op α := by
  simp [nullLedger, Ledger.empty]

theorem Begun.alike [Memory] {kernel : Kernel op .null} {other : Kernel op t} (h : kernel.Begun)
    (hother : other.Begun) : Alike kernel other := by
  have hempty : other.Holds (nullLedger _ false (.empty op)) := by
    rw [nullLedger_empty]
    exact hother.holds
  cases h with
  | made h =>
    obtain rfl := Except.ok.inj h
    exact .intro false (.empty op) hempty
  | reset kernel =>
    cases kernel with
    | nulls seen tally => exact .intro false (.empty op) hempty
    | values _ memo _ => exact memo.elim

/-- A list of nulls needs no bytes, and a null shows in blocks of any width. -/
theorem dictionary_nullLedger {kernel : Kernel op t} {seen : Bool} {tally : Tally op}
    (h : kernel.Holds (nullLedger _ seen tally)) :
    ∃ entries, kernel.dictionary = .ok ⟨t, entries⟩ ∧
      entries.toList = List.replicate (if op.memoizesNulls && seen then 1 else 0) none := by
  have hseen : (nullLedger t.Element seen tally).seen =
      List.replicate (if op.memoizesNulls && seen then 1 else 0) none := by
    cases hop : op.memoizesNulls <;> cases seen <;> simp [nullLedger, hop]
  have hfit : t.layout.reach (nullLedger t.Element seen tally).seen ≤
      Layout.largestOffset := by
    rw [hseen, Layout.reach_nulls]
    exact Nat.zero_le _
  obtain ⟨entries, hentries, hlist⟩ := dictionary_shown h hfit
  refine ⟨entries, hentries, hlist.trans ?_⟩
  rw [hseen, Layout.shown]
  split <;> simp

theorem Alike.call [Memory] {kernel : Kernel op .null} {other : Kernel op t} (h : Alike kernel other)
    {c d : Call} (hcall : c.SameNulls t d) :
    Answer.SameNulls t (kernel.call c).1 (other.call d).1 ∧ Alike (kernel.call c).2 (other.call d).2 := by
  obtain ⟨seen, tally, hholds⟩ := h
  cases hcall with
  | append nulls cells hcells =>
    obtain ⟨marked, next, result, happend, hledger⟩ :=
      append_nullLedger (α := t.Element) seen tally nulls
    obtain ⟨hresult, hafter⟩ := append_holds hholds cells
    rw [hcells, hledger] at hresult hafter
    rw [Kernel.call, Kernel.call, happend, hresult]
    exact ⟨.appended result, .intro marked next hafter⟩
  | flush =>
    obtain ⟨hout, hafter⟩ := flush_holds hholds
    have hkeys : (nulls seen tally).flush.1 = .ok tally.pending := tally.flush_fst
    rw [Kernel.call, Kernel.call, hout, hkeys]
    exact ⟨.flushed _, .intro seen _ hafter⟩
  | flushFinal =>
    obtain ⟨hout, hafter⟩ := flushFinal_holds hholds
    rw [Kernel.call, Kernel.call, hout]
    exact ⟨.flushedFinal _, .intro seen _ hafter⟩
  | dictionary =>
    obtain ⟨entries, hentries, hlist⟩ := dictionary_nullLedger hholds
    rw [Kernel.call, Kernel.call, hentries]
    exact ⟨.dictionary _ (Cells.toList_nulls _) hlist, .intro seen tally hholds⟩
  | reset =>
    have hafter : other.reset.Holds (nullLedger _ false (.empty op)) := by
      rw [nullLedger_empty]
      exact reset_holds other
    exact ⟨.reset, .intro false (.empty op) hafter⟩

/-- Given the same nulls, a kernel of nulls and a kernel with a table answer alike at every step: the same
results, the same keys and the same counts, and dictionaries of equally many nulls. -/
theorem answers_sameNulls [Memory] {kernel : Kernel op .null} {other : Kernel op t}
    (hkernel : kernel.Begun) (hother : other.Begun) {calls others : List Call}
    (hcalls : List.Forall₂ (Call.SameNulls t) calls others) :
    List.Forall₂ (Answer.SameNulls t) (trace call kernel calls).1 (trace call other others).1 :=
  (trace_related (fun _ _ _ _ hcall h => h.call hcall) (hkernel.alike hother) hcalls).1

/-- Blocks of width zero, whose table has bytes for nothing. Nulls come under a mask, in a window and not at
all, and again after the counts were taken and after a reset. -/
theorem answers_sameNulls_blocks :
    letI : Memory := .of47Bits
    let width : DataType := .fixedSizeBinary 0
    let value : width.Element := ⟨[], rfl⟩
    let hidden : Cells width.layout := .masked #[some value, none] #[false, true]
    let window : Cells width.layout := (Cells.ofList [some value, none, none, none]).slice 1 3
    let calls : List Call :=
      [.append ⟨.null, .nulls _ 2⟩, .flushFinal, .append ⟨.null, .nulls _ 0⟩, .dictionary,
        .append ⟨.null, .nulls _ 3⟩, .flushFinal, .reset, .flush, .dictionary]
    let others : List Call :=
      [.append ⟨width, hidden⟩, .flushFinal, .append ⟨width, .ofList []⟩, .dictionary,
        .append ⟨width, window⟩, .flushFinal, .reset, .flush, .dictionary]
    ∃ (kernel : Kernel .valueCounts .null) (other : Kernel .valueCounts width),
      kernel.Begun ∧ other.Begun ∧ List.Forall₂ (Call.SameNulls width) calls others ∧
      List.Forall₂ (Answer.SameNulls width) (trace call kernel calls).1 (trace call other others).1 ∧
      (trace call kernel calls).1[5]? =
        some (.flushedFinal (some (SlotCounts.toCells #[3]))) := by
  intro width value hidden window calls others
  let memory : Memory := .of47Bits
  let kernel : Kernel .valueCounts .null := .nulls false #[]
  have hcreate : create .valueCounts .null 4 = .ok kernel := rfl
  have hother : create .valueCounts width 4 = .ok (.values rfl (Memo.empty width.layout _ _) _) :=
    create_eq_ok .valueCounts rfl (by decide) rfl
  have hcalls : List.Forall₂ (Call.SameNulls width) calls others := by
    apply List.Forall₂.cons (.append _ hidden rfl)
    apply List.Forall₂.cons .flushFinal
    apply List.Forall₂.cons (.append _ (.ofList []) rfl)
    apply List.Forall₂.cons .dictionary
    apply List.Forall₂.cons (.append _ window rfl)
    apply List.Forall₂.cons .flushFinal
    apply List.Forall₂.cons .reset
    apply List.Forall₂.cons .flush
    exact .cons .dictionary .nil
  exact ⟨kernel, _, .made hcreate, .made hother, hcalls,
    answers_sameNulls (.made hcreate) (.made hother) hcalls, rfl⟩

end Kernel

end Columnar
