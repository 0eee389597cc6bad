import Columnar.Proofs.Kernel.Shared
import Columnar.Proofs.Memo.Requests

namespace Columnar

variable [Memory] {op : Operation} {t : DataType}

namespace Kernel

/-- A kernel that was just made, with any hash for its table and any room. -/
inductive New : {t : DataType} → Kernel op t → Prop
  | nulls : New (.nulls false (.empty op))
  | values {t : DataType} {family : MemoFamily} {hash : t.layout.Key → UInt64} {capacity : ℕ}
    {memo : Memo t.layout} (hfamily : family? t = some family)
    (hmemo : Memo.create family t hash capacity = .ok memo) :
    New (.values (Option.isSome_of_mem hfamily) memo (.empty op))

theorem New.of_create {capacity : ℕ} {kernel : Kernel op t}
    (h : create op t capacity = .ok kernel) : kernel.New := by
  obtain rfl | ⟨⟨family, hfamily⟩, hlayout, hroom⟩ := create_ok_iff.mp ⟨kernel, h⟩
  · obtain rfl := Except.ok.inj h
    exact .nulls
  · rw [create_eq_ok op hfamily hlayout hroom] at h
    obtain rfl := Except.ok.inj h
    have hmemo := Memo.create_eq_ok (Memo.defaultHash t.layout) hlayout
      (accepts_of_family? hfamily hlayout) hroom
    exact .values hfamily hmemo

theorem New.holds {t : DataType} {kernel : Kernel op t} (h : kernel.New) :
    kernel.Holds (.empty op _) := by
  cases h with
  | nulls => exact ⟨by simp [Ledger.empty], rfl⟩
  | values hfamily hmemo => exact ⟨(Memo.holds_of_create hmemo).1, rfl⟩

theorem Holds.call_unique {kernel other : Kernel op t} {ledger : Ledger op t.Element}
    (h : kernel.Holds ledger) (hother : other.Holds ledger) (c : Call) :
    (kernel.call c).1 = (other.call c).1 := by
  cases c with
  | append column =>
    have hresult := (appendColumn_holds h column).1.trans (appendColumn_holds hother column).1.symm
    exact congrArg Answer.appended hresult
  | flush => exact congrArg Answer.flushed ((flush_holds h).1.trans (flush_holds hother).1.symm)
  | flushFinal =>
    have hcounts := (flushFinal_holds h).1.trans (flushFinal_holds hother).1.symm
    exact congrArg Answer.flushedFinal hcounts
  | dictionary => exact congrArg Answer.dictionary (h.dictionary_unique hother rfl)
  | reset => rfl

end Kernel

namespace SharedKernel

theorem call_unique {shared other : SharedKernel op t} {ledger : Ledger op t.Element}
    (h : shared.inner.Holds ledger) (hother : other.inner.Holds ledger) (c : SharedCall) :
    (shared.call c).1 = (other.call c).1 := by
  cases c with
  | append column =>
    have hresult := (append_holds h column).1.trans (append_holds hother column).1.symm
    exact congrArg SharedAnswer.appended hresult
  | flushFinal =>
    have hcounts := (Kernel.flushFinal_holds h).1.trans (Kernel.flushFinal_holds hother).1.symm
    exact congrArg SharedAnswer.flushedFinal hcounts
  | dictionary => exact congrArg SharedAnswer.dictionary (h.dictionary_unique hother rfl)
  | reset => rfl

end SharedKernel

namespace Kernel

section Runs

variable {kernel other : Kernel op t} {ledger : Ledger op t.Element}
  (h : kernel.Holds ledger) (hother : other.Holds ledger)

include h hother

theorem Holds.trace_unique (calls : List Call) :
    (trace call kernel calls).1 = (trace call other calls).1 := by
  refine (trace_agrees
    (R := fun kernel other : Kernel op t => ∃ ledger, kernel.Holds ledger ∧ other.Holds ledger)
    (fun kernel other c _ hboth => ?_) ⟨ledger, h, hother⟩ calls fun _ _ => trivial).1
  obtain ⟨ledger, h, hother⟩ := hboth
  exact ⟨h.call_unique hother c, ledger.next c, call_holds h c, call_holds hother c⟩

theorem Holds.trace_shared_unique (calls : List SharedCall) :
    (trace SharedKernel.call ⟨kernel⟩ calls).1 = (trace SharedKernel.call ⟨other⟩ calls).1 := by
  refine (trace_agrees
    (R := fun shared other : SharedKernel op t =>
      ∃ ledger, shared.inner.Holds ledger ∧ other.inner.Holds ledger)
    (fun shared other c _ hboth => ?_) (s := ⟨kernel⟩) (u := ⟨other⟩) ⟨ledger, h, hother⟩ calls
    fun _ _ => trivial).1
  obtain ⟨ledger, h, hother⟩ := hboth
  exact ⟨SharedKernel.call_unique h hother c, ledger.nextShared c,
    SharedKernel.call_holds h c, SharedKernel.call_holds hother c⟩

end Runs

/-- After a reset every run of calls has the answers it has from a kernel that was just made, whatever
state the reset found the kernel in, and shared or not. -/
theorem reset_answers (kernel : Kernel op t) {fresh : Kernel op t} (hfresh : fresh.New) :
    (∀ calls : List Call,
      (trace call kernel.reset calls).1 = (trace call fresh calls).1) ∧
    ∀ calls : List SharedCall,
      (trace SharedKernel.call (SharedKernel.mk kernel).reset calls).1 =
        (trace SharedKernel.call ⟨fresh⟩ calls).1 :=
  ⟨(reset_holds kernel).trace_unique hfresh.holds,
    (reset_holds kernel).trace_shared_unique hfresh.holds⟩

omit [Memory] in
/-- The reset finds counts that were taken and an append that stopped in the middle. After it the last
value seen has the first slot. -/
theorem reset_answers_booleans :
    letI : Memory := .of47Bits
    let used : List Call :=
      [.append ⟨.boolean, .ofList [some true, none, some false]⟩, .flushFinal,
        .append ⟨.boolean, .ofList [some true, some false]⟩]
    let calls : List Call :=
      [.append ⟨.boolean, .ofList [some false, none, some false]⟩, .dictionary, .flushFinal]
    ∃ fresh : Kernel .valueCounts .boolean, fresh.New ∧
      (trace call fresh used).1 = [.appended (.ok ()),
        .flushedFinal (some (SlotCounts.toCells #[1, 1, 1])),
        .appended (.error (.internal (.countSlotGap 2 1)))] ∧
      let kernel := (trace call fresh used).2
      (trace call kernel.reset calls).1 = [.appended (.ok ()),
        .dictionary (.ok ⟨.boolean, .ofList [some false, none]⟩),
        .flushedFinal (some (SlotCounts.toCells #[2, 1]))] := by
  intro used calls
  let memory : Memory := .of47Bits
  let fresh : Kernel .valueCounts .boolean := .values rfl Memo.BooleanTable.empty #[]
  have hcreate : create .valueCounts .boolean 4 = .ok fresh := rfl
  have hfresh : fresh.New := .of_create hcreate
  obtain ⟨hanswers, -⟩ := reset_answers (trace call fresh used).2 hfresh
  exact ⟨fresh, hfresh, rfl, (hanswers calls).trans rfl⟩

end Kernel

end Columnar
