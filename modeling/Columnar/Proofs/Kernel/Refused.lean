import Columnar.Proofs.Kernel.Concat
import Columnar.Proofs.Kernel.Shared

namespace Columnar

variable {op : Operation} {t : DataType}

/-- The failures of an append that has not begun its pass. -/
def Failure.precedesPass : Failure → Bool
  | .invalidInput (.chunkType _ _) => true
  | .capacity .allocationOverflow | .capacity .allocationRefused => true
  | _ => false

def Answer.refused : Answer → Bool
  | .appended (.error e) => e.precedesPass
  | _ => false

def SharedAnswer.refused : SharedAnswer → Bool
  | .appended (.error e) => e.precedesPass
  | _ => false

theorem Capacity.precedesPass_of_reserveItems [Memory] {size count : ℕ} {e : Failure}
    (h : reserveItems size count = .error e) : e.precedesPass := by
  unfold reserveItems at h
  split_ifs at h <;> obtain rfl := Except.error.inj h <;> rfl

theorem SlotCounts.exists_internal_of_bump {counts : SlotCounts} {slot : ℤ} {e : Failure}
    (h : counts.bump slot = .error e) : ∃ cause, e = .internal cause := by
  unfold bump at h
  split at h
  · exact ⟨_, (Except.error.inj h).symm⟩
  · split_ifs at h
    exact ⟨_, (Except.error.inj h).symm⟩

namespace Tally

theorem precedesPass_of_reserve [Memory] {tally : Tally op} {n : ℕ} {e : Failure}
    (h : tally.reserve n = .error e) : e.precedesPass := by
  cases op with
  | unique | valueCounts => cases h
  | dictionaryEncode => exact Capacity.precedesPass_of_reserveItems h

/-- What a tally does not take is a contradiction between the parts of the program. -/
theorem exists_internal_of_observe {tally : Tally op} {seen : Observation} {e : Failure}
    (h : tally.observe seen = .error e) : ∃ cause, e = .internal cause := by
  cases op with
  | unique => cases h
  | dictionaryEncode => cases seen <;> cases h
  | valueCounts =>
    rcases seen with slot | slot | (_ | slot) | (_ | slot)
    case nullFound.none | nullInserted.none => exact ⟨_, (Except.error.inj h).symm⟩
    all_goals exact SlotCounts.exists_internal_of_bump h

end Tally

namespace Ledger

variable {α : Type}

theorem not_precedesPass_of_observe {ledger : Ledger op α} {seen : Observation} {e : Failure}
    (h : (ledger.observe seen).2 = .error e) : ¬e.precedesPass := by
  unfold observe at h
  cases hobserve : ledger.tally.observe seen with
  | error e' =>
    rw [hobserve] at h
    obtain rfl := Except.error.inj h
    obtain ⟨cause, rfl⟩ := Tally.exists_internal_of_observe hobserve
    exact Bool.false_ne_true
  | ok tally =>
    rw [hobserve] at h
    cases h

variable [DecidableEq α]

theorem not_precedesPass_of_visit {ledger : Ledger op α} {x : Option α} {e : Failure}
    (h : (ledger.visit x).2 = .error e) : ¬e.precedesPass := by
  unfold visit at h
  split_ifs at h
  · exact not_precedesPass_of_observe h
  · exact not_precedesPass_of_observe h
  · obtain rfl := Except.error.inj h
    decide

theorem not_precedesPass_of_visitAll {ledger : Ledger op α} {xs : List (Option α)} {e : Failure}
    (h : (ledger.visitAll xs).2 = .error e) : ¬e.precedesPass := by
  induction xs generalizing ledger with
  | nil => cases h
  | cons x xs ih =>
    rw [visitAll] at h
    rcases hx : ledger.visit x with ⟨next, result⟩
    rw [hx] at h
    cases result with
    | ok _ => exact ih h
    | error e' =>
      obtain rfl := Except.error.inj h
      exact not_precedesPass_of_visit (congrArg Prod.snd hx)

end Ledger

namespace Kernel

section Memory

variable [Memory] {kernel : Kernel op t} {ledger : Ledger op t.Element}

/-- Why a kernel takes in nothing of a column. -/
inductive Refuses (kernel : Kernel op t) (column : Column) : Failure → Prop
  | other (h : column.type ≠ t) : Refuses kernel column (.invalidInput (.chunkType t column.type))
  | noRoom {e : Failure} (h : column.type = t) (hroom : kernel.reserve column.length = .error e) :
    Refuses kernel column e

theorem Refuses.unchanged {column : Column} {e : Failure} (h : kernel.Refuses column e) :
    kernel.append column = (kernel, .error e) := by
  cases h with
  | other h => exact append_other (Column.as?_eq_none.mpr h)
  | noRoom h hroom =>
    obtain ⟨_, cells⟩ := column
    obtain rfl := h
    have hlength : kernel.reserve cells.length = .error e := hroom
    rw [append_eq_seeAll, hlength]

theorem Holds.reserve_eq (h : kernel.Holds ledger) (n : ℕ) :
    kernel.reserve n = ledger.tally.reserve n := by
  cases kernel <;> rw [reserve, h.2]

theorem Refuses.precedesPass {column : Column} {e : Failure} (h : kernel.Refuses column e) :
    e.precedesPass := by
  cases h with
  | other => rfl
  | noRoom _ hroom => cases kernel <;> exact Tally.precedesPass_of_reserve hroom

/-- The failure itself tells whether the pass has begun. -/
theorem Holds.refuses_iff (h : kernel.Holds ledger) {column : Column} {e : Failure} :
    (kernel.append column).2 = .error e ∧ e.precedesPass ↔ kernel.Refuses column e := by
  constructor
  · rintro ⟨hfailed, hprecedes⟩
    rcases hcolumn : column.as? t with _ | cells
    · rw [append_other hcolumn] at hfailed
      obtain rfl := Except.error.inj hfailed
      exact .other (Column.as?_eq_none.mp hcolumn)
    · obtain rfl := Column.as?_eq_some.mp hcolumn
      refine .noRoom rfl ?_
      have hroom : kernel.reserve (Column.mk t cells).length = ledger.tally.reserve cells.length :=
        h.reserve_eq cells.length
      -- A pass that has begun fails otherwise, so it was the room that was lacking.
      rw [(append_holds h cells).1, Ledger.append, Cells.length_toList] at hfailed
      rw [hroom]
      cases hreserve : ledger.tally.reserve cells.length with
      | error e' =>
        rw [hreserve] at hfailed
        exact hfailed
      | ok _ =>
        rw [hreserve] at hfailed
        exact absurd hprecedes (Ledger.not_precedesPass_of_visitAll hfailed)
  · intro hrefuses
    exact ⟨congrArg Prod.snd hrefuses.unchanged, hrefuses.precedesPass⟩

theorem Holds.call_refused (h : kernel.Holds ledger) {c : Call} (hc : (kernel.call c).1.refused) :
    (kernel.call c).2 = kernel := by
  cases c with
  | append column =>
    cases hfailed : (kernel.append column).2 with
    | ok _ =>
      rw [call, hfailed] at hc
      cases hc
    | error e =>
      rw [call, hfailed] at hc
      have hrefuses := h.refuses_iff.mp ⟨hfailed, hc⟩
      exact congrArg Prod.fst hrefuses.unchanged
  | _ => cases hc

end Memory

def Flushed (kernel : Kernel op t) : Prop := kernel.flush.2 = kernel

theorem flush_flushed (kernel : Kernel op t) : kernel.flush.2.Flushed := by
  cases kernel <;> cases op <;> rfl

theorem reset_flushed (kernel : Kernel op t) : kernel.reset.Flushed := by
  cases kernel <;> cases op <;> rfl

theorem Flushed.flushFinal {kernel : Kernel op t} (h : kernel.Flushed) : kernel.flushFinal.2.Flushed := by
  cases kernel <;> cases op <;> first | rfl | exact h

theorem Begun.flushed [Memory] {kernel : Kernel op t} (h : kernel.Begun) : kernel.Flushed := by
  cases h with
  | made h =>
    obtain rfl | ⟨⟨family, hfamily⟩, hlayout, hroom⟩ := create_ok_iff.mp ⟨kernel, h⟩
    · obtain rfl := Except.ok.inj h
      cases op <;> rfl
    · rw [create_eq_ok op hfamily hlayout hroom] at h
      obtain rfl := Except.ok.inj h
      cases op <;> rfl
  | reset kernel => exact reset_flushed kernel

end Kernel

namespace SharedKernel

structure Resting (shared : SharedKernel op t) : Prop where
  flushed : shared.inner.Flushed
  holds : ∃ ledger, shared.inner.Holds ledger

variable [Memory] {shared : SharedKernel op t}

theorem Resting.call (h : shared.Resting) (c : SharedCall) : (shared.call c).2.Resting := by
  obtain ⟨ledger, hledger⟩ := h.holds
  refine ⟨?_, ledger.nextShared c, call_holds hledger c⟩
  cases c with
  | append column => exact Kernel.flush_flushed (shared.inner.append column).1
  | flushFinal => exact h.flushed.flushFinal
  | dictionary => exact h.flushed
  | reset => exact Kernel.reset_flushed shared.inner

theorem append_result_eq_error {column : Column} {e : Failure} :
    (shared.append column).2 = .error e ↔ (shared.inner.append column).2 = .error e := by
  rcases happend : shared.inner.append column with ⟨kernel, result⟩
  obtain ⟨keys, hkeys⟩ := kernel.exists_flush
  rw [append, happend]
  cases result <;> simp [hkeys, bind, Except.bind]

/-- Throwing away what is pending throws away nothing. -/
theorem Resting.call_refused (h : shared.Resting) {c : SharedCall}
    (hc : (shared.call c).1.refused) : (shared.call c).2 = shared := by
  obtain ⟨ledger, hledger⟩ := h.holds
  cases c with
  | append column =>
    cases hfailed : (shared.append column).2 with
    | ok out =>
      rw [SharedKernel.call, hfailed] at hc
      cases hc
    | error e =>
      rw [SharedKernel.call, hfailed] at hc
      have hrefuses := hledger.refuses_iff.mp ⟨append_result_eq_error.mp hfailed, hc⟩
      rw [SharedKernel.call, append, hrefuses.unchanged]
      exact congrArg SharedKernel.mk h.flushed
  | _ => cases hc

end SharedKernel

namespace Kernel

/-- Take the calls of any run of a shared kernel, then those of the kernel by itself, and leave out the
appends that were refused before their pass began, which are just the ones that met a column of another type
or found no room for it. All other calls are answered as before. A kernel that was never shared is one that is
shared for no calls. -/
theorem trace_without_refused [Memory] {kernel : Kernel op t} (hkernel : kernel.Begun)
    (calls : List SharedCall) (after : List Call) :
    let shared := trace SharedKernel.call ⟨kernel⟩ calls
    let kept := (calls.zip shared.1).filter fun p => !p.2.refused
    let without := trace SharedKernel.call ⟨kernel⟩ (kept.map Prod.fst)
    let unwrapped := trace call shared.2.inner after
    let keptAfter := (after.zip unwrapped.1).filter fun p => !p.2.refused
    without.1 = kept.map Prod.snd ∧
      (trace call without.2.inner (keptAfter.map Prod.fst)).1 = keptAfter.map Prod.snd ∧
      ∀ column e,
        ((shared.2.append column).2 = .error e ∧ e.precedesPass ↔
          shared.2.inner.Refuses column e) ∧
        ((unwrapped.2.append column).2 = .error e ∧ e.precedesPass ↔
          unwrapped.2.Refuses column e) := by
  intro shared kept without unwrapped keptAfter
  have hfresh : (SharedKernel.mk kernel).Resting := ⟨hkernel.flushed, _, hkernel.holds⟩
  have hwithout : without = (kept.map Prod.snd, shared.2) :=
    trace_without (Q := SharedAnswer.refused) (fun s c h => h.call c) (fun s c h => h.call_refused)
      hfresh calls
  obtain ⟨ledger, hledger⟩ := (trace_keeps (fun s c h => h.call c) hfresh calls).holds
  have hstep : ∀ (kernel : Kernel op t) c, (∃ ledger, kernel.Holds ledger) →
      ∃ ledger, (kernel.call c).2.Holds ledger := by
    rintro kernel c ⟨ledger, h⟩
    exact ⟨ledger.next c, call_holds h c⟩
  have hunwrapped : trace call shared.2.inner (keptAfter.map Prod.fst) =
      (keptAfter.map Prod.snd, unwrapped.2) :=
    trace_without (Q := Answer.refused) hstep (fun s c ⟨_, h⟩ => h.call_refused) ⟨ledger, hledger⟩
      after
  obtain ⟨last, hlast⟩ := trace_keeps hstep ⟨ledger, hledger⟩ after
  rw [hwithout]
  refine ⟨rfl, congrArg Prod.fst hunwrapped, fun column e => ⟨?_, hlast.refuses_iff⟩⟩
  rw [SharedKernel.append_result_eq_error]
  exact hledger.refuses_iff

/-- The keys of one column would not fit in memory, and one is of another type. The key of `false` is pending
when the kernel by itself refuses a column. -/
theorem trace_without_refused_booleans :
    letI : Memory := .of47Bits
    let column (xs : List (Option Bool)) : Column := ⟨.boolean, .ofList xs⟩
    let other : Column := ⟨.int8, .ofList [some 1#8]⟩
    let huge : Column := ⟨.boolean, .nulls _ 0x400000000000⟩
    let calls : List SharedCall := [.append huge, .append (column [some true, none]), .append other]
    let after : List Call := [.append (column [some false]), .append other, .flush]
    ∃ kernel : Kernel .dictionaryEncode .boolean, kernel.Begun ∧
      let shared := trace SharedKernel.call ⟨kernel⟩ calls
      let without := trace SharedKernel.call ⟨kernel⟩ [.append (column [some true, none])]
      let unwrapped := trace call shared.2.inner after
      without.1 = shared.1.tail.dropLast ∧
      (trace call without.2.inner [.append (column [some false]), .flush]).1 =
        unwrapped.1.eraseIdx 1 := by
  intro column other huge calls after
  let memory : Memory := .of47Bits
  let kernel : Kernel .dictionaryEncode .boolean :=
    .values rfl Memo.BooleanTable.empty PendingKeys.empty
  have hcreate : create .dictionaryEncode .boolean 4 = .ok kernel := rfl
  obtain ⟨hshared, hunwrapped, -⟩ := trace_without_refused (.made hcreate) calls after
  exact ⟨kernel, .made hcreate, hshared, hunwrapped⟩

end Kernel

end Columnar
