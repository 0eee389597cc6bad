import Columnar.Proofs.Kernel.Calls
import Columnar.Proofs.Kernel.Counting

namespace Columnar

variable {t : DataType}

namespace Ledger

theorem append_eq_visitAll [Memory] {α : Type} [DecidableEq α] (ledger : Ledger .valueCounts α)
    (xs : List (Option α)) : ledger.append xs = ledger.visitAll xs :=
  rfl

theorem Counts.next [Memory] {ledger : Ledger .valueCounts t.Element} (h : ledger.Counts)
    (call : Call) :
    (ledger.next call).Counts := by
  cases call with
  | append column =>
    rw [Ledger.next]
    rcases ledger.appendColumn_eq column with hother | happend
    · rw [hother]
      exact h
    · rw [happend, append_eq_visitAll]
      exact h.visitAll _
  | flush | dictionary => exact h
  | flushFinal =>
    obtain ⟨seen, counted, hcounting, rfl⟩ := h
    exact ⟨seen, [], ⟨hcounting.nodup, hcounting.slots, List.nil_prefix⟩, rfl⟩
  | reset => exact ⟨[], [], Counting.nil, rfl⟩

end Ledger

namespace Kernel

structure Shows (kernel : Kernel .valueCounts t) (seen : List (Option t.Element))
    (counts : SlotCounts) : Prop where
  holds : kernel.Holds ⟨seen, counts⟩
  dictionary : t.layout.reach seen ≤ Layout.largestOffset →
    ∃ cells, kernel.dictionary = .ok ⟨t, cells⟩ ∧ cells.toList = seen
  refused : Layout.largestOffset < t.layout.reach seen → kernel.dictionary =
    .error (.capacity (.offsets t.layout.offsetType (t.layout.reach seen)))
  counts : kernel.flushFinal.1 = some counts.toCells

theorem Holds.shows {kernel : Kernel .valueCounts t} {ledger : Ledger .valueCounts t.Element}
    (h : kernel.Holds ledger) (ht : t ≠ .fixedSizeBinary 0) :
    kernel.Shows ledger.seen ledger.tally where
  holds := h
  dictionary := dictionary_ok h (DataType.layout_ne_block_zero ht)
  refused := dictionary_refused h
  counts := (flushFinal_holds h).1

variable {kernel : Kernel .valueCounts t}

theorem counts_of_calls [Memory] (hkernel : kernel.Begun) (calls : List Call) :
    ∃ ledger : Ledger .valueCounts t.Element, ledger.Counts ∧
      (trace call kernel calls).2.Holds ledger := by
  refine trace_keeps (P := fun kernel : Kernel .valueCounts t =>
    ∃ ledger : Ledger .valueCounts t.Element, ledger.Counts ∧ kernel.Holds ledger)
    (fun kernel c h => ?_) ?_ calls
  · obtain ⟨ledger, hcounts, hholds⟩ := h
    exact ⟨ledger.next c, hcounts.next c, call_holds hholds c⟩
  · exact ⟨_, ⟨[], [], Ledger.Counting.nil, rfl⟩, hkernel.holds⟩

/-- An append to a kernel in any state it can get into. It is accepted if and only if every slot has its
turn, and each position then adds one to the count of its slot. Otherwise the first slot out of turn is
already an entry of the dictionary, but neither it nor what comes after it is counted; a slot beyond the
largest is not even that. -/
theorem append_ok_iff_inTurn [Memory] (hkernel : kernel.Begun) (ht : t ≠ .fixedSizeBinary 0)
    (calls : List Call) :
    let now := (trace call kernel calls).2
    ∃ seen counts, now.Shows seen counts ∧ seen.Nodup ∧ counts.size ≤ seen.length ∧
      ∀ a : Cells t.layout,
        let slots := Ledger.slotsIn seen a.toList
        let appended := now.append ⟨t, a⟩
        (appended.2 = .ok () ↔ ∀ p, SlotCounts.InTurn counts.size slots p) ∧
        (appended.2 = .ok () →
          appended.1.Shows (seen ++ a.toList).eraseDups (counts.plus slots)) ∧
        ∀ p slot, slots[p]? = some slot → (∀ q < p, SlotCounts.InTurn counts.size slots q) →
          let count := SlotCounts.tracked counts.size (slots.take p)
          (slot ≤ Memo.largestSlot → count < slot →
            appended.2 = .error (.internal (.countSlotGap slot count)) ∧
            appended.1.Shows (seen ++ a.toList.take (p + 1)).eraseDups
              (counts.plus (slots.take p))) ∧
          (Memo.largestSlot < slot →
            appended.2 = .error (.capacity .distinctValues) ∧
            appended.1.Shows (seen ++ a.toList.take p).eraseDups (counts.plus (slots.take p))) := by
  intro now
  obtain ⟨_, ⟨seen, counted, hcounting, rfl⟩, hholds⟩ := counts_of_calls hkernel calls
  have hsize := Ledger.size_counting seen counted
  refine ⟨seen, _, hholds.shows ht, hcounting.nodup, hsize ▸ hcounting.front.length_le, fun a => ?_⟩
  intro slots appended
  obtain ⟨hresult, hafter⟩ := append_holds hholds a
  rw [Ledger.append_eq_visitAll] at hresult hafter
  have hiff : appended.2 = .ok () ↔ ∀ p, SlotCounts.InTurn counted.eraseDups.length slots p := by
    rw [hresult]
    exact Ledger.visitAll_ok_iff hcounting a.toList
  rw [hsize]
  refine ⟨hiff, fun hok => ?_, fun p slot hslot hbefore => ?_⟩
  · have hturn : ∀ p < a.toList.length,
        SlotCounts.InTurn counted.eraseDups.length slots p := fun p _ => hiff.mp hok p
    rw [(Ledger.visitAll_inTurn hcounting a.toList hturn).1,
      Ledger.counting_append_eq hcounting hturn] at hafter
    exact hafter.shows ht
  -- Up to the first slot that has not its turn everything was counted.
  · obtain ⟨hgap, hfull⟩ := Ledger.visitAll_stops hcounting hslot hbefore
    have hcounts := Ledger.counting_append_eq hcounting (Ledger.inTurn_take hbefore)
    rw [← Ledger.take_slotsIn] at hcounts
    refine ⟨fun hsmall hlate => ?_, fun hlarge => ?_⟩
    · rw [hgap hsmall hlate] at hresult hafter
      rw [hcounts] at hafter
      exact ⟨hresult, hafter.shows ht⟩
    · rw [hfull hlarge] at hresult hafter
      rw [hcounts] at hafter
      exact ⟨hresult, hafter.shows ht⟩

/-- The counts of three entries were taken. The last of them has its turn only after the second. -/
theorem append_ok_iff_inTurn_booleans :
    letI : Memory := .of47Bits
    let calls : List Call :=
      [.append ⟨.boolean, .ofList [some true, none, some false]⟩, .flushFinal]
    ∃ kernel : Kernel .valueCounts .boolean, kernel.Begun ∧
      DataType.boolean ≠ .fixedSizeBinary 0 ∧
      let now := (trace call kernel calls).2
      let accepted := now.append ⟨.boolean, .ofList [some true, none, some true]⟩
      let stopped := now.append ⟨.boolean, .ofList [some true, some false, none]⟩
      accepted.2 = .ok () ∧ accepted.1.Shows [some true, none, some false] #[2, 1] ∧
        stopped.2 = .error (.internal (.countSlotGap 2 1)) ∧
        stopped.1.Shows [some true, none, some false] #[1] := by
  intro calls
  let memory : Memory := .of47Bits
  let kernel : Kernel .valueCounts .boolean := .values rfl Memo.BooleanTable.empty #[]
  have hcreate : create .valueCounts .boolean 4 = .ok kernel := rfl
  have hkernel : kernel.Begun := .made hcreate
  have htype : DataType.boolean ≠ .fixedSizeBinary 0 := by decide
  obtain ⟨seen, counts, hshows, -, -, happend⟩ := append_ok_iff_inTurn hkernel htype calls
  obtain rfl : seen = [some true, none, some false] :=
    (toList_dictionary hshows.holds (by decide) rfl).symm
  obtain rfl : counts = #[] := by
    have hcells := Option.some.inj hshows.counts
    rw [← Array.size_eq_zero_iff, ← SlotCounts.length_toCells, ← hcells]
    rfl
  refine ⟨kernel, hkernel, htype, ?_⟩
  intro now accepted stopped
  have hturns : ∀ p, SlotCounts.InTurn 0 [0, 1, 0] p := by
    intro p slot hslot
    match p with
    | 0 | 1 | 2 => obtain rfl := Option.some.inj hslot; decide
    | _ + 3 => cases hslot
  obtain ⟨hok, hcounted, -⟩ := happend (.ofList [some true, none, some true])
  obtain ⟨-, -, hstops⟩ := happend (.ofList [some true, some false, none])
  obtain ⟨hgap, hafter⟩ := (hstops 1 2 rfl (by
    intro q hq slot hslot
    obtain rfl : q = 0 := by omega
    obtain rfl := Option.some.inj hslot
    decide)).1 (by decide) (by decide)
  exact ⟨hok.mpr hturns, hcounted (hok.mpr hturns), hgap, hafter⟩

end Kernel

/-- What was appended to a kernel that counts: the elements whose counts were taken, and those since. -/
structure Counted (t : DataType) where
  taken : List (Option t.Element)
  since : List (Option t.Element)

namespace Counted

def empty : Counted t := ⟨[], []⟩

def all (counted : Counted t) : List (Option t.Element) := counted.taken ++ counted.since

def note (counted : Counted t) : Call → Answer → Counted t
  | .append column, .appended (.ok ()) =>
    ⟨counted.taken, counted.since ++ column.elements t⟩
  | .flushFinal, _ => ⟨counted.all, []⟩
  | .reset, _ => empty
  | .append _, _ | .flush, _ | .dictionary, _ => counted

def ledger (counted : Counted t) : Ledger .valueCounts t.Element :=
  .counting counted.all.eraseDups counted.since

abbrev InFront (counted : Counted t) : Prop :=
  Ledger.Counting counted.all.eraseDups counted.since

theorem InFront.flushFinal {counted : Counted t} (h : counted.InFront) (answer : Answer) :
    let next := counted.note .flushFinal answer
    counted.ledger.flushFinal.2 = next.ledger ∧ next.InFront := by
  have hall : (counted.note .flushFinal answer).all = counted.all := List.append_nil _
  intro next
  refine ⟨?_, ?_⟩
  · rw [ledger, ledger, hall]
    rfl
  · rw [InFront, hall]
    exact ⟨h.nodup, h.slots, List.nil_prefix⟩

theorem InFront.append [Memory] {counted : Counted t} (h : counted.InFront) {column : Column}
    (hok : (counted.ledger.appendColumn column).2 = .ok ()) :
    let next := counted.note (.append column) (.appended (.ok ()))
    (counted.ledger.appendColumn column).1 = next.ledger ∧ next.InFront := by
  intro next
  rcases counted.ledger.appendColumn_eq column with hother | happend
  · rw [hother] at hok
    cases hok
  · rw [happend, Ledger.append_eq_visitAll] at hok ⊢
    have hturn := (Ledger.visitAll_ok_iff h (column.elements t)).mp hok
    obtain ⟨hvisit, hcounting, -⟩ :=
      Ledger.visitAll_inTurn h (column.elements t) fun p _ => hturn p
    have hall : (counted.all.eraseDups ++ column.elements t).eraseDups = next.all.eraseDups := by
      rw [Ledger.eraseDups_eraseDups_append, all, List.append_assoc]
      rfl
    rw [hall] at hvisit hcounting
    exact ⟨congrArg Prod.fst hvisit, hcounting⟩

end Counted

namespace Kernel

variable {kernel : Kernel .valueCounts t}

/-- A call that does not fail takes kernel and notes to the same ledger. -/
theorem call_counted [Memory] {counted : Counted t} (hholds : kernel.Holds counted.ledger)
    (hfront : counted.InFront) (c : Call) (hc : ∀ e, (kernel.call c).1 ≠ .appended (.error e)) :
    let next := counted.note c (kernel.call c).1
    (kernel.call c).2.Holds next.ledger ∧ next.InFront := by
  cases c with
  | append column =>
    obtain ⟨hresult, hafter⟩ := appendColumn_holds hholds column
    rw [call] at hc ⊢
    cases happend : (kernel.append column).2 with
    | error e => exact absurd (congrArg Answer.appended happend) (hc e)
    | ok _ =>
      rw [happend] at hresult
      obtain ⟨hnext, hnextFront⟩ := hfront.append hresult.symm
      exact ⟨hnext ▸ hafter, hnextFront⟩
  | flush => exact ⟨(flush_holds hholds).2, hfront⟩
  | flushFinal =>
    obtain ⟨hnext, hnextFront⟩ := hfront.flushFinal (.flushedFinal kernel.flushFinal.1)
    exact ⟨hnext ▸ (flushFinal_holds hholds).2, hnextFront⟩
  | dictionary => exact ⟨hholds, hfront⟩
  | reset => exact ⟨reset_holds kernel, Ledger.Counting.nil⟩

/-- The counts that are handed out are those of the elements appended since counts were last handed out,
and belong to the first entries of the dictionary. They cover all that was appended since the kernel was made
or reset if and only if nothing was appended before. -/
theorem flushFinal_since_taken [Memory] (hkernel : kernel.Begun) (ht : t ≠ .fixedSizeBinary 0)
    (calls : List Call) (haccepted : ∀ e, .appended (.error e) ∉ (trace call kernel calls).1) :
    let now := (trace call kernel calls).2
    let counted := noted Counted.note .empty calls (trace call kernel calls).1
    ∃ counts : SlotCounts, now.Shows counted.all.eraseDups counts ∧
      counted.since.eraseDups <+: counted.all.eraseDups ∧
      counts.toList = counted.since.eraseDups.map (counted.since.count ·) ∧
      (counts.toList = counted.all.eraseDups.map (counted.all.count ·) ↔ counted.taken = []) := by
  intro now counted
  obtain ⟨hholds, hfront⟩ : now.Holds counted.ledger ∧ counted.InFront := by
    refine trace_noted (R := fun (kernel : Kernel .valueCounts t) (counted : Counted t) =>
        kernel.Holds counted.ledger ∧ counted.InFront)
      (A := fun (_ : Call) (answer : Answer) => ∀ e, answer ≠ .appended (.error e))
      (fun kernel counted c hc h => call_counted h.1 h.2 c hc)
      (b := .empty) ⟨hkernel.holds, Ledger.Counting.nil⟩ calls fun p hp e heq => ?_
    exact haccepted e (heq ▸ (List.of_mem_zip hp).2)
  refine ⟨_, hholds.shows ht, hfront.front, rfl, fun heq => ?_, fun htaken => ?_⟩
  · -- As many positions are counted as there were appended.
    have hsum : counted.since.length = counted.all.length := by
      rw [← Ledger.sum_count_eraseDups counted.since, ← Ledger.sum_count_eraseDups counted.all]
      exact congrArg List.sum heq
    rw [Counted.all, List.length_append] at hsum
    exact List.length_eq_zero_iff.mp (by omega)
  · simp [Counted.ledger, Ledger.counting, Counted.all, htaken]

/-- A null is counted before the counts are taken, and not again. -/
theorem flushFinal_since_taken_booleans :
    letI : Memory := .of47Bits
    let calls : List Call :=
      [.append ⟨.boolean, .ofList [some true, none, some true]⟩, .flushFinal, .dictionary,
        .append ⟨.boolean, .ofList [some true]⟩]
    ∃ kernel : Kernel .valueCounts .boolean, kernel.Begun ∧
      DataType.boolean ≠ .fixedSizeBinary 0 ∧
      (∀ e, .appended (.error e) ∉ (trace call kernel calls).1) ∧
      ∃ counts : SlotCounts, (trace call kernel calls).2.Shows [some true, none] counts ∧
        counts.toList = [1] := by
  intro calls
  let memory : Memory := .of47Bits
  let kernel : Kernel .valueCounts .boolean := .values rfl Memo.BooleanTable.empty #[]
  have hcreate : create .valueCounts .boolean 4 = .ok kernel := rfl
  have hkernel : kernel.Begun := .made hcreate
  have htype : DataType.boolean ≠ .fixedSizeBinary 0 := by decide
  have haccepted : ∀ e, .appended (.error e) ∉ (trace call kernel calls).1 := by
    intro e he
    have hanswers : (trace call kernel calls).1 =
        [.appended (.ok ()), .flushedFinal (some (SlotCounts.toCells #[2, 1])),
          .dictionary (.ok ⟨.boolean, .ofList [some true, none]⟩), .appended (.ok ())] := rfl
    rw [hanswers] at he
    simp at he
  obtain ⟨counts, hshows, -, hcounts, -⟩ := flushFinal_since_taken hkernel htype calls haccepted
  exact ⟨kernel, hkernel, htype, haccepted, counts, hshows, hcounts⟩

/-- Counts that were taken are missing from the counts handed out next. -/
theorem exists_flushFinal_not_all :
    letI : Memory := .of47Bits
    ¬∀ (t : DataType) (kernel : Kernel .valueCounts t) (calls : List Call),
      kernel.Begun → .reset ∉ calls →
      (∀ e, .appended (.error e) ∉ (trace call kernel calls).1) →
      ∀ counts entries, (trace call kernel calls).2.flushFinal.1 = some counts →
        (trace call kernel calls).2.dictionary = .ok ⟨t, entries⟩ →
        counts.length = entries.length ∧
        counts.toList = entries.toList.map fun x => some (BitVec.ofNat 64
          ((noted Counted.note .empty calls (trace call kernel calls).1).all.count x)) := by
  intro hall
  let memory : Memory := .of47Bits
  let kernel : Kernel .valueCounts .boolean := .values rfl Memo.BooleanTable.empty #[]
  let calls : List Call := [.append ⟨.boolean, .ofList [some true, none]⟩, .flushFinal]
  have haccepted : ∀ e, .appended (.error e) ∉ (trace call kernel calls).1 := by
    intro e he
    have hanswers : (trace call kernel calls).1 =
        [.appended (.ok ()), .flushedFinal (some (SlotCounts.toCells #[1, 1]))] := rfl
    rw [hanswers] at he
    simp at he
  have hcreate : create .valueCounts .boolean 4 = .ok kernel := rfl
  have hlength := (hall .boolean kernel calls (.made hcreate) (by simp [calls]) haccepted _ _ rfl
    rfl).1
  exact absurd hlength (by decide)

end Kernel

end Columnar
