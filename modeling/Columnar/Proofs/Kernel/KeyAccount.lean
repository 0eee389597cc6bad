import Columnar.Proofs.Kernel.Calls
import Columnar.Proofs.Kernel.Keys

namespace Columnar

theorem Capacity.reserveItems_ne_distinctValues [Memory] (size count : ℕ) :
    reserveItems size count ≠ .error (.capacity .distinctValues) := by
  unfold reserveItems
  split_ifs <;> simp

namespace Ledger

variable {op : Operation} {α : Type} [DecidableEq α] {history pending : List (Option α)}

/-- There are slots for all that is recorded of the elements. -/
def Roomy (op : Operation) (history : List (Option α)) : Prop :=
  (op.recorded history).eraseDups.length ≤ Memo.largestSlot + 1

instance (op : Operation) (history : List (Option α)) : Decidable (Roomy op history) :=
  inferInstanceAs (Decidable (_ ≤ _))

theorem Roomy.of_append {xs : List (Option α)} (h : Roomy op (history ++ xs)) : Roomy op history :=
  (length_recorded_eraseDups_le op history xs).trans h

theorem Roomy.congr {xs : List (Option α)} (h : List.Perm xs history) :
    Roomy op xs ↔ Roomy op history := by
  have hperm := eraseDups_perm fun x => (h.filter fun x => op.memoizesNulls || x.isSome).mem_iff
  unfold Roomy Operation.recorded
  rw [hperm.length_eq]

/-- The beginning of `xs` that a pass takes in. It stops at the first element that has no slot left. -/
def intake (op : Operation) (history : List (Option α)) : List (Option α) → List (Option α)
  | [] => []
  | x :: xs => if Roomy op (history ++ [x]) then x :: intake op (history ++ [x]) xs else []

theorem roomy_intake (h : Roomy op history) (xs : List (Option α)) :
    Roomy op (history ++ intake op history xs) := by
  induction xs generalizing history with
  | nil => simpa [intake] using h
  | cons x xs ih =>
    rw [intake]
    split
    · next hx => simpa using ih hx
    · simpa using h

theorem intake_eq_self_iff (h : Roomy op history) (xs : List (Option α)) :
    intake op history xs = xs ↔ Roomy op (history ++ xs) := by
  induction xs generalizing history with
  | nil => simpa [intake] using h
  | cons x xs ih =>
    rw [intake, List.append_cons history x xs]
    split
    · next hx => rw [List.cons.injEq, eq_self, true_and, ih hx]
    · next hx => simpa using fun hall : Roomy op (history ++ [x] ++ xs) => hx hall.of_append

theorem visit_refused (h : Roomy op history) {x : Option α} (hx : ¬Roomy op (history ++ [x])) :
    (after op history pending).visit x =
      (after op history pending, .error (.capacity .distinctValues)) := by
  have hrecorded : ¬(x = none ∧ ¬op.memoizesNulls) := by
    rintro ⟨rfl, hop⟩
    apply hx
    simpa [Roomy, Operation.recorded, hop] using h
  rw [Roomy, op.recorded_concat history hrecorded, eraseDups_concat] at hx
  have hnew : x ∉ (op.recorded history).eraseDups := by
    intro hmem
    rw [enter, if_pos hmem] at hx
    exact hx h
  have hfull : ¬(op.recorded history).eraseDups.length ≤ Memo.largestSlot := by
    rw [length_enter_of_not_mem hnew] at hx
    omega
  rw [visit, if_neg hrecorded]
  exact if_neg (not_or.mpr ⟨hnew, hfull⟩)

theorem visitAll_intake (h : Roomy op history) (hpending : pending ⊆ history)
    (xs : List (Option α)) :
    (after op history pending).visitAll xs =
      (after op (history ++ intake op history xs) (pending ++ intake op history xs),
        if Roomy op (history ++ xs) then .ok () else .error (.capacity .distinctValues)) := by
  induction xs generalizing history pending with
  | nil => simp [visitAll, intake, h]
  | cons x xs ih =>
    rw [visitAll, intake, List.append_cons history x xs]
    by_cases hx : Roomy op (history ++ [x])
    · have hgrown : pending ++ [x] ⊆ history ++ [x] :=
        List.append_subset.mpr ⟨List.subset_append_of_subset_left _ hpending,
          List.subset_append_right _ _⟩
      rw [visit_after hpending x hx, if_pos hx]
      simpa using ih hx hgrown
    · rw [visit_refused h hx, if_neg hx, if_neg fun hall => hx hall.of_append]
      simp

end Ledger

variable {t : DataType}

/-- What a kernel that encodes took in: the elements whose keys were handed out, those keys, and the
elements whose keys are pending. -/
structure KeyAccount (t : DataType) where
  handed : List (Option t.Element)
  keys : List (Option DataType.int32.Element)
  pending : List (Option t.Element)

namespace KeyAccount

def empty : KeyAccount t := ⟨[], [], []⟩

def all (account : KeyAccount t) : List (Option t.Element) := account.handed ++ account.pending

def entries (account : KeyAccount t) : List (Option t.Element) :=
  (account.all.filter Option.isSome).eraseDups

def take (account : KeyAccount t) (xs : List (Option t.Element)) : KeyAccount t :=
  ⟨account.handed, account.keys, account.pending ++ xs⟩

/-- A rejected append leaves no keys behind, unless it was the slots that ran out in the middle. -/
def note (account : KeyAccount t) : Call → Answer → KeyAccount t
  | .append column, .appended (.ok ()) => account.take (column.elements t)
  | .append column, .appended (.error (.capacity .distinctValues)) =>
    account.take (Ledger.intake .dictionaryEncode account.all (column.elements t))
  | .flush, .flushed (.ok (some keys)) => ⟨account.all, account.keys ++ keys.toList, []⟩
  | .reset, _ => empty
  | _, _ => account

def ledger (account : KeyAccount t) : Ledger .dictionaryEncode t.Element :=
  .after .dictionaryEncode account.all account.pending

/-- The keys that were handed out are the slots of their elements. -/
structure Sound (account : KeyAccount t) : Prop where
  roomy : Ledger.Roomy .dictionaryEncode account.all
  keys : account.keys =
    (Ledger.slots account.entries account.handed).map (Option.map PendingKeys.key)

variable {account : KeyAccount t}

theorem seen_ledger (account : KeyAccount t) : account.ledger.seen = account.entries := by
  rw [entries, ← Operation.recorded_dictionaryEncode]
  rfl

theorem Sound.slots (h : account.Sound) : account.entries.length ≤ Memo.largestSlot + 1 := by
  rw [← seen_ledger]
  exact h.roomy

theorem mem_entries {x : t.Element} (h : some x ∈ account.all) : some x ∈ account.entries := by
  rw [entries, List.mem_eraseDups, List.mem_filter]
  exact ⟨h, rfl⟩

theorem note_rejected {e : Failure} (he : e ≠ .capacity .distinctValues) (column : Column) :
    account.note (.append column) (.appended (.error e)) = account := by
  unfold note
  split
  · next hanswer => cases hanswer
  · next hanswer =>
    cases hanswer
    exact absurd rfl he
  · next hcall _ => cases hcall
  · next hcall => cases hcall
  · rfl

theorem all_take (account : KeyAccount t) (xs : List (Option t.Element)) :
    (account.take xs).all = account.all ++ xs :=
  (List.append_assoc account.handed account.pending xs).symm

theorem ledger_take (account : KeyAccount t) (xs : List (Option t.Element)) :
    (account.take xs).ledger =
      .after .dictionaryEncode (account.all ++ xs) (account.pending ++ xs) := by
  rw [ledger, all_take]
  rfl

theorem entries_take (account : KeyAccount t) (xs : List (Option t.Element)) :
    account.entries <+: (account.take xs).entries := by
  rw [entries, entries, all_take, List.filter_append, List.eraseDups_append]
  exact List.prefix_append _ _

/-- Slots of elements that are listed do not change when the list grows. -/
theorem slots_of_prefix {entries xs : List (Option t.Element)} (hgrown : account.entries <+: entries)
    (hxs : xs ⊆ account.all) : Ledger.slots entries xs = Ledger.slots account.entries xs := by
  obtain ⟨more, rfl⟩ := hgrown
  exact Ledger.slots_append (fun y hy => mem_entries (hxs hy)) more

theorem Sound.empty : (empty : KeyAccount t).Sound where
  roomy := Nat.zero_le _
  keys := rfl

theorem Sound.take (h : account.Sound) {xs : List (Option t.Element)}
    (hroomy : Ledger.Roomy .dictionaryEncode (account.all ++ xs)) : (account.take xs).Sound where
  roomy := by
    rw [all_take]
    exact hroomy
  keys := by
    have hslots : Ledger.slots (account.take xs).entries account.handed = _ :=
      slots_of_prefix (account.entries_take xs) (List.subset_append_left _ _)
    exact h.keys.trans (congrArg _ hslots.symm)

theorem append_ledger [Memory] (h : account.Sound) (xs : List (Option t.Element)) :
    account.ledger.append xs =
      match Capacity.reserveItems 4 (account.pending.length + xs.length) with
      | .error e => (account.ledger, .error e)
      | .ok () => ((account.take (Ledger.intake .dictionaryEncode account.all xs)).ledger,
          if Ledger.Roomy .dictionaryEncode (account.all ++ xs) then .ok ()
          else .error (.capacity .distinctValues)) := by
  have hreserve : account.ledger.tally.reserve xs.length =
      Capacity.reserveItems 4 (account.pending.length + xs.length) := by
    simp [ledger, Ledger.after, Tally.after, Tally.reserve, PendingKeys.ofSlots, Ledger.slots]
  rw [Ledger.append, hreserve]
  cases Capacity.reserveItems 4 (account.pending.length + xs.length) with
  | error e => rfl
  | ok _ =>
    simp only [ledger_take]
    exact Ledger.visitAll_intake h.roomy (List.subset_append_right _ _) xs

/-- An append does to the ledger what is noted of it. -/
theorem appendColumn_note [Memory] (h : account.Sound) (column : Column) :
    let next := account.note (.append column) (.appended (account.ledger.appendColumn column).2)
    (account.ledger.appendColumn column).1 = next.ledger ∧ next.Sound ∧
      account.entries <+: next.entries := by
  rcases account.ledger.appendColumn_eq column with hother | happend
  · rw [hother]
    exact ⟨rfl, h, List.prefix_rfl⟩
  · rw [happend, append_ledger h]
    cases hroom : Capacity.reserveItems 4 (account.pending.length + (column.elements t).length) with
    | error e =>
      -- Only this failure may have taken in a part of the column, and no want of memory is it.
      have he : e ≠ .capacity .distinctValues := by
        rintro rfl
        exact Capacity.reserveItems_ne_distinctValues _ _ hroom
      simp only [note_rejected he]
      exact ⟨trivial, h, List.prefix_rfl⟩
    | ok _ =>
      by_cases hroomy : Ledger.Roomy .dictionaryEncode (account.all ++ column.elements t)
      · have hall := (Ledger.intake_eq_self_iff h.roomy (column.elements t)).mpr hroomy
        simp only [if_pos hroomy, hall, note]
        exact ⟨trivial, h.take hroomy, account.entries_take _⟩
      · simp only [if_neg hroomy, note]
        exact ⟨trivial, h.take (Ledger.roomy_intake h.roomy _), account.entries_take _⟩

theorem flush_ledger (account : KeyAccount t) : ∃ keys, account.ledger.flush.1 = some keys ∧
    keys.toList = (Ledger.slots account.entries account.pending).map (Option.map PendingKeys.key) := by
  refine ⟨_, rfl, ?_⟩
  rw [← seen_ledger]
  exact PendingKeys.toList_cells_ofSlots _

theorem flush_note (h : account.Sound) :
    let next := account.note .flush (.flushed (.ok account.ledger.flush.1))
    account.ledger.flush.2 = next.ledger ∧ next.Sound ∧ account.entries <+: next.entries := by
  obtain ⟨keys, hkeys, hlist⟩ := account.flush_ledger
  have hall : (account.note .flush (.flushed (.ok (some keys)))).all = account.all := List.append_nil _
  have hentries : (account.note .flush (.flushed (.ok (some keys)))).entries = account.entries := by
    rw [entries, hall, entries]
  rw [hkeys]
  refine ⟨?_, ⟨?_, ?_⟩, ?_⟩
  · rw [ledger, ledger, hall]
    rfl
  · rw [hall]
    exact h.roomy
  · rw [hentries]
    change account.keys ++ keys.toList = (Ledger.slots account.entries account.all).map _
    rw [hlist, h.keys, all, Ledger.slots, Ledger.slots, Ledger.slots, List.map_append,
      List.map_append]
  · rw [hentries]

/-- An append that runs out of slots has too many distinct values for any dictionary. -/
theorem not_roomy_of_full [Memory] (h : account.Sound) {column : Column}
    (hfull : (account.ledger.appendColumn column).2 = .error (.capacity .distinctValues)) :
    ¬Ledger.Roomy .dictionaryEncode (account.all ++ column.elements t) := by
  intro hroomy
  rcases account.ledger.appendColumn_eq column with hother | happend
  · rw [hother] at hfull
    cases hfull
  · rw [happend, append_ledger h, if_pos hroomy] at hfull
    cases hroom : Capacity.reserveItems 4 (account.pending.length + (column.elements t).length) with
    | error e =>
      rw [hroom] at hfull
      exact Capacity.reserveItems_ne_distinctValues _ _ (hroom.trans hfull)
    | ok _ =>
      rw [hroom] at hfull
      cases hfull

theorem encodes_of_prefix {dictionary : Cells t.layout}
    (hgrown : account.entries <+: dictionary.toList)
    (hslots : dictionary.toList.length ≤ Memo.largestSlot + 1) {xs : List (Option t.Element)}
    (hxs : xs ⊆ account.all) {keys : Cells DataType.int32.layout} (hkeys : keys.toList =
      (Ledger.slots account.entries xs).map (Option.map PendingKeys.key)) :
    Encodes dictionary keys (.ofList xs) := by
  rw [Cells.length_toList] at hslots
  apply encodes_of_slots hslots
  · intro x hx
    rw [Cells.toList_ofList] at hx
    exact hgrown.subset (mem_entries (hxs hx))
  · rw [hkeys, Cells.toList_ofList, slots_of_prefix hgrown hxs]

end KeyAccount

namespace Kernel

variable {kernel : Kernel .dictionaryEncode t} {account : KeyAccount t}

/-- The account keeps up with the kernel, and what has an entry in the dictionary keeps it. -/
theorem call_note [Memory] (hholds : kernel.Holds account.ledger) (h : account.Sound) (c : Call) :
    let next := account.note c (kernel.call c).1
    (kernel.call c).2.Holds next.ledger ∧ next.Sound ∧
      (c ≠ .reset → account.entries <+: next.entries) := by
  cases c with
  | append column =>
    obtain ⟨hresult, hafter⟩ := appendColumn_holds hholds column
    obtain ⟨hnext, hsound, hgrown⟩ := KeyAccount.appendColumn_note h column
    rw [call]
    simp only [hresult]
    exact ⟨hnext ▸ hafter, hsound, fun _ => hgrown⟩
  | flush =>
    obtain ⟨hout, hafter⟩ := flush_holds hholds
    obtain ⟨hnext, hsound, hgrown⟩ := KeyAccount.flush_note h
    rw [call]
    simp only [hout]
    exact ⟨hnext ▸ hafter, hsound, fun _ => hgrown⟩
  | flushFinal => exact ⟨(flushFinal_holds hholds).2, h, fun _ => List.prefix_rfl⟩
  | dictionary => exact ⟨hholds, h, fun _ => List.prefix_rfl⟩
  | reset => exact ⟨reset_holds kernel, .empty, fun hne => absurd rfl hne⟩

/-- Calls without a reset let the dictionary only grow. -/
theorem calls_note [Memory] (hholds : kernel.Holds account.ledger) (h : account.Sound)
    (calls : List Call) (hcalls : .reset ∉ calls) :
    let next := noted KeyAccount.note account calls (trace call kernel calls).1
    (trace call kernel calls).2.Holds next.ledger ∧ next.Sound ∧
      account.entries <+: next.entries := by
  refine trace_noted (f := KeyAccount.note)
    (R := fun (kernel : Kernel .dictionaryEncode t) (next : KeyAccount t) =>
      kernel.Holds next.ledger ∧ next.Sound ∧ account.entries <+: next.entries)
    (A := fun (c : Call) (_ : Answer) => c ≠ .reset) (fun kernel next c hc hnext => ?_)
    ⟨hholds, h, List.prefix_rfl⟩ calls fun p hp hreset => hcalls (hreset ▸ (List.of_mem_zip hp).1)
  obtain ⟨hafter, hsound, hgrown⟩ := call_note hnext.1 hnext.2.1 c
  exact ⟨hafter, hsound, hnext.2.2.trans (hgrown hc)⟩

theorem holds_of_calls [Memory] (hkernel : kernel.Begun) (calls : List Call) :
    let account := noted KeyAccount.note .empty calls (trace call kernel calls).1
    (trace call kernel calls).2.Holds account.ledger ∧ account.Sound := by
  refine trace_noted (f := KeyAccount.note)
    (R := fun (kernel : Kernel .dictionaryEncode t) (account : KeyAccount t) =>
      kernel.Holds account.ledger ∧ account.Sound) (A := fun (_ : Call) (_ : Answer) => True)
    (fun kernel account c _ h => ?_) (b := .empty) ⟨hkernel.holds, .empty⟩ calls
    fun _ _ => trivial
  obtain ⟨hafter, hsound, -⟩ := call_note h.1 h.2 c
  exact ⟨hafter, hsound⟩

theorem flushFinal_encode (kernel : Kernel .dictionaryEncode t) :
    kernel.flushFinal = (none, kernel) := by
  cases kernel <;> rfl

/-- A flush hands out a key for each position taken in since the flush before, and there are no counts to
hand out. All keys handed out so far, and those that are next, read back through the dictionary of the moment
and of every later one up to the next reset. An append is taken in partly only when it runs out of
slots. -/
theorem flush_encodes [Memory] (hkernel : kernel.Begun) (ht : t ≠ .fixedSizeBinary 0)
    (calls : List Call) :
    let now := (trace call kernel calls).2
    let account := noted KeyAccount.note .empty calls (trace call kernel calls).1
    (∀ column : Column, (now.append column).2 = .error (.capacity .distinctValues) →
      ¬Ledger.Roomy .dictionaryEncode (account.all ++ column.elements t)) ∧
    now.flushFinal = (none, now) ∧
    ∃ keys, now.flush.1 = .ok (some keys) ∧ keys.length = account.pending.length ∧
      ∀ more : List Call, .reset ∉ more →
        let later := (trace call now more).2
        let next := noted KeyAccount.note account more (trace call now more).1
        account.entries <+: next.entries ∧
        (t.layout.reach next.entries ≤ Layout.largestOffset → ∃ dictionary,
          later.dictionary = .ok ⟨t, dictionary⟩ ∧ dictionary.toList = next.entries ∧
          Encodes dictionary (.ofList account.keys) (.ofList account.handed) ∧
          Encodes dictionary keys (.ofList account.pending)) ∧
        (Layout.largestOffset < t.layout.reach next.entries → later.dictionary =
          .error (.capacity (.offsets t.layout.offsetType (t.layout.reach next.entries)))) := by
  intro now account
  obtain ⟨hholds, hsound⟩ : now.Holds account.ledger ∧ account.Sound :=
    holds_of_calls hkernel calls
  obtain ⟨hout, -⟩ := flush_holds hholds
  obtain ⟨keys, hkeys, hlist⟩ := account.flush_ledger
  refine ⟨fun column hfull => ?_, flushFinal_encode now, keys, hout.trans (congrArg Except.ok hkeys), ?_, ?_⟩
  · rw [(appendColumn_holds hholds column).1] at hfull
    exact KeyAccount.not_roomy_of_full hsound hfull
  · rw [← Cells.length_toList, hlist, List.length_map, Ledger.slots, List.length_map]
  · intro more hmore later next
    obtain ⟨hlater, hnext, hgrown⟩ := calls_note hholds hsound more hmore
    have hseen : next.ledger.seen = next.entries := next.seen_ledger
    refine ⟨hgrown, fun hfit => ?_, fun hover => ?_⟩
    · rw [← hseen] at hfit
      obtain ⟨dictionary, hdictionary, hentries⟩ :=
        dictionary_ok hlater (DataType.layout_ne_block_zero ht) hfit
      have hentries : dictionary.toList = next.entries := hentries.trans hseen
      -- Entries keep their places in every later dictionary, and keys name places.
      have hreads : account.entries <+: dictionary.toList := hentries ▸ hgrown
      have hslots : dictionary.toList.length ≤ Memo.largestSlot + 1 := hentries ▸ hnext.slots
      have hhanded : account.handed ⊆ account.all := List.subset_append_left _ _
      have hpending : account.pending ⊆ account.all := List.subset_append_right _ _
      refine ⟨dictionary, hdictionary, hentries, ?_, ?_⟩
      · apply KeyAccount.encodes_of_prefix hreads hslots hhanded
        rw [Cells.toList_ofList, hsound.keys]
      · exact KeyAccount.encodes_of_prefix hreads hslots hpending hlist
    · rw [← hseen] at hover
      have hrefused : later.dictionary = .error (.capacity
          (.offsets t.layout.offsetType (t.layout.reach next.ledger.seen))) :=
        dictionary_refused hlater hover
      rwa [hseen] at hrefused

/-- Two appends come before a flush, one of another type between them, and two after it. The last element
seen has its entry only later. -/
theorem flush_encodes_booleans :
    letI : Memory := .of47Bits
    let calls : List Call :=
      [.append ⟨.boolean, .ofList [some true, none]⟩, .append ⟨.int32, .ofList [some 0#32]⟩,
        .append ⟨.boolean, .ofList [some true]⟩, .flush, .flushFinal,
        .append ⟨.boolean, .ofList [none]⟩, .append ⟨.boolean, .ofList [some true]⟩]
    let more : List Call := [.flush, .append ⟨.boolean, .ofList [some false]⟩]
    ∃ kernel : Kernel .dictionaryEncode .boolean, kernel.Begun ∧
      DataType.boolean ≠ .fixedSizeBinary 0 ∧ .reset ∉ more ∧
      let now := (trace call kernel calls).2
      let later := (trace call now more).2
      ∃ keys dictionary, now.flush.1 = .ok (some keys) ∧
        later.dictionary = .ok ⟨.boolean, dictionary⟩ ∧
        dictionary.toList = [some true, some false] ∧
        Encodes dictionary (.ofList [some 0#32, none, some 0#32])
          (.ofList [some true, none, some true]) ∧
        Encodes dictionary keys (.ofList [none, some true]) := by
  intro calls more
  let memory : Memory := .of47Bits
  let kernel : Kernel .dictionaryEncode .boolean :=
    .values rfl Memo.BooleanTable.empty PendingKeys.empty
  have hcreate : create .dictionaryEncode .boolean 4 = .ok kernel := rfl
  have hkernel : kernel.Begun := .made hcreate
  have htype : DataType.boolean ≠ .fixedSizeBinary 0 := by decide
  have hmore : .reset ∉ more := by simp [more]
  have hdone : (noted KeyAccount.note (.empty : KeyAccount .boolean) calls
      (trace call kernel calls).1).keys = [some 0#32, none, some 0#32] :=
    PendingKeys.toList_cells_ofSlots [some 0, none, some 0]
  have hall : (noted KeyAccount.note (noted KeyAccount.note (.empty : KeyAccount .boolean) calls
      (trace call kernel calls).1) more (trace call (trace call kernel calls).2 more).1).all =
        [some true, none, some true, none, some true, some false] := by
    cbv
  obtain ⟨-, -, keys, hkeys, -, hlater⟩ := flush_encodes hkernel htype calls
  obtain ⟨-, hreads, -⟩ := hlater more hmore
  obtain ⟨dictionary, hdictionary, hlist, hhanded, hpending⟩ := hreads (by decide)
  rw [hdone] at hhanded
  rw [KeyAccount.entries, hall] at hlist
  exact ⟨kernel, hkernel, htype, hmore, keys, dictionary, hkeys, hdictionary, hlist, hhanded,
    hpending⟩

end Kernel

end Columnar
