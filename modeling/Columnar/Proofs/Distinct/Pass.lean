import Columnar.Distinct
import Columnar.Proofs.Kernel.FirstSight

namespace Columnar

/-- Distinct elements that have enough slots, and enough room in the offsets of a column. -/
structure Layout.Fits (l : Layout) (distinct : List (Option l.Element)) : Prop where
  slots : distinct.length ≤ Memo.largestSlot + 1
  bytes : l.reach distinct ≤ Layout.largestOffset

/-- A key has four bytes. -/
theorem Tally.reserve_empty_keys [Memory] (n : ℕ) :
    (Tally.empty .dictionaryEncode).reserve n = Capacity.reserveItems 4 n :=
  congrArg (Capacity.reserveItems 4) (Nat.zero_add n)

theorem Tally.reserve_empty_of_keys [Memory] (op : Operation) {n : ℕ}
    (h : Capacity.reserveItems 4 n = .ok ()) : (Tally.empty op).reserve n = .ok () := by
  cases op with
  | unique | valueCounts => rfl
  | dictionaryEncode => rwa [reserve_empty_keys]

theorem Tally.reserve_error [Memory] {op : Operation} {tally : Tally op} {n : ℕ} {e : Failure}
    (h : tally.reserve n = .error e) : ∃ fault, e = .capacity fault := by
  cases op with
  | unique | valueCounts => cases h
  | dictionaryEncode => exact Capacity.reserveItems_error h

namespace Distinct

variable [Memory] {op : Operation} {t : DataType}

/-- Room for what a pass collects, asked for chunk by chunk. -/
def reserveAll (op : Operation) : List (Cells t.layout) → Except Failure Unit
  | [] => .ok ()
  | c :: chunks => do
    (Tally.empty op).reserve c.length
    reserveAll op chunks

theorem reserveAll_ok (hop : op.memoizesNulls) (chunks : List (Cells t.layout)) :
    reserveAll op chunks = .ok () := by
  induction chunks with
  | nil => rfl
  | cons c chunks ih =>
    cases op with
    | unique | valueCounts => exact ih
    | dictionaryEncode => exact absurd hop (by decide)

theorem reserveAll_eq_ok_iff {chunks : List (Cells t.layout)} :
    reserveAll op chunks = .ok () ↔ ∀ c ∈ chunks, (Tally.empty op).reserve c.length = .ok () := by
  induction chunks with
  | nil => simp [reserveAll]
  | cons c chunks ih =>
    rw [List.forall_mem_cons, ← ih, reserveAll]
    cases (Tally.empty op).reserve c.length with
    | error e => simp [bind, Except.bind]
    | ok _ => exact ⟨fun h => ⟨rfl, h⟩, fun h => h.2⟩

theorem reserveAll_error {chunks : List (Cells t.layout)} {e : Failure}
    (h : reserveAll op chunks = .error e) : ∃ fault, e = .capacity fault := by
  induction chunks with
  | nil => cases h
  | cons c chunks ih =>
    cases hc : (Tally.empty op).reserve c.length with
    | error e' =>
      obtain rfl : e' = e := by simpa [reserveAll, hc, bind, Except.bind] using h
      exact Tally.reserve_error hc
    | ok _ =>
      rw [reserveAll, hc] at h
      exact ih h

omit [Memory]

def outputs (op : Operation) (seen : List (Option t.Element)) (chunks : List (Cells t.layout)) :
    List (Cells DataType.int32.layout) :=
  chunks.flatMap fun c => (op.keys seen c.toList).toList

theorem outputs_cons (seen : List (Option t.Element)) (c : Cells t.layout)
    (chunks : List (Cells t.layout)) :
    outputs op seen (c :: chunks) = (op.keys seen c.toList).toList ++ outputs op seen chunks :=
  List.flatMap_cons

section Feed

variable [Memory] {kernel : Kernel op t} {history : List (Option t.Element)}

theorem feed_cons (h : kernel.Holds (.after op history [])) {c : Cells t.layout}
    (hreserve : (Tally.empty op).reserve c.length = .ok ())
    (hroom : (op.recorded (history ++ c.toList)).eraseDups.length ≤ Memo.largestSlot + 1)
    (rest : List Column) :
    ∃ next : Kernel op t, next.Holds (.after op (history ++ c.toList) []) ∧
      feed kernel (⟨t, c⟩ :: rest) = (feed next rest).map fun (last, outs) =>
        (last, ((op.keys (op.recorded (history ++ c.toList)).eraseDups c.toList).map
          (Column.mk .int32)).toList ++ outs) := by
  obtain ⟨hresult, hholds⟩ := Kernel.append_holds h c
  rw [← Cells.length_toList] at hreserve
  rw [Ledger.append_after c.toList hreserve hroom] at hresult hholds
  obtain ⟨hout, hflushed⟩ := Kernel.flush_holds hholds
  rw [Ledger.flush_after] at hout hflushed
  refine ⟨_, hflushed, ?_⟩
  simp only [feed, hresult, hout, bind, Except.bind]
  cases feed (kernel.append ⟨t, c⟩).1.flush.2 rest <;> rfl

theorem feed_cons_refused (h : kernel.Holds (.after op history [])) {c : Cells t.layout}
    {e : Failure} (hreserve : (Tally.empty op).reserve c.length = .error e) (rest : List Column) :
    feed kernel (⟨t, c⟩ :: rest) = .error e := by
  obtain ⟨hresult, -⟩ := Kernel.append_holds h c
  rw [← Cells.length_toList] at hreserve
  rw [Ledger.append_refused c.toList hreserve] at hresult
  simp only [feed, hresult, bind, Except.bind]

theorem feed_after (h : kernel.Holds (.after op history [])) (chunks : List (Cells t.layout))
    (hroom : (op.recorded (history ++ chunks.flatMap Cells.toList)).eraseDups.length ≤
      Memo.largestSlot + 1) (hreserve : reserveAll op chunks = .ok ()) :
    ∃ last, feed kernel (chunks.map (Column.mk t)) = .ok (last, (outputs op
        (op.recorded (history ++ chunks.flatMap Cells.toList)).eraseDups chunks).map
          (Column.mk .int32)) ∧
      last.Holds (.after op (history ++ chunks.flatMap Cells.toList) []) := by
  induction chunks generalizing kernel history with
  | nil => exact ⟨kernel, rfl, by simpa using h⟩
  | cons c chunks ih =>
    rw [List.flatMap_cons, ← List.append_assoc] at hroom ⊢
    cases hc : (Tally.empty op).reserve c.length with
    | error e => simp [reserveAll, hc, bind, Except.bind] at hreserve
    | ok _ =>
      rw [reserveAll, hc] at hreserve
      obtain ⟨next, hnext, hfeed⟩ := feed_cons h hc
        ((Ledger.length_recorded_eraseDups_le op _ _).trans hroom) (chunks.map (Column.mk t))
      obtain ⟨last, hlast, hholds⟩ := ih hnext hroom hreserve
      refine ⟨last, ?_, hholds⟩
      -- The chunk's keys were handed out before the later chunks were seen.
      have hkeys := op.keys_append (List.subset_append_right history c.toList)
        (chunks.flatMap Cells.toList)
      rw [List.map_cons, hfeed, hlast, outputs_cons, hkeys, List.map_append, Option.toList_map]
      rfl

theorem feed_refused (h : kernel.Holds (.after op history [])) (chunks : List (Cells t.layout))
    (hroom : (op.recorded (history ++ chunks.flatMap Cells.toList)).eraseDups.length ≤
      Memo.largestSlot + 1) {e : Failure} (hreserve : reserveAll op chunks = .error e) :
    feed kernel (chunks.map (Column.mk t)) = .error e := by
  induction chunks generalizing kernel history with
  | nil => cases hreserve
  | cons c chunks ih =>
    rw [List.flatMap_cons, ← List.append_assoc] at hroom
    rw [List.map_cons]
    cases hc : (Tally.empty op).reserve c.length with
    | error e' =>
      obtain rfl : e' = e := by simpa [reserveAll, hc, bind, Except.bind] using hreserve
      exact feed_cons_refused h hc _
    | ok _ =>
      rw [reserveAll, hc] at hreserve
      obtain ⟨next, hnext, hfeed⟩ := feed_cons h hc
        ((Ledger.length_recorded_eraseDups_le op _ _).trans hroom) (chunks.map (Column.mk t))
      rw [hfeed, ih hnext hroom hreserve]
      rfl

end Feed

/-- What a pass comes to. Its dictionary has the elements in order of first sight, as far as a column shows
them. -/
structure Outcome (chunks : List (Cells t.layout)) (entries : Cells t.layout) (done : Pass op t) :
    Prop where
  kernel : done.kernel.Holds (.after op (chunks.flatMap Cells.toList) [])
  outputs : done.outputs =
    (outputs op (op.recorded (chunks.flatMap Cells.toList)).eraseDups chunks).map (Column.mk .int32)
  dictionary : done.dictionary = ⟨t, entries⟩
  read : done.kernel.dictionary = .ok ⟨t, entries⟩
  shown : entries.toList = t.layout.shown (op.recorded (chunks.flatMap Cells.toList)).eraseDups

/-- Passes that have seen the same, be it for different operations, have the same dictionary. -/
theorem Outcome.entries_unique {op' : Operation} {chunks others : List (Cells t.layout)}
    {entries entries' : Cells t.layout} {done : Pass op t} {done' : Pass op' t}
    (h : Outcome chunks entries done) (h' : Outcome others entries' done')
    (hseen : (op.recorded (chunks.flatMap Cells.toList)).eraseDups =
      (op'.recorded (others.flatMap Cells.toList)).eraseDups) : entries = entries' := by
  have hsame := h.kernel.dictionary_unique h'.kernel hseen
  rw [h.read, h'.read] at hsame
  cases hsame
  rfl

section Pass

variable [Memory] {capacity : ℕ}
  (hkernel : ∃ kernel, Kernel.create op t capacity = .ok kernel)
  (ht : t ≠ .fixedSizeBinary 0) (chunks : List (Cells t.layout))
  (hfits : t.layout.Fits (op.recorded (chunks.flatMap Cells.toList)).eraseDups)

include hkernel hfits

theorem pass_outcome (hreserve : reserveAll op chunks = .ok ()) :
    ∃ done entries, pass op t (chunks.map (Column.mk t)) capacity = .ok done ∧
      Outcome chunks entries done := by
  obtain ⟨kernel, hcreate⟩ := hkernel
  have hfresh := Kernel.create_after hcreate
  obtain ⟨last, hfeed, hholds⟩ := feed_after hfresh chunks (by simpa using hfits.slots) hreserve
  rw [List.nil_append] at hfeed hholds
  obtain ⟨entries, hdictionary, hshown⟩ := Kernel.dictionary_shown hholds hfits.bytes
  refine ⟨⟨last, _, ⟨t, entries⟩⟩, entries, ?_, hholds, rfl, rfl, hdictionary, hshown⟩
  simp only [pass, hcreate, hfeed, hdictionary, bind, Except.bind]
  rfl

include ht in
theorem pass_done (hreserve : reserveAll op chunks = .ok ()) :
    ∃ done entries, pass op t (chunks.map (Column.mk t)) capacity = .ok done ∧
      Outcome chunks entries done ∧
      entries.toList = (op.recorded (chunks.flatMap Cells.toList)).eraseDups := by
  obtain ⟨done, entries, hdone, houtcome⟩ := pass_outcome hkernel chunks hfits hreserve
  have hall := t.layout.shown_eq_self (DataType.layout_ne_block_zero ht)
    (op.recorded (chunks.flatMap Cells.toList)).eraseDups
  exact ⟨done, entries, hdone, houtcome, houtcome.shown.trans hall⟩

theorem pass_refused {e : Failure} (hreserve : reserveAll op chunks = .error e) :
    pass op t (chunks.map (Column.mk t)) capacity = .error e := by
  obtain ⟨kernel, hcreate⟩ := hkernel
  have hfresh := Kernel.create_after hcreate
  have hfeed := feed_refused hfresh chunks (by simpa using hfits.slots) hreserve
  simp only [pass, hcreate, hfeed, bind, Except.bind]

end Pass

end Distinct

end Columnar
