import Columnar.Proofs.Distinct.Encode
import Columnar.Proofs.Distinct.Groups
import Columnar.Proofs.Kernel.Concat

namespace Columnar

namespace Distinct

variable [Memory] {op : Operation} {t : DataType} {capacity : ℕ}

section Whole

variable (hop : op.memoizesNulls)

include hop

omit [Memory] in
theorem flush_eq_self (kernel : Kernel op t) : kernel.flush = (.ok none, kernel) := by
  cases op with
  | unique | valueCounts => cases kernel <;> rfl
  | dictionaryEncode => exact absurd hop (by decide)

theorem reserve_eq_ok (kernel : Kernel op t) (n : ℕ) : kernel.reserve n = .ok () := by
  cases op with
  | unique | valueCounts => cases kernel <;> rfl
  | dictionaryEncode => exact absurd hop (by decide)

theorem feed_eq_seeAll (kernel : Kernel op t) (chunks : List (Cells t.layout)) :
    feed kernel (chunks.map (Column.mk t)) =
      let seen := kernel.seeAll (chunks.flatMap Cells.toList)
      seen.2.map fun _ => (seen.1, []) := by
  induction chunks generalizing kernel with
  | nil => rfl
  | cons c chunks ih =>
    rw [List.map_cons, feed, Kernel.append_eq_seeAll, reserve_eq_ok hop, List.flatMap_cons,
      Kernel.seeAll_append]
    rcases kernel.seeAll c.toList with ⟨next, result⟩
    cases result with
    | error e => rfl
    | ok _ =>
      simp only [flush_eq_self hop, ih next, bind, Except.bind, Step.andThen]
      cases (next.seeAll (chunks.flatMap Cells.toList)).2 <;> rfl

theorem pass_rechunk {chunks others : List (Cells t.layout)}
    (hrows : others.flatMap Cells.toList = chunks.flatMap Cells.toList) :
    pass op t (others.map (Column.mk t)) capacity = pass op t (chunks.map (Column.mk t)) capacity := by
  simp only [pass, feed_eq_seeAll hop, hrows]

end Whole

end Distinct

section Rechunk

variable [Memory] {t : DataType} {capacity : ℕ} {chunks others : List (Cells t.layout)}
  (hrows : others.flatMap Cells.toList = chunks.flatMap Cells.toList)

include hrows

theorem uniqueChunked_rechunk : uniqueChunked t (others.map (Column.mk t)) capacity =
    uniqueChunked t (chunks.map (Column.mk t)) capacity := by
  rw [uniqueChunked, Distinct.pass_rechunk rfl hrows, uniqueChunked]

theorem valueCountsChunked_rechunk : valueCountsChunked t (others.map (Column.mk t)) capacity =
    valueCountsChunked t (chunks.map (Column.mk t)) capacity := by
  rw [valueCountsChunked, Distinct.pass_rechunk rfl hrows, valueCountsChunked]

end Rechunk

/-! ### Keys -/

namespace Distinct

variable {t : DataType} {capacity : ℕ}

/-- Encoded chunks seen as one: a dictionary, and the keys of all rows. -/
inductive EncodesTo (chunks : ℕ) :
    Except Failure (List Encoded) → Except Failure (Column × List (Option (BitVec 32))) → Prop
  | refused (e : Failure) : EncodesTo chunks (.error e) (.error e)
  | encoded {encoded : List Encoded} {dictionary : Column} {keys : List (Option (BitVec 32))}
    (hlength : encoded.length = chunks) (hdictionary : ∀ e ∈ encoded, e.dictionary = dictionary)
    (hkeys : encoded.flatMap (·.keys.toList) = keys) :
    EncodesTo chunks (.ok encoded) (.ok (dictionary, keys))

theorem encodesTo_keysOf (entries : Cells t.layout) (chunks : List (Cells t.layout)) :
    EncodesTo chunks.length (.ok (chunks.map fun c => ⟨keysOf entries c, ⟨t, entries⟩⟩))
      (.ok (⟨t, entries⟩, (chunks.flatMap Cells.toList).map
        (Option.map fun x => PendingKeys.key (entries.toList.idxOf (some x))))) := by
  refine .encoded (by simp) (by simp) ?_
  simp only [List.flatMap_map, toList_keysOf, List.map_flatMap]
  rfl

variable [Memory]

theorem feed_unreserved {kernel : Kernel .dictionaryEncode t} {history : List (Option t.Element)}
    (h : kernel.Holds (.after .dictionaryEncode history []))
    (hroomy : Ledger.Roomy .dictionaryEncode history) (chunks : List (Cells t.layout)) {e : Failure}
    (hreserve : reserveAll .dictionaryEncode chunks = .error e) :
    ∃ fault, feed kernel (chunks.map (Column.mk t)) = .error (.capacity fault) := by
  induction chunks generalizing kernel history with
  | nil => cases hreserve
  | cons c chunks ih =>
    rw [List.map_cons]
    cases hc : (Tally.empty .dictionaryEncode).reserve c.length with
    | error e =>
      obtain ⟨fault, rfl⟩ := Tally.reserve_error hc
      exact ⟨fault, feed_cons_refused h hc _⟩
    | ok _ =>
      rw [reserveAll, hc] at hreserve
      by_cases hmore : Ledger.Roomy .dictionaryEncode (history ++ c.toList)
      · obtain ⟨next, hnext, hfeed⟩ := feed_cons h hc hmore (chunks.map (Column.mk t))
        obtain ⟨fault, hrest⟩ := ih hnext hmore hreserve
        refine ⟨fault, ?_⟩
        rw [hfeed, hrest]
        rfl
      · exact ⟨.distinctValues, feed_cons_full h hroomy hc hmore _⟩

section Encode

variable (hkernel : ∃ kernel, Kernel.create .dictionaryEncode t capacity = .ok kernel)
  (chunks : List (Cells t.layout))

include hkernel

theorem dictionaryEncodeChunked_full (hreserve : reserveAll .dictionaryEncode chunks = .ok ())
    (hfull : ¬Ledger.Roomy .dictionaryEncode (chunks.flatMap Cells.toList)) :
    dictionaryEncodeChunked t (chunks.map (Column.mk t)) capacity =
      .error (.capacity .distinctValues) := by
  obtain ⟨kernel, hcreate⟩ := hkernel
  have hfeed := feed_full (Kernel.create_after hcreate) (Nat.zero_le _) chunks hreserve
    (by simpa using hfull)
  simp only [dictionaryEncodeChunked, pass, hcreate, hfeed, bind, Except.bind]

theorem dictionaryEncodeChunked_over (hreserve : reserveAll .dictionaryEncode chunks = .ok ())
    (hslots : Ledger.Roomy .dictionaryEncode (chunks.flatMap Cells.toList))
    (hover : Layout.largestOffset <
      t.layout.reach (Operation.dictionaryEncode.recorded (chunks.flatMap Cells.toList)).eraseDups) :
    dictionaryEncodeChunked t (chunks.map (Column.mk t)) capacity =
      .error (.capacity (.offsets t.layout.offsetType (t.layout.reach
        (Operation.dictionaryEncode.recorded (chunks.flatMap Cells.toList)).eraseDups))) := by
  obtain ⟨kernel, hcreate⟩ := hkernel
  obtain ⟨last, hfeed, hholds⟩ :=
    feed_after (Kernel.create_after hcreate) chunks (by rwa [List.nil_append]) hreserve
  rw [List.nil_append] at hholds
  have hrefused := Kernel.dictionary_refused hholds hover
  simp only [dictionaryEncodeChunked, pass, hcreate, hfeed, hrefused, bind, Except.bind]
  rfl

/-- However the same rows are cut, they come to the same dictionary and keys, or to the same failure. -/
theorem dictionaryEncodeChunked_rechunk (ht : t ≠ .fixedSizeBinary 0)
    {others : List (Cells t.layout)} (hrows : others.flatMap Cells.toList = chunks.flatMap Cells.toList)
    (hreserve : reserveAll .dictionaryEncode chunks = .ok ())
    (hreserve' : reserveAll .dictionaryEncode others = .ok ()) :
    ∃ rows,
      EncodesTo chunks.length (dictionaryEncodeChunked t (chunks.map (Column.mk t)) capacity) rows ∧
      EncodesTo others.length (dictionaryEncodeChunked t (others.map (Column.mk t)) capacity) rows := by
  -- Whether slots and offsets suffice is a question about the rows alone.
  by_cases hslots : Ledger.Roomy .dictionaryEncode (chunks.flatMap Cells.toList)
  case neg =>
    rw [dictionaryEncodeChunked_full hkernel chunks hreserve hslots,
      dictionaryEncodeChunked_full hkernel others hreserve' (hrows ▸ hslots)]
    exact ⟨_, .refused _, .refused _⟩
  rcases Nat.lt_or_ge Layout.largestOffset (t.layout.reach
    (Operation.dictionaryEncode.recorded (chunks.flatMap Cells.toList)).eraseDups) with hover | hbytes
  · rw [dictionaryEncodeChunked_over hkernel chunks hreserve hslots hover,
      dictionaryEncodeChunked_over hkernel others hreserve' (hrows ▸ hslots) (hrows ▸ hover), hrows]
    exact ⟨_, .refused _, .refused _⟩
  have hfits : t.layout.Fits
      (Operation.dictionaryEncode.recorded (chunks.flatMap Cells.toList)).eraseDups := ⟨hslots, hbytes⟩
  obtain ⟨done, entries, hdone, houtcome, hall⟩ := pass_done hkernel ht chunks hfits hreserve
  obtain ⟨done', entries', hdone', houtcome', hall'⟩ :=
    pass_done hkernel ht others (hrows ▸ hfits) hreserve'
  obtain rfl : entries' = entries := houtcome'.entries_unique houtcome (by rw [hrows])
  have hlength : entries'.length ≤ Memo.largestSlot + 1 := by
    rw [← Cells.length_toList, hall]
    exact hslots
  rw [(dictionaryEncodeChunked_keysOf hdone houtcome hall hlength).1,
    (dictionaryEncodeChunked_keysOf hdone' houtcome' hall' hlength).1]
  have hothers := encodesTo_keysOf entries' others
  rw [hrows] at hothers
  exact ⟨_, encodesTo_keysOf entries' chunks, hothers⟩

/-- Keys without room fail the whole, unless there are too many distinct values before. -/
theorem dictionaryEncodeChunked_unreserved {e : Failure}
    (hreserve : reserveAll .dictionaryEncode chunks = .error e) :
    ∃ fault, dictionaryEncodeChunked t (chunks.map (Column.mk t)) capacity =
      .error (.capacity fault) := by
  obtain ⟨kernel, hcreate⟩ := hkernel
  obtain ⟨fault, hfeed⟩ :=
    feed_unreserved (Kernel.create_after hcreate) (Nat.zero_le _) chunks hreserve
  refine ⟨fault, ?_⟩
  simp only [dictionaryEncodeChunked, pass, hcreate, hfeed, bind, Except.bind]

end Encode

end Distinct

end Columnar
