import Columnar.Proofs.Distinct.Counts
import Columnar.Proofs.Distinct.Encode
import Columnar.Proofs.Memo.Requests

namespace Columnar

/-- Elements that are there but that no column shows. -/
def Lost {α : Type} (width : ℕ) (xs : List (Option α)) : Prop := width = 0 ∧ xs ≠ [] ∧ none ∉ xs

section Lost

variable {α : Type} [BEq α] [LawfulBEq α] {width : ℕ} {xs : List (Option α)}

theorem lost_eraseDups : Lost width xs.eraseDups ↔ Lost width xs := by
  have hnil : xs.eraseDups = [] ↔ xs = [] := by
    cases xs <;> simp [List.eraseDups_cons]
  simp only [Lost, List.mem_eraseDups, hnil, ne_eq]

theorem eraseDups_eq_singleton {x : Option α} (hne : xs ≠ []) (h : ∀ y ∈ xs, y = x) :
    xs.eraseDups = [x] := by
  cases xs with
  | nil => exact absurd rfl hne
  | cons y xs =>
    obtain ⟨rfl, hxs⟩ := List.forall_mem_cons.mp h
    have hrest : xs.filter (fun z => !z == y) = [] := by
      rw [List.filter_eq_nil_iff]
      intro z hz
      simp [hxs z hz]
    rw [List.eraseDups_cons, hrest, List.eraseDups_nil]

theorem Lost.eraseDups_eq (h : Lost width xs) (hone : width = 0 → Subsingleton α) :
    ∃ x, xs.eraseDups = [some x] := by
  obtain ⟨hwidth, hne, hnull⟩ := h
  have hsame := hone hwidth
  obtain ⟨y, hy⟩ := List.exists_mem_of_ne_nil xs hne
  obtain ⟨x, rfl⟩ := Option.ne_none_iff_exists'.mp (ne_of_mem_of_not_mem hy hnull)
  refine ⟨x, eraseDups_eq_singleton hne fun z hz => ?_⟩
  obtain ⟨z, rfl⟩ := Option.ne_none_iff_exists'.mp (ne_of_mem_of_not_mem hz hnull)
  rw [Subsingleton.elim z x]

end Lost

section Shown

variable {width : ℕ} {xs : List (Option (Block width))}

theorem subsingleton_block (h : width = 0) : Subsingleton (Block width) where
  allEq x y := by
    have hx : x.1 = [] := List.eq_nil_of_length_eq_zero (x.2.trans h)
    have hy : y.1 = [] := List.eq_nil_of_length_eq_zero (y.2.trans h)
    exact Subtype.ext (hx.trans hy.symm)

theorem Layout.shown_of_not_lost (h : ¬Lost width xs) : (Layout.block width).shown xs = xs := by
  rw [shown]
  split
  · next hnone =>
    obtain ⟨hwidth, hnull⟩ := hnone
    by_contra hne
    exact h ⟨by simpa using hwidth, Ne.symm hne, hnull⟩
  · rfl

theorem Layout.shown_of_lost (h : Lost width xs) : (Layout.block width).shown xs = [] := by
  obtain ⟨rfl, -, hnull⟩ := h
  exact if_pos ⟨rfl, hnull⟩

end Shown

namespace Memo

variable {width : ℕ}

theorem BlockTable.Holds.exists_blocks {table : BlockTable width} {entries : List (Option (List UInt8))}
    (h : table.Holds entries) :
    ∃ xs : List (Option (Block width)), xs.map (Option.map Subtype.val) = entries := by
  have hrange : entries ∈ Set.range (List.map (Option.map (Subtype.val : Block width → List UInt8))) := by
    rw [Set.range_list_map]
    intro entry hentry
    cases entry with
    | none => exact ⟨none, rfl⟩
    | some bytes => exact ⟨some ⟨bytes, h.widths bytes hentry⟩, rfl⟩
  exact hrange

/-- A table of blocks gives all its entries back as a column, or none if they are lost. -/
theorem Holds.column_blocks {memo : Memo (.block width)} {entries : List (Option (List UInt8))}
    (h : memo.Holds entries) :
    ∃ cells, memo.toCells = .ok cells ∧
      (¬Lost width entries → cells.toList.map (Option.map Subtype.val) = entries) ∧
      (Lost width entries → cells.toList = []) := by
  obtain ⟨xs, rfl⟩ := BlockTable.Holds.exists_blocks h
  have hlist : memo.Lists xs := h
  have hlost : Lost width (xs.map (Option.map Subtype.val)) ↔ Lost width xs := by simp [Lost]
  have hreach := Layout.reach_eq_zero (l := .block width) (fun _ => rfl) xs
  obtain ⟨cells, hcells, hshown⟩ := hlist.toCells_shown (hreach.trans_le (Nat.zero_le _))
  rw [hlost]
  refine ⟨cells, hcells, fun hkept => ?_, fun hlost => ?_⟩
  · rw [hshown, Layout.shown_of_not_lost hkept]
  · rw [hshown, Layout.shown_of_lost hlost]

end Memo

namespace Distinct

section Lost

variable {dictionary : Column} (hempty : dictionary.length = 0)

include hempty

theorem encode_lost {keys : Cells DataType.int32.layout}
    (hzero : ∀ k, some k ∈ keys.toList → k = PendingKeys.key 0) :
    ((∃ k, some k ∈ keys.toList) → ∃ i,
      encode dictionary ⟨.int32, keys⟩ = .error (.format (.dictionaryKey 0 i 0))) ∧
    ((∀ k, some k ∉ keys.toList) → encode dictionary ⟨.int32, keys⟩ = .ok ⟨keys, dictionary⟩) := by
  unfold encode
  rw [Column.as?_mk]
  dsimp only
  split
  · next key i hfind =>
    have hkey : some key ∈ keys.toList :=
      List.fst_mem_of_mem_zipIdx (List.mem_of_find?_eq_some hfind)
    -- The first key that leads nowhere is zero, as all keys are.
    have hint : key.toInt = 0 := by
      rw [hzero key hkey]
      exact PendingKeys.toInt_key (Nat.zero_le _)
    rw [hint, hempty]
    exact ⟨fun _ => ⟨i, rfl⟩, fun hnone => absurd hkey (hnone key)⟩
  · next hfind =>
    refine ⟨fun ⟨k, hk⟩ => ?_, fun _ => rfl⟩
    obtain ⟨i, hi⟩ := List.mem_iff_getElem?.mp hk
    have hmem : (some k, i) ∈ keys.toList.zipIdx := List.mem_zipIdx_iff_getElem?.mpr hi
    generalize hfound : List.find? _ keys.toList.zipIdx = found at hfind
    rcases found with _ | ⟨_ | key, j⟩
    · have hpassed := List.find?_eq_none.mp hfound _ hmem
      simp [hempty] at hpassed
    · have hastray := List.find?_some hfound
      cases hastray
    · exact (hfind key j rfl).elim

theorem mapM_encode_lost (keys : List (Cells DataType.int32.layout))
    (hzero : ∀ ks ∈ keys, ∀ k, some k ∈ ks.toList → k = PendingKeys.key 0)
    (hsome : ∃ ks ∈ keys, ∃ k, some k ∈ ks.toList) :
    ∃ i, (keys.map (Column.mk .int32)).mapM (encode dictionary) =
      .error (.format (.dictionaryKey 0 i 0)) := by
  induction keys with
  | nil => simp at hsome
  | cons ks keys ih =>
    obtain ⟨hks, hkeys⟩ := List.forall_mem_cons.mp hzero
    obtain ⟨hfails, hpasses⟩ := encode_lost hempty hks
    rw [List.map_cons, List.mapM_cons]
    by_cases hkey : ∃ k, some k ∈ ks.toList
    · obtain ⟨i, hi⟩ := hfails hkey
      exact ⟨i, by rw [hi]; rfl⟩
    · rw [hpasses fun k hk => hkey ⟨k, hk⟩]
      obtain ⟨i, hi⟩ := ih hkeys (by simpa [hkey] using hsome)
      exact ⟨i, by rw [hi]; rfl⟩

end Lost

/-- Where all values are the same, their keys are. -/
theorem outputs_singleton {t : DataType} {x : Option t.Element} {chunks : List (Cells t.layout)}
    (hall : ∀ c ∈ chunks, ∀ y, some y ∈ c.toList → some y = x) :
    (∀ ks ∈ outputs .dictionaryEncode [x] chunks, ∀ k, some k ∈ ks.toList →
      k = PendingKeys.key 0) ∧
    ((∃ c ∈ chunks, ∃ y, some y ∈ c.toList) →
      ∃ ks ∈ outputs .dictionaryEncode [x] chunks, ∃ k, some k ∈ ks.toList) := by
  have hkey : ∀ c ∈ chunks, ∀ k, some k ∈ (keysOf (.ofList [x]) c).toList ↔
      (∃ y, some y ∈ c.toList) ∧ k = PendingKeys.key 0 := by
    intro c hc k
    rw [toList_keysOf, Cells.toList_ofList, List.mem_map]
    constructor
    · rintro ⟨z, hz, hk⟩
      obtain ⟨y, rfl, rfl⟩ := Option.map_eq_some_iff.mp hk
      rw [hall c hc y hz, List.idxOf_cons_self]
      exact ⟨⟨y, hz⟩, rfl⟩
    · rintro ⟨⟨y, hy⟩, rfl⟩
      refine ⟨some y, hy, ?_⟩
      rw [Option.map_some, hall c hc y hy, List.idxOf_cons_self]
  have houtputs : outputs .dictionaryEncode [x] chunks = chunks.map (keysOf (.ofList [x])) := by
    rw [← outputs_dictionaryEncode, Cells.toList_ofList]
  rw [houtputs]
  constructor
  · intro ks hks k hk
    obtain ⟨c, hc, rfl⟩ := List.mem_map.mp hks
    exact ((hkey c hc k).mp hk).2
  · rintro ⟨c, hc, hvalue⟩
    exact ⟨_, List.mem_map_of_mem hc, _, (hkey c hc _).mpr ⟨hvalue, rfl⟩⟩

theorem dictionaryEncodeChunked_of_missing [Memory] {t : DataType} {capacity : ℕ}
    {chunks : List (Cells t.layout)} {entries : Cells t.layout} {done : Pass .dictionaryEncode t}
    (hdone : pass .dictionaryEncode t (chunks.map (Column.mk t)) capacity = .ok done)
    (houtcome : Outcome chunks entries done) {x : t.Element}
    (hone : (Operation.dictionaryEncode.recorded (chunks.flatMap Cells.toList)).eraseDups = [some x])
    (hempty : entries.length = 0) :
    ∃ i, dictionaryEncodeChunked t (chunks.map (Column.mk t)) capacity =
      .error (.format (.dictionaryKey 0 i 0)) := by
  have hsame : ∀ c ∈ chunks, ∀ y, some y ∈ c.toList → some y = some x := by
    intro c hc y hy
    have hmem := some_mem_entries.mpr ⟨c, hc, hy⟩
    rw [hone] at hmem
    exact List.mem_singleton.mp hmem
  obtain ⟨c, hc, hx⟩ : ∃ c ∈ chunks, some x ∈ c.toList := by
    rw [← some_mem_entries, hone]
    exact List.mem_singleton_self _
  obtain ⟨hzero, hsome⟩ := outputs_singleton hsame
  have hlength : (Column.mk t entries).length = 0 := hempty
  rw [dictionaryEncodeChunked_of_outcome hdone houtcome, houtcome.outputs, hone]
  exact mapM_encode_lost hlength _ hzero (hsome ⟨c, hc, x, hx⟩)

end Distinct

abbrev blockType (width : ℕ) : DataType := .fixedSizeBinary (.ofNat width)

section Facades

variable [Memory] {width capacity : ℕ} (hcapacity : Memo.reserve capacity (.block width) = .ok ())

include hcapacity

theorem exists_create_blocks (op : Operation) :
    ∃ kernel, Kernel.create op (blockType width) capacity = .ok kernel :=
  ⟨_, Kernel.create_eq_ok op rfl (by simp [DataType.layout]) hcapacity⟩

theorem exists_pass_blocks (op : Operation) {chunks : List (Cells (blockType width).layout)}
    (hslots : (op.recorded (chunks.flatMap Cells.toList)).eraseDups.length ≤ Memo.largestSlot + 1)
    (hreserve : Distinct.reserveAll op chunks = .ok ()) :
    ∃ done entries,
      Distinct.pass op (blockType width) (chunks.map (Column.mk _)) capacity = .ok done ∧
      Distinct.Outcome chunks entries done ∧
      (¬Lost width (op.recorded (chunks.flatMap Cells.toList)) →
        entries.toList = (op.recorded (chunks.flatMap Cells.toList)).eraseDups) ∧
      (Lost width (op.recorded (chunks.flatMap Cells.toList)) → entries.toList = []) := by
  have hfits : (blockType width).layout.Fits
      (op.recorded (chunks.flatMap Cells.toList)).eraseDups :=
    ⟨hslots, (Layout.reach_eq_zero (fun _ => rfl) _).trans_le (Nat.zero_le _)⟩
  obtain ⟨done, entries, hdone, houtcome⟩ :=
    Distinct.pass_outcome (exists_create_blocks hcapacity op) chunks hfits hreserve
  have hlost : Lost width (op.recorded (chunks.flatMap Cells.toList)).eraseDups ↔ _ := lost_eraseDups
  refine ⟨done, entries, hdone, houtcome, fun h => ?_, fun h => ?_⟩
  · exact houtcome.shown.trans (Layout.shown_of_not_lost (mt hlost.mp h))
  · exact houtcome.shown.trans (Layout.shown_of_lost (hlost.mpr h))

section Recorded

variable {chunks : List (Cells (blockType width).layout)}
  (hslots : (chunks.flatMap Cells.toList).eraseDups.length ≤ Memo.largestSlot + 1)

include hslots

theorem uniqueChunked_blocks :
    ∃ cells, uniqueChunked (blockType width) (chunks.map (Column.mk _)) capacity =
        .ok ⟨blockType width, cells⟩ ∧
      (¬Lost width (chunks.flatMap Cells.toList) →
        cells.toList = (chunks.flatMap Cells.toList).eraseDups) ∧
      (Lost width (chunks.flatMap Cells.toList) → cells.toList = []) := by
  obtain ⟨done, entries, hdone, houtcome, hshown⟩ := exists_pass_blocks hcapacity .unique
    (by rwa [Operation.recorded_eq_self rfl]) (Distinct.reserveAll_ok rfl chunks)
  rw [Operation.recorded_eq_self rfl] at hshown
  refine ⟨entries, ?_, hshown⟩
  rw [uniqueChunked, hdone, ← houtcome.dictionary]
  rfl

theorem valueCountsChunked_blocks :
    (¬Lost width (chunks.flatMap Cells.toList) →
      ∃ s values counts,
        valueCountsChunked (blockType width) (chunks.map (Column.mk _)) capacity = .ok s ∧
        s.Counts values counts ∧ values.length = counts.length ∧
        values.toList.zip counts.toList = occurrences (chunks.flatMap Cells.toList)) ∧
    (Lost width (chunks.flatMap Cells.toList) →
      valueCountsChunked (blockType width) (chunks.map (Column.mk _)) capacity =
        .error (.internal (.countsLength 1 0))) := by
  obtain ⟨done, entries, hdone, houtcome, hkept, hlost⟩ := exists_pass_blocks hcapacity .valueCounts
    (by rwa [Operation.recorded_eq_self rfl]) (Distinct.reserveAll_ok rfl chunks)
  rw [Operation.recorded_eq_self rfl] at hkept hlost
  constructor
  · intro h
    obtain ⟨s, counts, hs⟩ := Distinct.valueCountsChunked_of_outcome hdone houtcome (hkept h)
    exact ⟨s, entries, counts, hs⟩
  · intro h
    obtain ⟨x, hx⟩ := h.eraseDups_eq subsingleton_block
    have hlength : entries.length = 0 := by
      rw [← Cells.length_toList, hlost h]
      rfl
    have hcounts : (chunks.flatMap Cells.toList).eraseDups.length = 1 := congrArg List.length hx
    have hmissing := Distinct.valueCountsChunked_of_missing hdone houtcome (by omega)
    rwa [hlength, hcounts] at hmissing

end Recorded

theorem dictionaryEncodeChunked_blocks {chunks : List (Cells (blockType width).layout)}
    (hslots : ((chunks.flatMap Cells.toList).filter Option.isSome).eraseDups.length ≤
      Memo.largestSlot + 1)
    (hreserve : Distinct.reserveAll .dictionaryEncode chunks = .ok ()) :
    (¬Lost width ((chunks.flatMap Cells.toList).filter Option.isSome) → ∃ encoded dictionary,
      dictionaryEncodeChunked (blockType width) (chunks.map (Column.mk _)) capacity =
        .ok encoded ∧
      List.Forall₂ (fun e c => e.dictionary = ⟨blockType width, dictionary⟩ ∧ Encodes dictionary e.keys c)
        encoded chunks) ∧
    (Lost width ((chunks.flatMap Cells.toList).filter Option.isSome) → ∃ i,
      dictionaryEncodeChunked (blockType width) (chunks.map (Column.mk _)) capacity =
        .error (.format (.dictionaryKey 0 i 0))) := by
  rw [← Operation.recorded_dictionaryEncode] at hslots ⊢
  obtain ⟨done, entries, hdone, houtcome, hkept, hlost⟩ :=
    exists_pass_blocks hcapacity .dictionaryEncode hslots hreserve
  constructor
  · intro h
    have hlength : entries.length ≤ Memo.largestSlot + 1 := by
      rwa [← Cells.length_toList, hkept h]
    obtain ⟨encoded, hencoded, hall⟩ := Distinct.encodes_of_outcome hdone houtcome (hkept h) hlength
    exact ⟨encoded, entries, hencoded, hall⟩
  · intro h
    have hlength : entries.length = 0 := by
      rw [← Cells.length_toList, hlost h]
      rfl
    obtain ⟨x, hx⟩ := h.eraseDups_eq subsingleton_block
    exact Distinct.dictionaryEncodeChunked_of_missing hdone houtcome hx hlength

theorem toColumn_blocks (hash : (blockType width).layout.Key → UInt64)
    {requests : List (Memo.Request (blockType width).layout.Key)}
    (hkeys : ∀ key, .insert key ∈ requests → List.length key = width) :
    ∃ memo, Memo.create .fixedSizeBinary (blockType width) hash capacity = .ok memo ∧
      let served := (trace Memo.serve memo requests).2
      let entries := (trace Memo.Entries.serve [] requests).2
      served.size = entries.length ∧
      ∃ cells : Cells (.block width),
        Memo.toColumn .fixedSizeBinary (blockType width) served (blockType width) =
          .ok ⟨blockType width, cells⟩ ∧
        (¬Lost width entries → cells.toList.map (Option.map Subtype.val) = entries) ∧
        (Lost width entries → cells.toList = []) := by
  have hlayout : (blockType width).layout ≠ .none := by simp [DataType.layout]
  have haccepts := Kernel.accepts_of_family? (t := blockType width) rfl hlayout
  have hmemo := Memo.create_eq_ok hash hlayout haccepts hcapacity
  have hholds := Memo.trace_serve_holds (Memo.holds_of_create hmemo).1 requests hkeys
  obtain ⟨cells, hcells, hshown⟩ := Memo.Holds.column_blocks hholds
  refine ⟨_, hmemo, hholds.size_eq, cells, ?_, hshown⟩
  rw [Memo.toColumn_self haccepts]
  exact congrArg (Except.map _) hcells

/-- Blocks of any width, zero included. A column made from a table has the entries of the table in the order of
their slots, and the operations over chunks come out as for any other type, unless the blocks are lost. Then
the column is empty: no distinct element is given out, there is a count without a value, and the first key
points nowhere. -/
theorem blocks_unless_lost :
    (∀ (hash : (blockType width).layout.Key → UInt64)
      (requests : List (Memo.Request (blockType width).layout.Key)),
      (∀ key, .insert key ∈ requests → List.length key = width) →
      ∃ memo, Memo.create .fixedSizeBinary (blockType width) hash capacity = .ok memo ∧
        let served := (trace Memo.serve memo requests).2
        let entries := (trace Memo.Entries.serve [] requests).2
        served.size = entries.length ∧
        ∃ cells : Cells (.block width),
          Memo.toColumn .fixedSizeBinary (blockType width) served (blockType width) =
            .ok ⟨blockType width, cells⟩ ∧
          (¬Lost width entries → cells.toList.map (Option.map Subtype.val) = entries) ∧
          (Lost width entries → cells.toList = [])) ∧
    ∀ chunks : List (Cells (blockType width).layout),
      let all := chunks.flatMap Cells.toList
      let values := all.filter Option.isSome
      let columns := chunks.map (Column.mk (blockType width))
      (all.eraseDups.length ≤ Memo.largestSlot + 1 →
        (∃ cells, uniqueChunked (blockType width) columns capacity = .ok ⟨blockType width, cells⟩ ∧
          (¬Lost width all → cells.toList = all.eraseDups) ∧ (Lost width all → cells.toList = [])) ∧
        (¬Lost width all →
          ∃ s values counts, valueCountsChunked (blockType width) columns capacity = .ok s ∧
            s.Counts values counts ∧ values.length = counts.length ∧
            values.toList.zip counts.toList = occurrences all) ∧
        (Lost width all → valueCountsChunked (blockType width) columns capacity =
          .error (.internal (.countsLength 1 0)))) ∧
      (values.eraseDups.length ≤ Memo.largestSlot + 1 →
        Distinct.reserveAll .dictionaryEncode chunks = .ok () →
        (¬Lost width values → ∃ encoded dictionary,
          dictionaryEncodeChunked (blockType width) columns capacity = .ok encoded ∧
          List.Forall₂ (fun e c => e.dictionary = ⟨blockType width, dictionary⟩ ∧ Encodes dictionary e.keys c)
            encoded chunks) ∧
        (Lost width values → ∃ i, dictionaryEncodeChunked (blockType width) columns capacity =
          .error (.format (.dictionaryKey 0 i 0)))) :=
  ⟨fun hash _ hkeys => toColumn_blocks hcapacity hash hkeys, fun _ =>
    ⟨fun hslots => ⟨uniqueChunked_blocks hcapacity hslots, valueCountsChunked_blocks hcapacity hslots⟩,
      dictionaryEncodeChunked_blocks hcapacity⟩⟩

end Facades

/-- Beside a null, blocks of width zero are not lost. A dictionary has no null, so there they are. -/
theorem blocks_unless_lost_beside_null :
    letI : Memory := .of47Bits
    let empty : (blockType 0).layout.Element := (⟨[], rfl⟩ : Block 0)
    let columns : List Column :=
      [⟨blockType 0, .ofList [some empty, none]⟩, ⟨blockType 0, .ofList []⟩,
        ⟨blockType 0, .ofList [some empty]⟩]
    Memo.reserve 4 (.block 0) = .ok () ∧
    (∃ memo, Memo.create .fixedSizeBinary (blockType 0) (fun _ => 7) 4 = .ok memo ∧
      let served := (trace Memo.serve memo [.insert [], .insertNull, .insert []]).2
      served.size = 2 ∧ ∃ cells : Cells (.block 0),
        Memo.toColumn .fixedSizeBinary (blockType 0) served (blockType 0) =
          .ok ⟨blockType 0, cells⟩ ∧
        cells.toList.map (Option.map Subtype.val) = [some [], none]) ∧
    (∃ cells, uniqueChunked (blockType 0) columns 4 = .ok ⟨blockType 0, cells⟩ ∧
      cells.toList = [some empty, none]) ∧
    (∃ s values counts, valueCountsChunked (blockType 0) columns 4 = .ok s ∧
      s.Counts values counts ∧
      values.toList.zip counts.toList = [(some empty, some 2#64), (none, some 1#64)]) ∧
    ∃ i, dictionaryEncodeChunked (blockType 0) columns 4 =
      .error (.format (.dictionaryKey 0 i 0)) := by
  intro empty columns
  let memory : Memory := .of47Bits
  have hcapacity : Memo.reserve 4 (.block 0) = .ok () := rfl
  let chunks : List (Cells (blockType 0).layout) :=
    [.ofList [some empty, none], .ofList [], .ofList [some empty]]
  let requests : List (Memo.Request (List UInt8)) := [.insert [], .insertNull, .insert []]
  have hkeys : ∀ key, .insert key ∈ requests → key.length = 0 := by simp [requests]
  obtain ⟨htable, hchunks⟩ := blocks_unless_lost hcapacity
  obtain ⟨memo, hmemo, hsize, cells, hcells, hkept, -⟩ := htable (fun _ => 7) requests hkeys
  obtain ⟨hrecorded, hvalues⟩ := hchunks chunks
  obtain ⟨⟨distinct, hunique, hdistinct, -⟩, hcounts, -⟩ := hrecorded (by decide)
  have hall : ¬Lost 0 (chunks.flatMap Cells.toList) := fun h => h.2.2 (by decide)
  obtain ⟨s, values, counts, hs, hstruct, -, hzip⟩ := hcounts hall
  refine ⟨hcapacity, ⟨memo, hmemo, hsize, cells, hcells, hkept fun h => h.2.2 (by decide)⟩,
    ⟨distinct, hunique, hdistinct hall⟩, ⟨s, values, counts, hs, hstruct, hzip⟩, ?_⟩
  exact (hvalues (by decide) rfl).2 ⟨rfl, by decide, by decide⟩

/-- One block of width zero has a slot and a count and a key, and is lost all the same. -/
theorem exists_lost_block :
    letI : Memory := .of47Bits
    let column : Column := ⟨blockType 0, .ofList [some (⟨[], rfl⟩ : Block 0)]⟩
    (∃ memo, Memo.create .fixedSizeBinary (blockType 0) (fun _ => 7) 0 = .ok memo ∧
      let served := (trace Memo.serve memo [.insert []]).2
      served.size = 1 ∧ ∃ cells : Cells (.block 0),
        Memo.toColumn .fixedSizeBinary (blockType 0) served (blockType 0) =
          .ok ⟨blockType 0, cells⟩ ∧ cells.length = 0) ∧
    (∃ cells, uniqueChunked (blockType 0) [column] 0 = .ok ⟨blockType 0, cells⟩ ∧
      cells.length = 0) ∧
    valueCountsChunked (blockType 0) [column] 0 = .error (.internal (.countsLength 1 0)) ∧
    ∃ i, dictionaryEncodeChunked (blockType 0) [column] 0 =
      .error (.format (.dictionaryKey 0 i 0)) := by
  intro column
  let memory : Memory := .of47Bits
  have hcapacity : Memo.reserve 0 (.block 0) = .ok () := rfl
  let chunks : List (Cells (blockType 0).layout) := [.ofList [some (⟨[], rfl⟩ : Block 0)]]
  have hall : Lost 0 (chunks.flatMap Cells.toList) := ⟨rfl, by decide, by decide⟩
  have hslots : (chunks.flatMap Cells.toList).eraseDups.length ≤ Memo.largestSlot + 1 := by decide
  let requests : List (Memo.Request (List UInt8)) := [.insert []]
  have hkeys : ∀ key, .insert key ∈ requests → key.length = 0 := by simp [requests]
  obtain ⟨memo, hmemo, hsize, cells, hcells, -, hlost⟩ :=
    toColumn_blocks hcapacity (fun _ => 7) hkeys
  obtain ⟨distinct, hunique, -, hempty⟩ := uniqueChunked_blocks hcapacity hslots
  have hroom : Distinct.reserveAll .dictionaryEncode chunks = .ok () := rfl
  obtain ⟨-, hvalues⟩ := dictionaryEncodeChunked_blocks hcapacity (by decide) hroom
  refine ⟨⟨memo, hmemo, hsize, cells, hcells, ?_⟩, ⟨distinct, hunique, ?_⟩,
    (valueCountsChunked_blocks hcapacity hslots).2 hall, hvalues ⟨rfl, by decide, by decide⟩⟩
  · rw [← Cells.length_toList, hlost ⟨rfl, by decide, by decide⟩]
    rfl
  · rw [← Cells.length_toList, hempty hall]
    rfl

end Columnar
