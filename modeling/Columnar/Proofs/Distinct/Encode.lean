import Columnar.Proofs.Distinct.Pass
import Columnar.Proofs.Kernel.Keys

namespace Columnar

namespace Distinct

variable {t : DataType}

section Keys

variable {dictionary chunk : Cells t.layout} (hslots : dictionary.length ≤ Memo.largestSlot + 1)
  (hchunk : ∀ x, some x ∈ chunk.toList → some x ∈ dictionary.toList)

def keysOf (dictionary chunk : Cells t.layout) : Cells DataType.int32.layout :=
  (PendingKeys.ofSlots (Ledger.slots dictionary.toList chunk.toList)).cells

theorem toList_keysOf (dictionary chunk : Cells t.layout) :
    (keysOf dictionary chunk).toList = chunk.toList.map
      (Option.map fun x => PendingKeys.key (dictionary.toList.idxOf (some x))) := by
  rw [keysOf, PendingKeys.toList_cells_ofSlots, Ledger.slots, List.map_map]
  simp [Function.comp_def]

include hslots hchunk

theorem encodes_keysOf : Encodes dictionary (keysOf dictionary chunk) chunk :=
  encodes_of_slots hslots hchunk (PendingKeys.toList_cells_ofSlots _)

theorem encode_keysOf :
    encode ⟨t, dictionary⟩ ⟨.int32, keysOf dictionary chunk⟩ =
      .ok ⟨keysOf dictionary chunk, ⟨t, dictionary⟩⟩ := by
  unfold encode
  rw [Column.as?_mk]
  dsimp only
  split
  · next key i hfind =>
    -- A key that fails the check would be a position past the end of the dictionary.
    have houtside := List.find?_some hfind
    have hkey := List.fst_mem_of_mem_zipIdx (List.mem_of_find?_eq_some hfind)
    rw [toList_keysOf, List.mem_map] at hkey
    obtain ⟨x, hx, hmap⟩ := hkey
    obtain ⟨x, rfl, rfl⟩ := Option.map_eq_some_iff.mp hmap
    obtain ⟨hint, hlt⟩ := PendingKeys.toInt_key_idxOf hslots hchunk hx
    simp only [Option.any_some, hint, Int.toNat_natCast, Bool.or_eq_true, decide_eq_true_eq,
      Column.length] at houtside
    omega
  · rfl

end Keys

theorem outputs_dictionaryEncode (dictionary : Cells t.layout) (chunks : List (Cells t.layout)) :
    outputs .dictionaryEncode dictionary.toList chunks = chunks.map (keysOf dictionary) := by
  rw [outputs, ← List.flatMap_singleton' (chunks.map (keysOf dictionary)), List.flatMap_map]
  rfl

theorem mapM_encode {dictionary : Cells t.layout} (hslots : dictionary.length ≤ Memo.largestSlot + 1)
    (chunks : List (Cells t.layout))
    (hchunks : ∀ c ∈ chunks, ∀ x, some x ∈ c.toList → some x ∈ dictionary.toList) :
    ((chunks.map (keysOf dictionary)).map (Column.mk .int32)).mapM (encode ⟨t, dictionary⟩) =
      .ok (chunks.map fun c => ⟨keysOf dictionary c, ⟨t, dictionary⟩⟩) := by
  induction chunks with
  | nil => rfl
  | cons c chunks ih =>
    rw [List.map_cons, List.map_cons, List.mapM_cons, encode_keysOf hslots (hchunks c (by simp)),
      ih fun d hd => hchunks d (List.mem_cons_of_mem _ hd)]
    rfl

theorem some_mem_entries {chunks : List (Cells t.layout)} {x : t.Element} :
    some x ∈ (Operation.dictionaryEncode.recorded (chunks.flatMap Cells.toList)).eraseDups ↔
      ∃ c ∈ chunks, some x ∈ c.toList := by
  rw [List.mem_eraseDups, Operation.mem_recorded, List.mem_flatMap]
  simp

section Outcome

variable [Memory] {capacity : ℕ} {chunks : List (Cells t.layout)} {entries : Cells t.layout}
  {done : Pass .dictionaryEncode t}
  (hdone : pass .dictionaryEncode t (chunks.map (Column.mk t)) capacity = .ok done)
  (houtcome : Outcome chunks entries done)

include hdone houtcome

theorem dictionaryEncodeChunked_of_outcome :
    dictionaryEncodeChunked t (chunks.map (Column.mk t)) capacity =
      done.outputs.mapM (encode ⟨t, entries⟩) := by
  have hlength : done.outputs.length = chunks.length := by
    rw [houtcome.outputs, outputs, List.length_map, List.length_flatMap]
    simp [Operation.keys]
  rw [dictionaryEncodeChunked, hdone]
  simp only [bind, Except.bind, List.length_map, hlength, if_true, houtcome.dictionary]

section Shown

variable (hall : entries.toList =
    (Operation.dictionaryEncode.recorded (chunks.flatMap Cells.toList)).eraseDups)
  (hslots : entries.length ≤ Memo.largestSlot + 1)

include hall hslots

/-- Where the dictionary shows everything, the keys of each chunk lead into it. -/
theorem dictionaryEncodeChunked_keysOf :
    dictionaryEncodeChunked t (chunks.map (Column.mk t)) capacity =
        .ok (chunks.map fun c => ⟨keysOf entries c, ⟨t, entries⟩⟩) ∧
      ∀ c ∈ chunks, ∀ x, some x ∈ c.toList → some x ∈ entries.toList := by
  have hchunks : ∀ c ∈ chunks, ∀ x, some x ∈ c.toList → some x ∈ entries.toList := by
    intro c hc x hx
    rw [hall, some_mem_entries]
    exact ⟨c, hc, hx⟩
  have houtputs : done.outputs = (chunks.map (keysOf entries)).map (Column.mk .int32) := by
    rw [houtcome.outputs, ← hall, outputs_dictionaryEncode]
  rw [dictionaryEncodeChunked_of_outcome hdone houtcome, houtputs]
  exact ⟨mapM_encode hslots chunks hchunks, hchunks⟩

theorem encodes_of_outcome :
    ∃ encoded, dictionaryEncodeChunked t (chunks.map (Column.mk t)) capacity = .ok encoded ∧
      List.Forall₂ (fun e c => e.dictionary = ⟨t, entries⟩ ∧ Encodes entries e.keys c)
        encoded chunks := by
  obtain ⟨hencoded, hchunks⟩ := dictionaryEncodeChunked_keysOf hdone houtcome hall hslots
  refine ⟨_, hencoded, ?_⟩
  exact List.forall₂_map_left_iff.mpr (List.forall₂_same.mpr fun c hc =>
    ⟨rfl, encodes_keysOf hslots (hchunks c hc)⟩)

end Shown

end Outcome

end Distinct

/-- Wherever there is room for the keys, every chunk reads back through one dictionary of the distinct values,
in which no null is. Room is asked for chunk by chunk, and the first chunk that has none fails the whole. -/
theorem dictionaryEncodeChunked_encodes [Memory] {t : DataType} {capacity : ℕ}
    (hkernel : ∃ kernel, Kernel.create .dictionaryEncode t capacity = .ok kernel)
    (ht : t ≠ .fixedSizeBinary 0) (chunks : List (Cells t.layout))
    (hfits : t.layout.Fits ((chunks.flatMap Cells.toList).filter Option.isSome).eraseDups) :
    (Distinct.reserveAll .dictionaryEncode chunks = .ok () → ∃ encoded dictionary,
      dictionaryEncodeChunked t (chunks.map (Column.mk t)) capacity = .ok encoded ∧
      dictionary.toList = ((chunks.flatMap Cells.toList).filter Option.isSome).eraseDups ∧
      none ∉ dictionary.toList ∧ dictionary.toList.Nodup ∧
      List.Forall₂ (fun e c => e.dictionary = ⟨t, dictionary⟩ ∧ Encodes dictionary e.keys c)
        encoded chunks) ∧
    ∀ e, Distinct.reserveAll .dictionaryEncode chunks = .error e →
      dictionaryEncodeChunked t (chunks.map (Column.mk t)) capacity = .error e ∧
        ∃ fault, e = .capacity fault := by
  rw [← Operation.recorded_dictionaryEncode] at hfits ⊢
  constructor
  · intro hreserve
    obtain ⟨done, dictionary, hdone, houtcome, hall⟩ :=
      Distinct.pass_done hkernel ht chunks hfits hreserve
    have hslots : dictionary.length ≤ Memo.largestSlot + 1 := by
      rw [← Cells.length_toList, hall]
      exact hfits.slots
    obtain ⟨encoded, hencoded, hreads⟩ := Distinct.encodes_of_outcome hdone houtcome hall hslots
    refine ⟨encoded, dictionary, hencoded, hall, ?_, ?_, hreads⟩
    · rw [hall, List.mem_eraseDups, Operation.mem_recorded]
      simp [Operation.memoizesNulls]
    · rw [hall]
      exact Ledger.nodup_eraseDups _
  · intro e hreserve
    refine ⟨?_, Distinct.reserveAll_error hreserve⟩
    rw [dictionaryEncodeChunked, Distinct.pass_refused hkernel chunks hfits hreserve]
    rfl

/-- A null over a zero, and a zero and a null in a chunk whose keys come later. -/
theorem dictionaryEncodeChunked_encodes_zoned :
    letI : Memory := .of47Bits
    let t : DataType := .timestamp .millisecond (some "+01:00")
    let chunks : List (Cells t.layout) :=
      [.masked #[some 0#64, some 5#64] #[false, true], .ofList [],
        (Cells.ofList [some 9#64, none, some 0#64, some 5#64]).slice 1 3]
    (∃ kernel, Kernel.create .dictionaryEncode t 5 = .ok kernel) ∧ t ≠ .fixedSizeBinary 0 ∧
    t.layout.Fits ((chunks.flatMap Cells.toList).filter Option.isSome).eraseDups ∧
    Distinct.reserveAll .dictionaryEncode chunks = .ok () ∧
    ∃ encoded dictionary, dictionaryEncodeChunked t (chunks.map (Column.mk t)) 5 = .ok encoded ∧
      dictionary.toList = [some 5#64, some 0#64] ∧
      List.Forall₂ (fun e c => e.dictionary = ⟨t, dictionary⟩ ∧ Encodes dictionary e.keys c)
        encoded chunks := by
  intro t chunks
  let memory : Memory := .of47Bits
  have hkernel : ∃ kernel, Kernel.create .dictionaryEncode t 5 = .ok kernel :=
    ⟨_, Kernel.create_eq_ok .dictionaryEncode rfl (by decide) rfl⟩
  have htype : t ≠ .fixedSizeBinary 0 := by decide
  have hdistinct : ((chunks.flatMap Cells.toList).filter Option.isSome).eraseDups =
      [some 5#64, some 0#64] := rfl
  have hfits : t.layout.Fits ((chunks.flatMap Cells.toList).filter Option.isSome).eraseDups := by
    rw [hdistinct]
    exact ⟨by decide, by decide⟩
  have hreserve : Distinct.reserveAll .dictionaryEncode chunks = .ok () := rfl
  obtain ⟨encoded, dictionary, hok, hlist, -, -, hall⟩ :=
    (dictionaryEncodeChunked_encodes hkernel htype chunks hfits).1 hreserve
  exact ⟨hkernel, htype, hfits, hreserve, encoded, dictionary, hok, hlist.trans hdistinct, hall⟩

/-- Nulls need no slot, but their keys need room. -/
theorem dictionaryEncodeChunked_nulls_refused :
    letI : Memory := .of47Bits
    let chunks : List (Cells DataType.null.layout) := [.nulls _ 2305843009213693952]
    (∃ kernel, Kernel.create .dictionaryEncode .null 0 = .ok kernel) ∧
    DataType.null ≠ .fixedSizeBinary 0 ∧
    DataType.null.layout.Fits ((chunks.flatMap Cells.toList).filter Option.isSome).eraseDups ∧
    dictionaryEncodeChunked .null (chunks.map (Column.mk .null)) 0 =
      .error (.capacity .allocationOverflow) := by
  intro chunks
  have hnone : (chunks.flatMap Cells.toList).filter Option.isSome = [] := by
    rw [List.flatMap_singleton, Cells.toList_nulls, List.filter_replicate_of_neg (by simp)]
  refine ⟨⟨_, rfl⟩, by decide, ?_, rfl⟩
  rw [hnone]
  exact ⟨by decide, by decide⟩

end Columnar
