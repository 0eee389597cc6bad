import Columnar.Proofs.Column.Chunks
import Columnar.Proofs.Distinct.Ends
import Columnar.Proofs.Distinct.Rechunk

namespace Columnar

variable [Memory] {op : Operation} {t : DataType} {capacity : ℕ}

/-- Room that is there when it is asked for does not show. -/
theorem Kernel.create_capacity (op : Operation) (h : Memo.reserve capacity t.layout = .ok ()) :
    create op t capacity = create op t 0 := by
  have hmemo (family : MemoFamily) (hash : t.layout.Key → UInt64) :
      Memo.create family t hash capacity = Memo.create family t hash 0 := by
    rw [Memo.create, Memo.create, h, Memo.reserve_zero]
  unfold create
  split
  · rfl
  · simp only [hmemo]

theorem Distinct.pass_capacity (op : Operation) (chunks : List Column)
    (h : Memo.reserve capacity t.layout = .ok ()) :
    pass op t chunks capacity = pass op t chunks 0 := by
  rw [pass, pass, Kernel.create_capacity op h]

/-- A column encoded whole beside its pieces encoded together: either both are refused for the same reason, or
every piece has the dictionary of the whole and the keys of the pieces are one after another those of the
whole. -/
inductive EncodedAlike (pieces : ℕ) :
    Except Failure Encoded → Except Failure (List Encoded) → Prop
  | refused (e : Failure) : EncodedAlike pieces (.error e) (.error e)
  | encoded {whole : Encoded} {encoded : List Encoded} (hlength : encoded.length = pieces)
    (hdictionary : ∀ e ∈ encoded, e.dictionary = whole.dictionary)
    (hkeys : encoded.flatMap (·.keys.toList) = whole.keys.toList) :
    EncodedAlike pieces (.ok whole) (.ok encoded)

theorem Distinct.EncodesTo.alike {c : Cells t.layout} {pieces : ℕ}
    {encoded : Except Failure (List Encoded)}
    {rows : Except Failure (Column × List (Option (BitVec 32)))}
    (hwhole : EncodesTo 1 (dictionaryEncodeChunked t [⟨t, c⟩] 0) rows)
    (hencoded : EncodesTo pieces encoded rows) :
    EncodedAlike pieces (Column.dictionaryEncode ⟨t, c⟩) encoded := by
  rw [Column.dictionaryEncode]
  generalize dictionaryEncodeChunked t [⟨t, c⟩] 0 = alone at hwhole
  cases hwhole with
  | refused e =>
    cases hencoded with
    | refused e => exact .refused e
  | encoded hone hdictionary hkeys =>
    cases hencoded with
    | encoded hlength hpieces hpieceKeys =>
      obtain ⟨whole, rfl⟩ := List.length_eq_one_iff.mp hone
      rw [List.flatMap_singleton] at hkeys
      have hwhole := hdictionary whole (List.mem_singleton_self _)
      exact .encoded hlength (fun e he => (hpieces e he).trans hwhole.symm)
        (hpieceKeys.trans hkeys.symm)

theorem Distinct.reserveAll_pieces (c : Cells t.layout) (step : ℕ)
    (h : (Tally.empty op).reserve c.length = .ok ()) :
    reserveAll op (c.pieces step) = .ok () := by
  apply reserveAll_eq_ok_iff.mpr
  intro piece hpiece
  obtain ⟨i, hi⟩ := List.mem_iff_getElem?.mp hpiece
  have hlength : piece.length ≤ c.length := by
    rw [c.getElem?_pieces hi]
    exact (min_le_right _ _).trans (Nat.sub_le _ _)
  exact Tally.reserve_of_le hlength h

section Pieces

variable (c : Cells t.layout) {step : ℕ} (hstep : 0 < step)
  (hcapacity : Memo.reserve capacity t.layout = .ok ())

include hstep

omit [Memory] in
theorem flatMap_pieces_singleton : (c.pieces step).flatMap Cells.toList = [c].flatMap Cells.toList := by
  rw [c.flatMap_pieces hstep, List.flatMap_singleton]

include hcapacity

theorem uniqueChunked_pieces :
    uniqueChunked t ((c.pieces step).map (Column.mk t)) capacity = Column.unique ⟨t, c⟩ := by
  rw [uniqueChunked_rechunk (flatMap_pieces_singleton c hstep), uniqueChunked,
    Distinct.pass_capacity .unique _ hcapacity]
  rfl

theorem valueCountsChunked_pieces :
    valueCountsChunked t ((c.pieces step).map (Column.mk t)) capacity =
      Column.valueCounts ⟨t, c⟩ := by
  rw [valueCountsChunked_rechunk (flatMap_pieces_singleton c hstep), valueCountsChunked,
    Distinct.pass_capacity .valueCounts _ hcapacity]
  rfl

theorem dictionaryEncodeChunked_pieces (ht : t ≠ .fixedSizeBinary 0) :
    EncodedAlike (c.pieces step).length (Column.dictionaryEncode ⟨t, c⟩)
        (dictionaryEncodeChunked t ((c.pieces step).map (Column.mk t)) capacity) ∨
      (∃ e, Capacity.reserveItems 4 c.length = .error e) ∧
        ∃ fault, Column.dictionaryEncode ⟨t, c⟩ = .error (.capacity fault) := by
  rw [dictionaryEncodeChunked, Distinct.pass_capacity _ _ hcapacity, ← dictionaryEncodeChunked]
  cases hcreate : Kernel.create .dictionaryEncode t 0 with
  | error e =>
    left
    simp only [Column.dictionaryEncode, dictionaryEncodeChunked, Distinct.pass, hcreate, bind, Except.bind]
    exact .refused e
  | ok kernel =>
    have hone : Distinct.reserveAll .dictionaryEncode [c] = Capacity.reserveItems 4 c.length := by
      rw [Distinct.reserveAll, Tally.reserve_empty_keys]
      cases Capacity.reserveItems 4 c.length <;> rfl
    cases hreserve : Capacity.reserveItems 4 c.length with
    | error e =>
      rw [hreserve] at hone
      obtain ⟨fault, hfault⟩ := Distinct.dictionaryEncodeChunked_unreserved ⟨kernel, hcreate⟩ [c] hone
      refine Or.inr ⟨⟨e, rfl⟩, fault, ?_⟩
      rw [Column.dictionaryEncode, ← List.map_singleton, hfault]
      rfl
    | ok _ =>
      left
      rw [hreserve] at hone
      have hpieces := Distinct.reserveAll_pieces c step 
        (Tally.reserve_empty_of_keys .dictionaryEncode hreserve)
      obtain ⟨rows, hwhole, hpieces⟩ := Distinct.dictionaryEncodeChunked_rechunk ⟨kernel, hcreate⟩
        [c] ht (flatMap_pieces_singleton c hstep) hone hpieces
      exact hwhole.alike hpieces

theorem chunked_pieces (op : Operation) (hsupported : t.Supported)
    (hwidth : ∀ w, t = .fixedSizeBinary w → 0 < w)
    (hfits : t.layout.Fits (op.recorded c.toList).eraseDups)
    (hroom : Capacity.reserveItems 4 c.length = .ok ()) :
    ∃ result, op.chunked t ((c.pieces step).map (Column.mk t)) capacity = .ok result := by
  have hkernel : ∃ kernel, Kernel.create op t capacity = .ok kernel :=
    Kernel.exists_create_of_supported hsupported hwidth hcapacity
  have ht : t ≠ .fixedSizeBinary 0 := fun hzero => absurd (hwidth 0 hzero) (lt_irrefl 0)
  have hreserve := Distinct.reserveAll_pieces c step (Tally.reserve_empty_of_keys op hroom)
  rw [← c.flatMap_pieces hstep] at hfits
  exact Operation.chunked_ok hkernel ht hfits hreserve

end Pieces

/-- The chunks of a column are the column, and the operations on them come to what they come to on the column,
failures included. Only the keys of the whole column need room all at once: without it the column itself is not
encoded. A column of a supported type is not too much for an operation as long as what is distinct in it fits. -/
theorem Column.chunks_alike (c : Column) (chunkLength : ℕ) {capacity : ℕ}
    (hcapacity : Memo.reserve capacity c.type.layout = .ok ()) :
    c.CutInto (max chunkLength 1) (c.chunks chunkLength) ∧
    uniqueChunked c.type (c.chunks chunkLength) capacity = c.unique ∧
    valueCountsChunked c.type (c.chunks chunkLength) capacity = c.valueCounts ∧
    (c.type ≠ .fixedSizeBinary 0 →
      EncodedAlike (c.chunks chunkLength).length c.dictionaryEncode
          (dictionaryEncodeChunked c.type (c.chunks chunkLength) capacity) ∨
        (∃ e, Capacity.reserveItems 4 c.length = .error e) ∧
          ∃ fault, c.dictionaryEncode = .error (.capacity fault)) ∧
    (c.type.Supported → (∀ w, c.type = .fixedSizeBinary w → 0 < w) →
      Capacity.reserveItems 4 c.length = .ok () →
      ∀ op : Operation, c.type.layout.Fits (op.recorded c.cells.toList).eraseDups →
        ∃ result, op.chunked c.type (c.chunks chunkLength) capacity = .ok result) := by
  refine ⟨c.cutInto_chunks chunkLength, ?_⟩
  obtain ⟨t, c⟩ := c
  have hstep : 0 < max chunkLength 1 := by omega
  rw [chunks_mk, List.length_map]
  exact ⟨uniqueChunked_pieces c hstep hcapacity, valueCountsChunked_pieces c hstep hcapacity,
    dictionaryEncodeChunked_pieces c hstep hcapacity, fun hsupported hwidth hroom op hfits =>
      chunked_pieces c hstep hcapacity op hsupported hwidth hfits hroom⟩

omit [Memory] in
/-- A window on repeated elements, empty bytes and nulls, cut in twos and, a length of zero counting as one,
in ones. -/
theorem Column.chunks_alike_window :
    letI : Memory := .of47Bits
    let column : Column :=
      ⟨.binary, (Cells.ofList [some [3], some [1], none, some [], some [1], none]).slice 1 5⟩
    Memo.reserve 5 column.type.layout = .ok () ∧
    (column.chunks 2).map Column.length = [2, 2, 1] ∧
    (column.chunks 0).map Column.length = [1, 1, 1, 1, 1] ∧
    column.CutInto 2 (column.chunks 2) ∧ column.CutInto 1 (column.chunks 0) ∧
    uniqueChunked .binary (column.chunks 2) 5 = column.unique ∧
    valueCountsChunked .binary (column.chunks 0) 5 = column.valueCounts ∧
    EncodedAlike (column.chunks 2).length column.dictionaryEncode
      (dictionaryEncodeChunked .binary (column.chunks 2) 5) ∧
    ∃ encoded, dictionaryEncodeChunked .binary (column.chunks 2) 5 = .ok encoded := by
  intro column
  let memory : Memory := .of47Bits
  have hcapacity : Memo.reserve 5 column.type.layout = .ok () := rfl
  have htype : column.type ≠ .fixedSizeBinary 0 := by decide
  have hroom : Capacity.reserveItems 4 column.length = .ok () := rfl
  have hdistinct : (Operation.dictionaryEncode.recorded column.cells.toList).eraseDups =
      [some [1], some []] := rfl
  have hfits : column.type.layout.Fits
      (Operation.dictionaryEncode.recorded column.cells.toList).eraseDups := by
    rw [hdistinct]
    exact ⟨by decide, by decide⟩
  obtain ⟨htwos, hunique, -, hencoded, hchunked⟩ := column.chunks_alike 2 hcapacity
  obtain ⟨hones, -, hcounts, -⟩ := column.chunks_alike 0 hcapacity
  have halike := (hencoded htype).resolve_right fun ⟨⟨_, hrefused⟩, _⟩ =>
    nomatch hroom.symm.trans hrefused
  exact ⟨hcapacity, by decide, by decide, htwos, hones, hunique, hcounts, halike,
    hchunked .binary (fun w h => DataType.noConfusion h) hroom .dictionaryEncode hfits⟩

end Columnar
