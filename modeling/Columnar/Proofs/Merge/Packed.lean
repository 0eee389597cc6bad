import Columnar.Proofs.Merge.Taken
import Columnar.Proofs.Number.Bytes

namespace Columnar

namespace Position

theorem wordBytes_eq (w : UInt32) : wordBytes w = Number.bytes 4 w.toNat := by
  have hbyte (i : UInt32) (k : ℕ) (hi : 2 ^ (i.toNat % 32) = k) :
      (w >>> i).toUInt8 = UInt8.ofNat (w.toNat / k) := by
    apply UInt8.toNat_inj.mp
    rw [UInt32.toNat_toUInt8, UInt32.toNat_shiftRight, Nat.shiftRight_eq_div_pow, hi,
      UInt8.toNat_ofNat']
  rw [wordBytes, hbyte 8 256 rfl, hbyte 16 (256 * 256) rfl, hbyte 24 (256 * 256 * 256) rfl]
  simp only [Number.bytes, Nat.div_div_eq_div_mul]
  rfl

theorem wordOfBytes_eq_ofNat (bs : List UInt8) :
    wordOfBytes bs = UInt32.ofNat (Number.ofBytes bs) := by
  induction bs with
  | nil => rfl
  | cons b rest ih =>
    have hb : b.toNat < 2 ^ 8 := b.toNat_lt
    -- The later bytes have moved out of the way of the first.
    have hmoved : (wordOfBytes rest <<< 8).toNat = 2 ^ 8 * (Number.ofBytes rest % 2 ^ 24) := by
      rw [ih, UInt32.toNat_shiftLeft, UInt32.toNat_ofNat', Nat.shiftLeft_eq]
      change Number.ofBytes rest % 2 ^ 32 * 2 ^ 8 % 2 ^ 32 = _
      omega
    apply UInt32.toNat_inj.mp
    rw [wordOfBytes, UInt32.toNat_or, hmoved, Nat.or_comm, UInt8.toNat_toUInt32,
      ← Nat.two_pow_add_eq_or_of_lt hb, UInt32.toNat_ofNat', Number.ofBytes]
    omega

theorem wordOfBytes_wordBytes (w : UInt32) : wordOfBytes (wordBytes w) = w := by
  rw [wordBytes_eq, wordOfBytes_eq_ofNat, Number.ofBytes_bytes,
    Nat.mod_eq_of_lt (by exact w.toNat_lt), UInt32.ofNat_toNat]

theorem wordBytes_wordOfBytes {bs : List UInt8} (h : bs.length = 4) :
    wordBytes (wordOfBytes bs) = bs := by
  rw [wordBytes_eq, wordOfBytes_eq_ofNat, UInt32.toNat_ofNat']
  calc Number.bytes 4 (Number.ofBytes bs % 256 ^ 4)
      = Number.bytes bs.length (Number.ofBytes bs) := by rw [Number.bytes_mod, h]
    _ = bs := Number.bytes_ofBytes bs

theorem ofBlock_toBlock (p : Position) : ofBlock p.toBlock = p := by
  have hlength : (wordBytes p.array).length = 4 := rfl
  rw [ofBlock, toBlock, List.take_left' hlength, List.drop_left' hlength, wordOfBytes_wordBytes,
    wordOfBytes_wordBytes]

theorem toBlock_ofBlock (block : Block packedWidth) : (ofBlock block).toBlock = block := by
  apply Subtype.ext
  have hlength : block.1.length = 8 := block.2
  change wordBytes (wordOfBytes (block.1.take 4)) ++ wordBytes (wordOfBytes (block.1.drop 4)) = block.1
  rw [wordBytes_wordOfBytes (by simp [hlength]), wordBytes_wordOfBytes (by simp [hlength]),
    List.take_append_drop]

theorem toList_pack (positions : List Position) :
    (pack positions).toList = positions.map (some ∘ toBlock) := by
  rw [pack, Cells.toList_ofValues, List.map_map]

theorem toList_numbers (positions : List Position) (part : Position → UInt32) :
    (numbers positions part).toList = positions.map fun p => some (part p).toBitVec :=
  (Cells.toList_ofValues _).trans List.map_map

theorem length_numbers (positions : List Position) (part : Position → UInt32) :
    (numbers positions part).length = positions.length := by
  rw [← Cells.length_toList, toList_numbers]
  exact List.length_map _

theorem exists_toStruct (positions : List Position) :
    ∃ s, toStruct positions = .ok s ∧ s.fields = fields ∧ s.length = positions.length ∧
      s.columns = [⟨.uint32, numbers positions array⟩, ⟨.uint32, numbers positions offset⟩] := by
  have hnulls (part : Position → UInt32) : (numbers positions part).nullCount = 0 :=
    Cells.nullCount_ofValues _
  have hfits : ∀ pair ∈ fields.zip
      [⟨.uint32, numbers positions array⟩, ⟨.uint32, numbers positions offset⟩],
      pair.1.Fits (numbers positions array).length pair.2 := by
    simp only [fields, List.zip_cons_cons, List.zip_nil_right, List.forall_mem_cons]
    exact ⟨⟨rfl, rfl, Or.inr (hnulls array)⟩,
      ⟨rfl, (length_numbers _ _).trans (length_numbers _ _).symm, Or.inr (hnulls offset)⟩, by simp⟩
  exact ⟨_, StructColumn.ofColumns_eq_ok rfl hfits, rfl, length_numbers _ _, rfl⟩

section Unpack

theorem mapM_id_eq_none {α : Type} {xs : List (Option α)} (h : none ∈ xs) : xs.mapM id = none := by
  induction xs with
  | nil => cases h
  | cons x xs ih =>
    rw [List.mapM_cons]
    cases x with
    | none => rfl
    | some x => rw [ih (by simpa using h)]; rfl

theorem unpack_width {width : ℕ} (packed : Cells (.block width)) (h : width ≠ packedWidth) :
    unpack packed = .error (.invalidInput (.packedWidth width)) :=
  dif_neg h

variable (packed : Cells (.block packedWidth))

theorem unpack_null (h : none ∈ packed.toList) :
    unpack packed = .error (.invalidInput .packedNulls) := by
  rw [unpack, dif_pos rfl, mapM_id_eq_none h]

theorem unpack_values (h : none ∉ packed.toList) :
    ∃ positions, unpack packed = .ok positions ∧ (pack positions).toList = packed.toList := by
  obtain ⟨blocks, hblocks⟩ : ∃ blocks : List (Block packedWidth), blocks.map some = packed.toList := by
    refine (Set.ext_iff.mp (Set.range_list_map some) packed.toList).mpr fun x hx => ?_
    exact Option.ne_none_iff_exists.mp fun hnone => h (hnone ▸ hx)
  have hread : packed.toList.mapM id = some blocks := by
    rw [← hblocks, List.mapM_map]
    exact List.mapM_pure.trans (congrArg some (List.map_id blocks))
  refine ⟨blocks.map ofBlock, ?_, ?_⟩
  · rw [unpack, dif_pos rfl, hread]
  · rw [toList_pack, ← hblocks, List.map_map]
    exact List.map_congr_left fun block _ => congrArg some (toBlock_ofBlock block)

end Unpack

theorem unpack_pack (positions : List Position) : unpack (pack positions) = .ok positions := by
  obtain ⟨others, hok, hsame⟩ := unpack_values (pack positions) (by simp [toList_pack])
  have hinj : Function.Injective (some ∘ toBlock) :=
    (Option.some_injective _).comp (Function.LeftInverse.injective ofBlock_toBlock)
  rw [toList_pack, toList_pack] at hsame
  rw [hok, hinj.list_map hsame]

/-- Positions come back from their packed form, of eight bytes each, and from their two columns. Blocks are
refused exactly where they have another width or a null is among them, and all other blocks are the packed form
of what they are read as, byte for byte. -/
theorem packed_readBack (positions : List Position) {width : ℕ} (packed : Cells (.block width)) :
    unpack (pack positions) = .ok positions ∧
    (pack positions).toList.map (Option.map Subtype.val) = positions.map (fun p =>
      some (Number.bytes 4 p.array.toNat ++ Number.bytes 4 p.offset.toNat)) ∧
    (∃ s, ∃ arrays offsets : Cells DataType.uint32.layout, toStruct positions = .ok s ∧
      s.fields = [.plain "array_id" .uint32 false, .plain "offset" .uint32 false] ∧
      s.length = positions.length ∧ s.columns = [⟨.uint32, arrays⟩, ⟨.uint32, offsets⟩] ∧
      arrays.toList.zip offsets.toList =
        positions.map fun p => (some p.array.toBitVec, some p.offset.toBitVec)) ∧
    ((∃ fault, unpack packed = .error (.invalidInput fault)) ↔
      width ≠ packedWidth ∨ none ∈ packed.toList) ∧
    (width = packedWidth → none ∉ packed.toList → ∃ read, unpack packed = .ok read ∧
      (pack read).toList.map (Option.map Subtype.val) =
        packed.toList.map (Option.map Subtype.val)) := by
  obtain ⟨s, hs, hfields, hlength, hcolumns⟩ := exists_toStruct positions
  refine ⟨unpack_pack positions, ?_, ⟨s, _, _, hs, hfields, hlength, hcolumns, ?_⟩, ⟨?_, ?_⟩, ?_⟩
  · rw [toList_pack, List.map_map]
    refine List.map_congr_left fun p _ => ?_
    simp [toBlock, wordBytes_eq]
  · exact (congrArg₂ List.zip (toList_numbers positions array)
      (toList_numbers positions offset)).trans List.zip_map'
  · rintro ⟨fault, hrefused⟩
    by_contra! haccepted
    obtain ⟨rfl, hvalues⟩ := haccepted
    obtain ⟨read, hread, -⟩ := unpack_values packed hvalues
    rw [hread] at hrefused
    cases hrefused
  · intro hbad
    by_cases hwidth : width = packedWidth
    · subst hwidth
      exact ⟨_, unpack_null packed (hbad.resolve_left (not_not_intro rfl))⟩
    · exact ⟨_, unpack_width packed hwidth⟩
  · rintro rfl hvalues
    obtain ⟨read, hread, hsame⟩ := unpack_values packed hvalues
    exact ⟨read, hread, by rw [hsame]⟩

/-- The null lies before the window. The last block is the largest number of an array beside an offset with four
different bytes. -/
theorem packed_readBack_slice :
    let positions : List Position := [⟨3, 7⟩, ⟨0xffffffff, 0x01020304⟩]
    let blocks : List (Block 8) :=
      [⟨[3, 0, 0, 0, 7, 0, 0, 0], rfl⟩, ⟨[255, 255, 255, 255, 4, 3, 2, 1], rfl⟩]
    let packed : Cells (.block 8) := (Cells.ofList (none :: blocks.map some)).slice 1 2
    8 = packedWidth ∧ none ∉ packed.toList ∧ unpack (pack positions) = .ok positions ∧
    unpack packed = .ok positions ∧
    ∃ read, unpack packed = .ok read ∧
      (pack read).toList.map (Option.map Subtype.val) =
        packed.toList.map (Option.map Subtype.val) := by
  intro positions blocks packed
  have hvalues : none ∉ packed.toList := by decide
  obtain ⟨hback, -, -, -, hread⟩ := packed_readBack positions packed
  exact ⟨rfl, hvalues, hback, rfl, hread rfl hvalues⟩

end Position

end Columnar
