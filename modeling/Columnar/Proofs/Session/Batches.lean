import Columnar.Proofs.Distinct.Rechunk
import Columnar.Proofs.Session.Reading
import Columnar.Session

namespace Columnar

/-! ### Tables of chunks -/

namespace Table

variable {t : DataType}

def rowText (t : DataType) (zone : Option ℤ) : Option t.Element → Except Failure String
  | some x => elementText t zone t.layout x
  | none => .ok ""

theorem texts_mk (cells : Cells t.layout) :
    (Column.mk t cells).texts =
      zoneOffset t >>= fun zone => cells.toList.mapM (rowText t zone) := by
  rw [Column.texts]
  congr 1
  funext zone
  congr 1
  funext x
  cases x <;> rfl

theorem mapM_texts {chunks : List (Cells t.layout)} (hne : chunks ≠ []) :
    List.flatten <$> (chunks.map (Column.mk t)).mapM Column.texts =
      zoneOffset t >>= fun zone => (chunks.flatMap Cells.toList).mapM (rowText t zone) := by
  simp only [List.mapM_map, Function.comp_def, texts_mk]
  cases zoneOffset t with
  | error e =>
    obtain ⟨c, rest, rfl⟩ := List.exists_cons_of_ne_nil hne
    rw [List.mapM_cons]
    rfl
  | ok zone =>
    clear hne
    change List.flatten <$> chunks.mapM (fun c => c.toList.mapM (rowText t zone)) =
      (chunks.flatMap Cells.toList).mapM (rowText t zone)
    induction chunks with
    | nil => rfl
    | cons c chunks ih =>
      rw [List.flatMap_cons, List.mapM_append, ← ih, List.mapM_cons]
      simp only [map_bind, bind_map_left, map_pure, List.flatten_cons]

/-- A table of one column shows its rows, in whatever chunks they come. -/
theorem ofChunks_rechunk (name : String) {chunks others : List (Cells t.layout)}
    (hne : chunks ≠ []) (hne' : others ≠ [])
    (hrows : others.flatMap Cells.toList = chunks.flatMap Cells.toList) :
    ofChunks name (others.map (Column.mk t)) = ofChunks name (chunks.map (Column.mk t)) := by
  have htable (columns : List Column) : ofChunks name columns =
      (fun texts => ⟨[name], texts.map ([·])⟩) <$> List.flatten <$> columns.mapM Column.texts := by
    rw [ofChunks]
    cases columns.mapM Column.texts <;> rfl
  rw [htable, htable, mapM_texts hne, mapM_texts hne', hrows]

end Table

/-! ### Commands -/

namespace Session

variable [Memory] (config : Config) {files others : FileStore} {path other column : String}
  {t : DataType} {batches rebatched : List (Cells t.layout)}
  (hread : readColumn files path column = .ok ⟨t, batches.map (Column.mk t)⟩)
  (hreread : readColumn others other column = .ok ⟨t, rebatched.map (Column.mk t)⟩)
  (hrows : rebatched.flatMap Cells.toList = batches.flatMap Cells.toList)

section Whole

include hread hreread hrows

theorem unique_rebatched : unique config others other column = unique config files path column := by
  simp only [unique, hread, hreread, bind, Except.bind, uniqueChunked_rechunk hrows]

theorem valueCounts_rebatched :
    valueCounts config others other column = valueCounts config files path column := by
  simp only [valueCounts, hread, hreread, bind, Except.bind, valueCountsChunked_rechunk hrows]

end Whole

omit [Memory] in
def encodedText (column : String) : List Encoded → Except Failure String
  | [] => .ok ""
  | first :: rest => do
    let dictionary ← Table.ofChunks column [first.dictionary]
    let keys ← Table.ofChunks "index" ((first :: rest).map fun e => ⟨.int32, e.keys⟩)
    return dictionary.text ++ "\n" ++ keys.text

include hread in
theorem dictionaryEncode_eq : dictionaryEncode config files path column =
    dictionaryEncodeChunked t (batches.map (Column.mk t)) config.hash.memoCapacity >>=
      encodedText column := by
  simp only [dictionaryEncode, hread, bind, Except.bind]
  cases dictionaryEncodeChunked t (batches.map (Column.mk t)) config.hash.memoCapacity with
  | error e => rfl
  | ok encoded => cases encoded <;> rfl

omit [Memory] in
/-- The text shows the dictionary, which is that of the first batch, and the keys of all batches. -/
theorem encodedText_congr {encoded recoded : List Encoded} {dictionary : Column}
    (hne : encoded ≠ []) (hne' : recoded ≠ [])
    (hdictionary : ∀ e ∈ encoded, e.dictionary = dictionary)
    (hdictionary' : ∀ e ∈ recoded, e.dictionary = dictionary)
    (hkeys : recoded.flatMap (·.keys.toList) = encoded.flatMap (·.keys.toList)) :
    encodedText column recoded = encodedText column encoded := by
  obtain ⟨first, rest, rfl⟩ := List.exists_cons_of_ne_nil hne
  obtain ⟨first', rest', rfl⟩ := List.exists_cons_of_ne_nil hne'
  have hindices : Table.ofChunks "index" ((first' :: rest').map fun e => ⟨.int32, e.keys⟩) =
      Table.ofChunks "index" ((first :: rest).map fun e => ⟨.int32, e.keys⟩) := by
    have hkeys : ((first' :: rest').map (·.keys)).flatMap Cells.toList =
        ((first :: rest).map (·.keys)).flatMap Cells.toList := by
      simpa only [List.flatMap_map] using hkeys
    have htables := Table.ofChunks_rechunk "index" (t := .int32) (by simp) (by simp) hkeys
    rwa [List.map_map, List.map_map] at htables
  rw [encodedText, encodedText, hdictionary _ List.mem_cons_self, hdictionary' _ List.mem_cons_self,
    hindices]

omit [Memory] in
theorem bind_encodedText_congr {m n : ℕ} (hm : m ≠ 0) (hn : n ≠ 0)
    {encoding recoding : Except Failure (List Encoded)}
    {rows : Except Failure (Column × List (Option (BitVec 32)))}
    (h : Distinct.EncodesTo m encoding rows) (h' : Distinct.EncodesTo n recoding rows) :
    recoding >>= encodedText column = encoding >>= encodedText column := by
  cases h with
  | refused e =>
    cases h'
    rfl
  | encoded hlength hdictionary hkeys =>
    cases h' with
    | encoded hlength' hdictionary' hkeys' =>
      refine encodedText_congr ?_ ?_ hdictionary hdictionary' (hkeys'.trans hkeys.symm)
      · rintro rfl
        exact hm hlength.symm
      · rintro rfl
        exact hn hlength'.symm

section Encode

include hread

theorem dictionaryEncode_uncreated {e : Failure}
    (hcreate : Kernel.create .dictionaryEncode t config.hash.memoCapacity = .error e) :
    dictionaryEncode config files path column = .error e := by
  rw [dictionaryEncode_eq config hread]
  simp only [dictionaryEncodeChunked, Distinct.pass, hcreate, bind, Except.bind]

theorem dictionaryEncode_unreserved
    (hkernel : ∃ kernel, Kernel.create .dictionaryEncode t config.hash.memoCapacity = .ok kernel)
    {e : Failure} (hreserve : Distinct.reserveAll .dictionaryEncode batches = .error e) :
    ∃ fault, dictionaryEncode config files path column = .error (.capacity fault) := by
  obtain ⟨fault, hfault⟩ := Distinct.dictionaryEncodeChunked_unreserved hkernel batches hreserve
  refine ⟨fault, ?_⟩
  rw [dictionaryEncode_eq config hread, hfault]
  rfl

include hreread hrows

theorem dictionaryEncode_rebatched (ht : t ≠ .fixedSizeBinary 0) (hne : batches ≠ [])
    (hne' : rebatched ≠ []) (hreserve : Distinct.reserveAll .dictionaryEncode batches = .ok ())
    (hreserve' : Distinct.reserveAll .dictionaryEncode rebatched = .ok ()) :
    dictionaryEncode config others other column = dictionaryEncode config files path column := by
  cases hcreate : Kernel.create .dictionaryEncode t config.hash.memoCapacity with
  | error e =>
    rw [dictionaryEncode_uncreated config hread hcreate,
      dictionaryEncode_uncreated config hreread hcreate]
  | ok kernel =>
    obtain ⟨rows, hencodes, hencodes'⟩ := Distinct.dictionaryEncodeChunked_rechunk ⟨kernel, hcreate⟩
      batches ht hrows hreserve hreserve'
    rw [dictionaryEncode_eq config hread, dictionaryEncode_eq config hreread]
    exact bind_encodedText_congr (by simpa using hne) (by simpa using hne') hencodes hencodes'

end Encode

/-- Room for the keys of every batch of a column. -/
def KeysFit (file : ColumnFile) (column : String) : Prop :=
  ∀ c ∈ file.column column, Capacity.reserveItems 4 c.length = .ok ()

instance (file : ColumnFile) (column : String) : Decidable (KeysFit file column) :=
  inferInstanceAs (Decidable (∀ c ∈ file.column column, Capacity.reserveItems 4 c.length = .ok ()))

theorem keysFit_iff {file : ColumnFile} {u : DataType}
    (h : batches.map (Column.mk t) = file.column column) :
    KeysFit file column ↔
      Distinct.reserveAll (t := u) .dictionaryEncode (batches.map (Cells.relaid u.layout)) = .ok () := by
  rw [Distinct.reserveAll_eq_ok_iff, KeysFit, ← h]
  simp only [List.forall_mem_map, Tally.reserve_empty_keys, Cells.length_relaid]
  rfl

omit [Memory] in
theorem readColumn_eq {file : ColumnFile} (hfile : files path = .ok (.columns file)) :
    readColumn files path column = file.readColumn path column := by
  rw [readColumn, hfile]

/-- Two files with the same rows of a column print the same for it, however they cut the rows into batches,
also into none for what has no keys. Keys need room batch by batch: where there is too little for a batch, its
file fails for lack of capacity. -/
theorem run_rebatched {file refile : ColumnFile} (hfile : files path = .ok (.columns file))
    (hrefile : others other = .ok (.columns refile)) (htype : file.schema.lookup column = some t)
    (hretype : refile.schema.lookup column = some t)
    (hrows : refile.rows column t = file.rows column t) :
    let created := Kernel.create .dictionaryEncode t.stored config.hash.memoCapacity
    run config others (.unique other column) = run config files (.unique path column) ∧
    run config others (.valueCounts other column) = run config files (.valueCounts path column) ∧
    (t ≠ .fixedSizeBinary 0 → file.batches ≠ [] → refile.batches ≠ [] →
      KeysFit file column → KeysFit refile column →
      run config others (.dictionaryEncode other column) =
        run config files (.dictionaryEncode path column)) ∧
    (∀ e, created = .error e →
      run config files (.dictionaryEncode path column) = .error e ∧
      run config others (.dictionaryEncode other column) = .error e) ∧
    ((∃ kernel, created = .ok kernel) → ¬KeysFit file column →
      ∃ fault, run config files (.dictionaryEncode path column) = .error (.capacity fault)) := by
  intro created
  obtain ⟨batches, hlength, hbatches, hread⟩ := ColumnFile.exists_readColumn htype path
  obtain ⟨rebatched, hrelength, hrebatches, hreread⟩ := ColumnFile.exists_readColumn hretype other
  rw [← readColumn_eq hfile] at hread
  rw [← readColumn_eq hrefile] at hreread
  rw [ColumnFile.rows_eq hbatches, ColumnFile.rows_eq hrebatches] at hrows
  -- A file is read in the stored type of its column, and equal rows stay equal in it.
  have hrows := Cells.flatMap_toList_relaid t.stored.layout hrows
  have hkeys := keysFit_iff (u := t.stored) hbatches
  have hrekeys := keysFit_iff (u := t.stored) hrebatches
  refine ⟨unique_rebatched config hread hreread hrows,
    valueCounts_rebatched config hread hreread hrows, fun ht hne hne' hfit hrefit => ?_,
    fun e hcreate => ⟨dictionaryEncode_uncreated config hread hcreate,
      dictionaryEncode_uncreated config hreread hcreate⟩, fun hkernel hover => ?_⟩
  · refine dictionaryEncode_rebatched config hread hreread hrows
      (mt DataType.eq_of_stored_fixedSizeBinary ht) ?_ ?_ (hkeys.mp hfit) (hrekeys.mp hrefit)
    · intro hempty
      rw [List.map_eq_nil_iff.mp hempty] at hlength
      exact hne (List.length_eq_zero_iff.mp hlength.symm)
    · intro hempty
      rw [List.map_eq_nil_iff.mp hempty] at hrelength
      exact hne' (List.length_eq_zero_iff.mp hrelength.symm)
  · cases hreserve : Distinct.reserveAll .dictionaryEncode
        (batches.map (Cells.relaid t.stored.layout)) with
    | ok _ => exact absurd (hkeys.mpr hreserve) hover
    | error e => exact dictionaryEncode_unreserved config hread hkernel hreserve

omit [Memory] in
/-- The same rows in two batches, in three of which one is empty, and, of a type that has nulls only, in batches
whose keys would fill the memory. -/
theorem run_rebatched_halves :
    letI : Memory := .of47Bits
    let halves : List (Cells DataType.utf8.layout) :=
      [.ofList [some "a", none], .ofList [some "b", some "a"]]
    let thirds : List (Cells DataType.utf8.layout) :=
      [.ofList [some "a"], .ofList [], .ofList [none, some "b", some "a"]]
    let few : List (Cells DataType.null.layout) := [.nulls _ 2305843009213693952]
    let more : List (Cells DataType.null.layout) :=
      [.nulls _ 1152921504606846976, .nulls _ 1152921504606846976]
    let files : FileStore := fun path =>
      if path = "halves" then .ok (.columns (.ofCells "x" halves))
      else if path = "thirds" then .ok (.columns (.ofCells "x" thirds))
      else if path = "few" then .ok (.columns (.ofCells "x" few))
      else .ok (.columns (.ofCells "x" more))
    let config : Config := .default
    run config files (.unique "thirds" "x") = run config files (.unique "halves" "x") ∧
    run config files (.dictionaryEncode "thirds" "x") =
      run config files (.dictionaryEncode "halves" "x") ∧
    run config files (.valueCounts "more" "x") = run config files (.valueCounts "few" "x") ∧
    ∃ fault, run config files (.dictionaryEncode "few" "x") = .error (.capacity fault) := by
  intro halves thirds few more files config
  let memory : Memory := .of47Bits
  have htexts : (ColumnFile.ofCells "x" thirds).rows "x" .utf8 =
      (ColumnFile.ofCells "x" halves).rows "x" .utf8 := rfl
  have hnulls : (ColumnFile.ofCells "x" more).rows "x" .null =
      (ColumnFile.ofCells "x" few).rows "x" .null :=
    ColumnFile.rows_split_nulls "x" .null 1152921504606846976 1152921504606846976
  have hhalves : files "halves" = .ok (.columns (.ofCells "x" halves)) := rfl
  have hthirds : files "thirds" = .ok (.columns (.ofCells "x" thirds)) := rfl
  have hfew : files "few" = .ok (.columns (.ofCells "x" few)) := rfl
  have hmore : files "more" = .ok (.columns (.ofCells "x" more)) := rfl
  obtain ⟨hunique, -, hencode, -, -⟩ := run_rebatched config hhalves hthirds rfl rfl htexts
  obtain ⟨-, hcounts, -, -, hunreserved⟩ := run_rebatched config hfew hmore rfl rfl hnulls
  refine ⟨hunique, ?_, hcounts, hunreserved ⟨_, rfl⟩ ?_⟩
  · exact hencode (by decide) (by decide) (by decide) (by decide) (by decide)
  · intro hfit
    cases hfit _ List.mem_cons_self

omit [Memory] in
/-- Batches of one length do not fail as batches of another do. -/
theorem dictionaryEncode_unlike_rebatched :
    letI : Memory := .of47Bits
    let few : List (Cells DataType.null.layout) := [.nulls _ 2305843009213693952]
    let more : List (Cells DataType.null.layout) :=
      [.nulls _ 1152921504606846976, .nulls _ 1152921504606846976]
    let files : FileStore := fun path =>
      if path = "few" then .ok (.columns (.ofCells "x" few)) else .ok (.columns (.ofCells "x" more))
    let config : Config := .default
    DataType.null ≠ .fixedSizeBinary 0 ∧ few ≠ [] ∧ more ≠ [] ∧
    (ColumnFile.ofCells "x" more).rows "x" .null = (ColumnFile.ofCells "x" few).rows "x" .null ∧
    run config files (.dictionaryEncode "few" "x") = .error (.capacity .allocationOverflow) ∧
    run config files (.dictionaryEncode "more" "x") = .error (.capacity .allocationRefused) := by
  intro few more files config
  have hnulls : (ColumnFile.ofCells "x" more).rows "x" .null =
      (ColumnFile.ofCells "x" few).rows "x" .null :=
    ColumnFile.rows_split_nulls "x" .null 1152921504606846976 1152921504606846976
  exact ⟨by decide, by simp [few], by simp [more], hnulls, rfl, rfl⟩

end Session

end Columnar
