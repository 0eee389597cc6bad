import Columnar.ColumnFile
import Mathlib.Data.List.Basic

namespace Columnar

theorem lookup_zip_eq_findIdx? {α β : Type} [DecidableEq α] (key : α) (keys : List α) (xs : List β) :
    (keys.zip xs).lookup key = (keys.findIdx? (· = key)).bind (xs[·]?) := by
  induction keys generalizing xs with
  | nil => rfl
  | cons k keys ih =>
    rw [List.findIdx?_cons]
    cases xs with
    | nil => cases keys.findIdx? (· = key) <;> by_cases h : k = key <;> simp [h]
    | cons x xs =>
      rw [List.zip_cons_cons, List.lookup_cons]
      by_cases h : k = key
      · simp [h]
      · have hkey : (key == k) = false := by simpa using Ne.symm h
        rw [hkey, ih, decide_eq_false h, if_neg Bool.false_ne_true, Option.bind_map]
        rfl

/-! ### Rows in another layout -/

namespace Cells

variable {l : Layout}

theorem exists_toList_relaid (l m : Layout) : ∃ f : Option l.Element → Option m.Element,
    ∀ c : Cells l, (c.relaid m).toList = c.toList.map f := by
  by_cases h : l = m
  · subst h
    exact ⟨id, fun c => by rw [relaid, dif_pos rfl, List.map_id]⟩
  · refine ⟨fun _ => none, fun c => ?_⟩
    rw [relaid, dif_neg h, toList_nulls, List.map_const', length_toList]

theorem length_relaid (m : Layout) (c : Cells l) : (c.relaid m).length = c.length := by
  obtain ⟨f, hf⟩ := exists_toList_relaid l m
  rw [← length_toList, hf, List.length_map, length_toList]

theorem flatMap_toList_relaid (m : Layout) {batches rebatched : List (Cells l)}
    (hrows : rebatched.flatMap toList = batches.flatMap toList) :
    (rebatched.map (relaid m)).flatMap toList = (batches.map (relaid m)).flatMap toList := by
  obtain ⟨f, hf⟩ := exists_toList_relaid l m
  simp only [List.flatMap_map, hf, ← List.map_flatMap, hrows]

end Cells

/-! ### The rows of a file -/

theorem DataType.eq_of_stored_fixedSizeBinary {t : DataType} {width : ℕ}
    (h : t.stored = .fixedSizeBinary width) : t = .fixedSizeBinary width := by
  cases t with
  | time32 unit | time64 unit => cases unit <;> simp [stored] at h
  | timestamp unit zone => unfold stored at h; split at h <;> simp_all
  | fixedSizeBinary _ => simpa [stored] using h
  | _ => simp [stored] at h

namespace ColumnFile

variable {file : ColumnFile} {name : String} {t : DataType}

def column (file : ColumnFile) (name : String) : List Column :=
  file.batches.filterMap fun batch => ((file.schema.map Prod.fst).zip batch).lookup name

def rows (file : ColumnFile) (name : String) (t : DataType) : List (Option t.Element) :=
  (file.column name).flatMap (Column.elements t)

theorem rows_eq {batches : List (Cells t.layout)} (h : batches.map (Column.mk t) = file.column name) :
    file.rows name t = batches.flatMap Cells.toList := by
  rw [rows, ← h, List.flatMap_map]
  simp only [Column.elements_mk]

section Lookup

variable (ht : file.schema.lookup name = some t)

include ht

/-- The place of the column, the same in the schema and in every batch. -/
theorem exists_place : ∃ i, file.schema.findIdx? (·.1 = name) = some i ∧
    (file.schema.map Prod.snd)[i]? = some t ∧
    ∀ batch : List Column, ((file.schema.map Prod.fst).zip batch).lookup name = batch[i]? := by
  have hschema : (file.schema.map Prod.fst).zip (file.schema.map Prod.snd) = file.schema := by
    rw [List.zip_map', List.map_id']
  rw [← hschema, lookup_zip_eq_findIdx?, Option.bind_eq_some_iff] at ht
  obtain ⟨i, hi, htype⟩ := ht
  refine ⟨i, ?_, htype, fun batch => ?_⟩
  · rw [← hi, List.findIdx?_map]
    rfl
  · rw [lookup_zip_eq_findIdx?, hi]
    rfl

/-- A column that the schema has can be read, batch by batch. -/
theorem exists_readColumn (path : String) : ∃ batches : List (Cells t.layout),
    batches.length = file.batches.length ∧ batches.map (Column.mk t) = file.column name ∧
    file.readColumn path name = .ok ⟨t.stored,
      (batches.map (Cells.relaid t.stored.layout)).map (Column.mk t.stored)⟩ := by
  obtain ⟨i, hi, htype, hlookup⟩ := exists_place ht
  have hcolumn : file.column name = file.batches.filterMap (·[i]?) := by
    rw [column]
    simp only [hlookup]
  -- Every batch has the types of the schema, so what it has at this place is of type `t`.
  have hplace : ∀ batch ∈ file.batches, ∃ c, batch[i]? = some c ∧ c.type = t := by
    intro batch hbatch
    rwa [← file.types_eq batch hbatch, List.getElem?_map, Option.map_eq_some_iff] at htype
  have htypes : ∀ c ∈ file.column name, c.type = t := by
    intro c hc
    rw [hcolumn] at hc
    obtain ⟨batch, hbatch, hget⟩ := List.mem_filterMap.mp hc
    obtain ⟨d, hd, hdtype⟩ := hplace batch hbatch
    obtain rfl : d = c := Option.some.inj (hd.symm.trans hget)
    exact hdtype
  obtain ⟨batches, hbatches⟩ := Column.exists_cells htypes
  refine ⟨batches, ?_, hbatches, ?_⟩
  · rw [← List.length_map (Column.mk t), hbatches, hcolumn, List.filterMap_length_eq_length]
    intro batch hbatch
    obtain ⟨c, hc, -⟩ := hplace batch hbatch
    rw [hc]
    rfl
  · have hname : (file.schema.map (·.2)).getD i .null = t := by
      rw [List.getD_eq_getElem?_getD, htype]
      rfl
    rw [readColumn, findColumn, hi]
    simp only [hname, bind, Except.bind]
    rw [← hcolumn, ← hbatches, List.map_map, List.map_map]
    rfl

end Lookup

def ofCells (name : String) (batches : List (Cells t.layout)) : ColumnFile where
  schema := [(name, t)]
  batches := batches.map fun c => [⟨t, c⟩]
  types_eq := by simp

theorem column_ofCells (name : String) (batches : List (Cells t.layout)) :
    (ofCells name batches).column name = batches.map (Column.mk t) := by
  simp [column, ofCells, List.filterMap_map]

theorem rows_ofCells (name : String) (batches : List (Cells t.layout)) :
    (ofCells name batches).rows name t = batches.flatMap Cells.toList := by
  apply rows_eq
  rw [column_ofCells]

theorem rows_split_nulls (name : String) (t : DataType) (m n : ℕ) :
    (ofCells name [.nulls t.layout m, .nulls t.layout n]).rows name t =
      (ofCells name [.nulls t.layout (m + n)]).rows name t := by
  rw [rows_ofCells, rows_ofCells, List.flatMap_cons, List.flatMap_singleton, List.flatMap_singleton,
    Cells.toList_nulls, Cells.toList_nulls, Cells.toList_nulls, List.replicate_add]

end ColumnFile

end Columnar
