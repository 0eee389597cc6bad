import Columnar.Proofs.Distinct.Counts
import Columnar.Proofs.Distinct.Encode
import Columnar.Proofs.Kernel.Calls

namespace Columnar

variable {op : Operation} {t : DataType}

/-- The supported types. Any zone, precision, scale and width will do. -/
inductive DataType.Supported : DataType → Prop
  | null : Supported .null
  | boolean : Supported .boolean
  | int (width : IntegerWidth) : Supported (.int width)
  | uint (width : IntegerWidth) : Supported (.uint width)
  | float32 : Supported .float32
  | float64 : Supported .float64
  | date32 : Supported .date32
  | date64 : Supported .date64
  | seconds : Supported (.time32 .second)
  | milliseconds : Supported (.time32 .millisecond)
  | microseconds : Supported (.time64 .microsecond)
  | nanoseconds : Supported (.time64 .nanosecond)
  | timestamp (unit : TimeUnit) (zone : Option String) : Supported (.timestamp unit zone)
  | decimal128 (precision : ℕ) (scale : ℤ) : Supported (.decimal128 precision scale)
  | binary : Supported .binary
  | utf8 : Supported .utf8
  | fixedSizeBinary (width : ℤ) : Supported (.fixedSizeBinary width)

theorem DataType.supported_iff :
    t.Supported ↔ t = .null ∨ ∃ family, Kernel.family? t = some family := by
  constructor
  · intro h
    cases h with
    | null => exact Or.inl rfl
    | _ => exact Or.inr ⟨_, rfl⟩
  · rintro (rfl | ⟨family, h⟩)
    · exact .null
    · unfold Kernel.family? at h
      split at h <;> first | constructor | cases h

theorem DataType.Supported.layout_ne_none (h : t.Supported) (hnull : t ≠ .null)
    (hwidth : ∀ w, t = .fixedSizeBinary w → 0 ≤ w) : t.layout ≠ .none := by
  cases h with
  | null => exact absurd rfl hnull
  | fixedSizeBinary w =>
    obtain ⟨n, rfl⟩ := Int.eq_ofNat_of_zero_le (hwidth w rfl)
    exact Layout.noConfusion
  | _ => exact Layout.noConfusion

namespace Kernel

variable [Memory] {capacity : ℕ}

theorem create_unsupported (h : ¬t.Supported) :
    create op t capacity = .error (.notImplemented op.name t) := by
  rw [DataType.supported_iff, not_or, not_exists] at h
  obtain ⟨hnull, hfamily⟩ := h
  unfold create
  split
  · exact absurd rfl hnull
  · rw [dif_neg]
    simpa [Option.isSome_iff_exists] using hfamily

theorem exists_create_of_supported (h : t.Supported)
    (hwidth : ∀ w, t = .fixedSizeBinary w → 0 < w)
    (hcapacity : Memo.reserve capacity t.layout = .ok ()) :
    ∃ kernel, create op t capacity = .ok kernel := by
  rw [create_ok_iff]
  by_cases hnull : t = .null
  · exact Or.inl hnull
  · have hfamily := (DataType.supported_iff.mp h).resolve_left hnull
    exact Or.inr ⟨hfamily, h.layout_ne_none hnull fun w hw => (hwidth w hw).le, hcapacity⟩

end Kernel

variable [Memory]

/-- Why a column is not taken in: it is of another type, or there is no room for its keys. -/
def Column.fault? (op : Operation) (t : DataType) (column : Column) : Option Failure :=
  if column.type ≠ t then some (.invalidInput (.chunkType t column.type))
  else
    match (Tally.empty op).reserve column.length with
    | .error e => some e
    | .ok () => none

theorem Column.fault?_other {column : Column} (h : column.type ≠ t) :
    column.fault? op t = some (.invalidInput (.chunkType t column.type)) :=
  if_pos h

theorem Column.fault?_mk (cells : Cells t.layout) :
    Column.fault? op t ⟨t, cells⟩ =
      match (Tally.empty op).reserve cells.length with
      | .error e => some e
      | .ok () => none :=
  if_neg (not_not_intro rfl)

namespace Distinct

theorem feed_fault {kernel : Kernel op t} {history : List (Option t.Element)}
    (h : kernel.Holds (.after op history [])) (columns : List Column)
    (hroom : (op.recorded (history ++ columns.flatMap (Column.elements t))).eraseDups.length ≤
      Memo.largestSlot + 1) {e : Failure} (hfault : columns.findSome? (Column.fault? op t) = some e) :
    feed kernel columns = .error e := by
  induction columns generalizing kernel history with
  | nil => cases hfault
  | cons column columns ih =>
    rw [List.findSome?_cons] at hfault
    rcases hcolumn : column.as? t with _ | cells
    · rw [Column.fault?_other (Column.as?_eq_none.mp hcolumn)] at hfault
      obtain rfl := Option.some.inj hfault
      simp only [feed, Kernel.append_other hcolumn, bind, Except.bind]
    · obtain rfl := Column.as?_eq_some.mp hcolumn
      rw [Column.fault?_mk] at hfault
      rw [List.flatMap_cons, Column.elements_mk, ← List.append_assoc] at hroom
      cases hc : (Tally.empty op).reserve cells.length with
      | error e' =>
        rw [hc] at hfault
        obtain rfl := Option.some.inj hfault
        exact feed_cons_refused h hc columns
      | ok _ =>
        rw [hc] at hfault
        obtain ⟨next, hnext, hfeed⟩ := feed_cons h hc
          ((Ledger.length_recorded_eraseDups_le op _ _).trans hroom) columns
        rw [hfeed, ih hnext hroom hfault]
        rfl

theorem exists_chunks {columns : List Column}
    (h : columns.findSome? (Column.fault? op t) = none) :
    ∃ chunks : List (Cells t.layout), columns = chunks.map (Column.mk t) ∧
      reserveAll op chunks = .ok () := by
  induction columns with
  | nil => exact ⟨[], rfl, rfl⟩
  | cons column columns ih =>
    rw [List.findSome?_cons] at h
    rcases hcolumn : column.as? t with _ | cells
    · rw [Column.fault?_other (Column.as?_eq_none.mp hcolumn)] at h
      cases h
    · obtain rfl := Column.as?_eq_some.mp hcolumn
      rw [Column.fault?_mk] at h
      cases hc : (Tally.empty op).reserve cells.length with
      | error e =>
        rw [hc] at h
        cases h
      | ok _ =>
        rw [hc] at h
        obtain ⟨chunks, rfl, hreserve⟩ := ih h
        refine ⟨cells :: chunks, rfl, ?_⟩
        rw [reserveAll, hc]
        exact hreserve

end Distinct

open Distinct

variable {columns : List Column} {capacity : ℕ}

theorem Operation.chunked_of_pass_error {e : Failure} (h : pass op t columns capacity = .error e) :
    op.chunked t columns capacity = .error e := by
  cases op <;>
    simp only [chunked, uniqueChunked, valueCountsChunked, dictionaryEncodeChunked, h, bind,
      Except.bind]

section Chunked

variable (hkernel : ∃ kernel, Kernel.create op t capacity = .ok kernel) (ht : t ≠ .fixedSizeBinary 0)

include hkernel ht

/-- After a pass that comes to its end, nothing fails any more. -/
theorem Operation.chunked_ok {chunks : List (Cells t.layout)}
    (hfits : t.layout.Fits (op.recorded (chunks.flatMap Cells.toList)).eraseDups)
    (hreserve : reserveAll op chunks = .ok ()) :
    ∃ result, op.chunked t (chunks.map (Column.mk t)) capacity = .ok result := by
  obtain ⟨done, entries, hdone, houtcome, hall⟩ := pass_done hkernel ht chunks hfits hreserve
  cases op with
  | unique => exact ⟨done.dictionary, by rw [chunked, uniqueChunked, hdone]; rfl⟩
  | valueCounts =>
    rw [Operation.recorded_eq_self rfl] at hall
    obtain ⟨s, -, hs, -⟩ := valueCountsChunked_of_outcome hdone houtcome hall
    exact ⟨s, hs⟩
  | dictionaryEncode =>
    have hslots : entries.length ≤ Memo.largestSlot + 1 := by
      rw [← Cells.length_toList, hall]
      exact hfits.slots
    obtain ⟨encoded, hencoded, -⟩ := encodes_of_outcome hdone houtcome hall hslots
    exact ⟨encoded, hencoded⟩

variable (hfits : t.layout.Fits (op.recorded (columns.flatMap (Column.elements t))).eraseDups)

include hfits

omit ht in
theorem Operation.chunked_of_fault {e : Failure}
    (hfault : columns.findSome? (Column.fault? op t) = some e) :
    op.chunked t columns capacity = .error e := by
  obtain ⟨kernel, hcreate⟩ := hkernel
  have hfeed := feed_fault (Kernel.create_after hcreate) columns (by simpa using hfits.slots) hfault
  apply chunked_of_pass_error
  simp only [Distinct.pass, hcreate, hfeed, bind, Except.bind]

theorem Operation.chunked_of_faultless (h : columns.findSome? (Column.fault? op t) = none) :
    ∃ result, op.chunked t columns capacity = .ok result := by
  obtain ⟨chunks, rfl, hreserve⟩ := exists_chunks h
  have helements : (chunks.map (Column.mk t)).flatMap (Column.elements t) =
      chunks.flatMap Cells.toList := by
    rw [List.flatMap_map]
    exact congrArg (chunks.flatMap ·) (funext Column.elements_mk)
  rw [helements] at hfits
  exact chunked_ok hkernel ht hfits hreserve

end Chunked

theorem findSome?_fault
    (h : ∀ column ∈ columns, Capacity.reserveItems 4 column.length = .ok ()) :
    columns.findSome? (Column.fault? op t) =
      ((columns.map Column.type).find? (· ≠ t)).map fun s => .invalidInput (.chunkType t s) := by
  induction columns with
  | nil => rfl
  | cons column columns ih =>
    obtain ⟨hcolumn, hcolumns⟩ := List.forall_mem_cons.mp h
    rw [List.findSome?_cons, Column.fault?, Tally.reserve_empty_of_keys op hcolumn, ih hcolumns,
      List.map_cons, List.find?_cons]
    by_cases htype : column.type = t <;> simp [htype]

/-- A type that is not supported is refused, whatever the chunks are. Otherwise the first chunk of another type
is, and if there is none there is a result. The bounds on what can be counted and stored are those of the slots
and of the offsets of one column; a chunk whose keys there is no room for is refused like one of another
type. -/
theorem Operation.chunked_classified (op : Operation) (t : DataType) (columns : List Column)
    (capacity : ℕ) :
    (¬t.Supported → op.chunked t columns capacity = .error (.notImplemented op.name t)) ∧
    (t.Supported → (∀ w, t = .fixedSizeBinary w → 0 < w) → Memo.reserve capacity t.layout = .ok () →
      t.layout.Fits (op.recorded (columns.flatMap (Column.elements t))).eraseDups →
      (∀ e, columns.findSome? (Column.fault? op t) = some e →
        op.chunked t columns capacity = .error e) ∧
      (columns.findSome? (Column.fault? op t) = none →
        ∃ result, op.chunked t columns capacity = .ok result) ∧
      ((∀ column ∈ columns, Capacity.reserveItems 4 column.length = .ok ()) →
        (∀ s, (columns.map Column.type).find? (· ≠ t) = some s →
          op.chunked t columns capacity = .error (.invalidInput (.chunkType t s))) ∧
        ((∀ column ∈ columns, column.type = t) →
          ∃ result, op.chunked t columns capacity = .ok result))) := by
  constructor
  · intro h
    apply chunked_of_pass_error
    simp only [Distinct.pass, Kernel.create_unsupported h, bind, Except.bind]
  · intro h hwidth hcapacity hfits
    have ht : t ≠ .fixedSizeBinary 0 := fun hzero => absurd (hwidth 0 hzero) (lt_irrefl 0)
    have hkernel : ∃ kernel, Kernel.create op t capacity = .ok kernel :=
      Kernel.exists_create_of_supported h hwidth hcapacity
    have hfault := @chunked_of_fault op t _ columns capacity hkernel hfits
    have hnone := chunked_of_faultless hkernel ht hfits
    refine ⟨@hfault, hnone, fun hroom => ⟨fun s hs => ?_, fun htypes => ?_⟩⟩
    · apply hfault
      rw [findSome?_fault hroom, hs]
      rfl
    · apply hnone
      rw [findSome?_fault hroom, List.find?_eq_none.mpr (by simpa using htypes)]
      rfl

omit [Memory] in
/-- Time zones that name the same offset are different all the same. A list type is refused without a look at
the chunks, even at those of other types. -/
theorem Operation.chunked_classified_zoned :
    letI : Memory := .of47Bits
    let t : DataType := .timestamp .second (some "UTC")
    let other : DataType := .timestamp .second (some "+00:00")
    let list : DataType := .list (.item .int32)
    let chunk : Column := ⟨t, .ofList [some 5#64, none, some 5#64]⟩
    let stray : Column := ⟨other, .ofList [some 5#64]⟩
    t.Supported ∧ (∀ w, t = .fixedSizeBinary w → 0 < w) ∧ Memo.reserve 5 t.layout = .ok () ∧
    t.layout.Fits (Operation.dictionaryEncode.recorded
      ([chunk, stray, chunk].flatMap (Column.elements t))).eraseDups ∧
    (∀ column ∈ [chunk, stray, chunk], Capacity.reserveItems 4 column.length = .ok ()) ∧
    dictionaryEncodeChunked t [chunk, stray, chunk] 5 = .error (.invalidInput (.chunkType t other)) ∧
    (∃ encoded, dictionaryEncodeChunked t [chunk, chunk] 5 = .ok encoded) ∧ ¬list.Supported ∧
    valueCountsChunked list [stray, chunk] 5 = .error (.notImplemented "value_counts" list) := by
  intro t other list chunk stray
  let memory : Memory := .of47Bits
  have hsupported : t.Supported := .timestamp .second (some "UTC")
  have hwidth : ∀ w, t = .fixedSizeBinary w → 0 < w := fun w h => DataType.noConfusion h
  have hcapacity : Memo.reserve 5 t.layout = .ok () := rfl
  have hlist : ¬(DataType.list (.item .int32)).Supported := nofun
  have hdistinct : (Operation.dictionaryEncode.recorded
      ([chunk, stray, chunk].flatMap (Column.elements t))).eraseDups = [some 5#64] := rfl
  have hfits : t.layout.Fits (Operation.dictionaryEncode.recorded
      ([chunk, stray, chunk].flatMap (Column.elements t))).eraseDups := by
    rw [hdistinct]
    exact ⟨by decide, by decide⟩
  have hroom : ∀ column ∈ [chunk, stray, chunk], Capacity.reserveItems 4 column.length = .ok () := by
    intro column hcolumn
    fin_cases hcolumn <;> rfl
  obtain ⟨-, -, hstray⟩ := (chunked_classified .dictionaryEncode t [chunk, stray, chunk] 5).2
    hsupported hwidth hcapacity hfits
  obtain ⟨-, hchunks, -⟩ := (chunked_classified .dictionaryEncode t [chunk, chunk] 5).2 hsupported
    hwidth hcapacity hfits
  exact ⟨hsupported, hwidth, hcapacity, hfits, hroom, (hstray hroom).1 other (by decide),
    hchunks rfl, hlist, (chunked_classified .valueCounts list [stray, chunk] 5).1 hlist⟩

end Columnar
