import Columnar.Column
import Columnar.Failure

namespace Columnar

structure Field.Fits (length : Nat) (field : Field) (column : Column) : Prop where
  type : column.type = field.type
  length : column.length = length
  nulls : field.nullable ∨ column.cells.nullCount = 0

/-- Columns of one length, each under its field. -/
structure StructColumn where
  fields : List Field
  columns : List Column
  length : Nat
  length_eq : fields.length = columns.length
  fits : ∀ pair ∈ fields.zip columns, pair.1.Fits length pair.2

namespace StructColumn

def type (s : StructColumn) : DataType := .struct (.ofList s.fields)

def named (s : StructColumn) : List (String × Column) := (s.fields.map (·.name)).zip s.columns

def check (length : Nat) (field : Field) (column : Column) : Except Failure Unit :=
  if column.type ≠ field.type then
    .error (.format (.structType field.name field.type column.type))
  else if column.length ≠ length then
    .error (.format (.structLength field.name length column.length))
  else if !field.nullable && column.cells.nullCount ≠ 0 then
    .error (.format (.structNulls field.name))
  else .ok ()

def checkAll (length : Nat) : List (Field × Column) → Except Failure Unit
  | [] => .ok ()
  | (field, column) :: rest => do
    check length field column
    checkAll length rest

theorem check_eq_ok_iff {length : Nat} {field : Field} {column : Column} :
    check length field column = .ok () ↔ field.Fits length column := by
  constructor
  · intro h
    unfold check at h
    split at h
    · cases h
    · split at h
      · cases h
      · split at h
        · cases h
        next htype hlength hnulls =>
          refine ⟨Decidable.not_not.mp htype, Decidable.not_not.mp hlength, ?_⟩
          cases hnullable : field.nullable <;> simp_all
  · rintro ⟨htype, hlength, hnulls⟩
    rw [check, if_neg (not_not_intro htype), if_neg (not_not_intro hlength), if_neg]
    cases hnulls <;> simp_all

theorem checkAll_eq_ok_iff {length : Nat} {pairs : List (Field × Column)} :
    checkAll length pairs = .ok () ↔ ∀ pair ∈ pairs, pair.1.Fits length pair.2 := by
  induction pairs with
  | nil => simp [checkAll]
  | cons pair rest ih =>
    obtain ⟨field, column⟩ := pair
    rw [List.forall_mem_cons, ← ih, ← check_eq_ok_iff, checkAll]
    cases hfirst : check length field column with
    | error e => simp [bind, Except.bind]
    | ok _ => exact ⟨fun h => ⟨rfl, h⟩, fun h => h.2⟩

/-- The length is that of the first column, so there must be one. -/
def ofColumns (fields : List Field) (columns : List Column) : Except Failure StructColumn :=
  match columns with
  | [] => .error (.format .noStructColumns)
  | first :: rest =>
    if hcount : fields.length = (first :: rest).length then
      match hcheck : checkAll first.length (fields.zip (first :: rest)) with
      | .error e => .error e
      | .ok () => .ok ⟨fields, first :: rest, first.length, hcount, checkAll_eq_ok_iff.mp hcheck⟩
    else .error (.format (.structColumns fields.length (first :: rest).length))

theorem ofColumns_eq_ok {fields : List Field} {first : Column} {rest : List Column}
    (hcount : fields.length = (first :: rest).length)
    (h : ∀ pair ∈ fields.zip (first :: rest), pair.1.Fits first.length pair.2) :
    ofColumns fields (first :: rest) = .ok ⟨fields, first :: rest, first.length, hcount, h⟩ := by
  rw [ofColumns, dif_pos hcount]
  split
  · next e he =>
    rw [checkAll_eq_ok_iff.mpr h] at he
    cases he
  · rfl

end StructColumn

end Columnar
