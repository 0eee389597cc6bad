import Columnar.Layout

namespace Columnar

/-- A position of the window is null when its validity bit is off or nothing was stored for it. -/
structure Cells (l : Layout) where
  slots : Array (Option l.Element)
  validity : Option (Array Bool)
  offset : Nat
  length : Nat

namespace Cells

variable {l : Layout}

def ofList (xs : List (Option l.Element)) : Cells l :=
  { slots := xs.toArray, validity := none, offset := 0, length := xs.length }

def ofValues (xs : List l.Element) : Cells l := ofList (xs.map some)

def nulls (l : Layout) (n : Nat) : Cells l :=
  { slots := #[], validity := none, offset := 0, length := n }

def masked (slots : Array (Option l.Element)) (validity : Array Bool) : Cells l :=
  { slots, validity := some validity, offset := 0, length := slots.size }

def withNull (slots : Array (Option l.Element)) (nullSlot : Option Nat) : Cells l :=
  match nullSlot with
  | none => { slots, validity := none, offset := 0, length := slots.size }
  | some null => masked slots ((Array.range slots.size).map (· ≠ null))

def isValid (c : Cells l) (i : Nat) : Bool :=
  match c.validity with
  | none => true
  | some mask => mask.getD (c.offset + i) false

def get (c : Cells l) (i : Nat) : Option l.Element :=
  if i < c.length ∧ c.isValid i then (c.slots[c.offset + i]?).join else none

/-- How far position `i` moves the offsets. What lies under a null moves them as well. -/
def extent (c : Cells l) (i : Nat) : Nat := ((c.slots[c.offset + i]?).join).elim 0 l.extent

def isNull (c : Cells l) (i : Nat) : Bool := (c.get i).isNone

def toList (c : Cells l) : List (Option l.Element) := (List.range c.length).map c.get

def nullCount (c : Cells l) : Nat := c.toList.countP Option.isNone

def values (c : Cells l) : List l.Element := c.toList.filterMap id

/-- A window of the window; what lies beyond its end is cut off. -/
def slice (c : Cells l) (offset length : Nat) : Cells l :=
  { c with offset := c.offset + offset, length := min length (c.length - offset) }

@[simp] theorem length_toList (c : Cells l) : c.toList.length = c.length := by simp [toList]

@[simp] theorem toList_ofList (xs : List (Option l.Element)) : (ofList xs).toList = xs := by
  apply List.ext_getElem (by simp [ofList])
  intro i h _
  have hi : i < xs.length := by simpa [ofList] using h
  simp [toList, ofList, get, isValid, hi]

theorem toList_ofValues (xs : List l.Element) : (ofValues xs).toList = xs.map some :=
  toList_ofList _

@[simp] theorem toList_nulls (n : Nat) : (nulls l n).toList = List.replicate n none := by
  apply List.ext_getElem (by simp [nulls])
  intro i h _
  simp [toList, nulls, get]

theorem nullCount_eq_zero_iff (c : Cells l) : c.nullCount = 0 ↔ none ∉ c.toList := by
  rw [nullCount, List.countP_eq_zero]
  constructor
  · exact fun h hmem => h none hmem rfl
  · intro h x hx hnone
    rw [Option.isNone_iff_eq_none] at hnone
    exact h (hnone ▸ hx)

theorem nullCount_ofValues (xs : List l.Element) : (ofValues xs).nullCount = 0 := by
  rw [nullCount_eq_zero_iff, toList_ofValues]
  simp

theorem map_some_values (c : Cells l) (h : c.nullCount = 0) : c.values.map some = c.toList := by
  rw [nullCount_eq_zero_iff] at h
  rw [values]
  generalize c.toList = xs at h
  induction xs with
  | nil => rfl
  | cons x xs ih =>
    cases x with
    | none => exact absurd List.mem_cons_self h
    | some x => simpa using ih fun hmem => h (List.mem_cons_of_mem _ hmem)

theorem get_eq_getElem? (c : Cells l) (i : Nat) : c.get i = (c.toList[i]?).join := by
  by_cases h : i < c.length
  · simp [toList, h]
  · simp [toList, get, h]

theorem toList_slice (c : Cells l) (o n : Nat) :
    (c.slice o n).toList = (c.toList.drop o).take n := by
  apply List.ext_getElem (by simp [slice])
  intro i h _
  have hi : i < min n (c.length - o) := by simpa [slice] using h
  have hl : o + i < c.length := by omega
  simp [toList, slice, get, isValid, hi, hl, Nat.add_assoc]

end Cells

structure Column where
  type : DataType
  cells : Cells type.layout

namespace Column

def length (c : Column) : Nat := c.cells.length

def as? (c : Column) (t : DataType) : Option (Cells t.layout) :=
  if h : c.type = t then some (h ▸ c.cells) else none

def slice (c : Column) (offset length : Nat) : Column :=
  ⟨c.type, c.cells.slice offset length⟩

theorem as?_eq_some {c : Column} {t : DataType} {x : Cells t.layout} :
    c.as? t = some x ↔ c = ⟨t, x⟩ := by
  obtain ⟨s, y⟩ := c
  unfold as?
  by_cases h : s = t
  · subst h; simp
  · simp [h]

@[simp] theorem as?_mk (t : DataType) (x : Cells t.layout) : (mk t x).as? t = some x :=
  as?_eq_some.mpr rfl

def elements (t : DataType) (c : Column) : List (Option t.Element) := (c.as? t).elim [] Cells.toList

theorem elements_mk {t : DataType} (cells : Cells t.layout) : elements t ⟨t, cells⟩ = cells.toList := by
  rw [elements, as?_mk]
  rfl

theorem exists_cells {t : DataType} {columns : List Column} (h : ∀ c ∈ columns, c.type = t) :
    ∃ chunks : List (Cells t.layout), chunks.map (mk t) = columns := by
  induction columns with
  | nil => exact ⟨[], rfl⟩
  | cons c rest ih =>
    obtain ⟨hc, hrest⟩ := List.forall_mem_cons.mp h
    obtain ⟨chunks, rfl⟩ := ih hrest
    obtain rfl := hc
    exact ⟨c.cells :: chunks, rfl⟩

theorem as?_eq_none {c : Column} {t : DataType} : c.as? t = none ↔ c.type ≠ t := by
  unfold as?
  by_cases h : c.type = t <;> simp [h]

end Column

end Columnar
