import Columnar.Memo
import Columnar.Proofs.Layout.Order
import Columnar.Proofs.Memo.Bytes
import Columnar.Proofs.Memo.Tables

namespace Columnar

theorem DataType.layout_ne_block_zero {t : DataType} (ht : t ≠ .fixedSizeBinary 0) :
    t.layout ≠ .block 0 := by
  unfold layout
  split <;> simp_all

namespace Layout

/-- The keys a table of the layout takes. Only a table of blocks is particular about them. -/
def Takes : (l : Layout) → l.Key → Prop
  | .block width, string => string.length = width
  | .none, _ | .bit, _ | .word _ _, _ | .text, _ | .bytes, _ => True

theorem takes_key : (l : Layout) → (x : l.Element) → l.Takes (l.key x)
  | .block _, x => x.2
  | .none, _ | .bit, _ | .word _ _, _ | .text, _ | .bytes, _ => trivial

/-- The last offset of a column of these elements. -/
def reach (l : Layout) (xs : List (Option l.Element)) : ℕ := (xs.map (·.elim 0 l.extent)).sum

theorem reach_nulls (l : Layout) (n : ℕ) : l.reach (List.replicate n Option.none) = 0 := by
  simp [reach]

theorem reach_eq_zero {l : Layout} (h : ∀ x, l.extent x = 0) (xs : List (Option l.Element)) :
    l.reach xs = 0 := by
  refine List.sum_eq_zero fun n hn => ?_
  obtain ⟨x, -, rfl⟩ := List.mem_map.mp hn
  cases x with
  | none => rfl
  | some x => exact h x

theorem reach_perm {l : Layout} {xs ys : List (Option l.Element)} (h : List.Perm xs ys) :
    l.reach xs = l.reach ys :=
  (h.map _).sum_eq

/-- The entries that a column can show. Nothing but a null tells blocks of width zero from no blocks. -/
def shown (l : Layout) (xs : List (Option l.Element)) : List (Option l.Element) :=
  if l = .block 0 ∧ Option.none ∉ xs then [] else xs

theorem shown_eq_self {l : Layout} (hwidth : l ≠ .block 0) (xs : List (Option l.Element)) :
    l.shown xs = xs :=
  if_neg fun h => hwidth h.1

/-- The type that a table of the layout names when its offsets are too large. -/
def offsetType : Layout → DataType
  | .text => .utf8
  | .none | .bit | .word _ _ | .bytes | .block _ => .binary

end Layout

namespace Memo

variable {l : Layout} {memo : Memo l} {entries : List (Option l.Key)}

def Holds : {l : Layout} → Memo l → List (Option l.Key) → Prop
  | .none, table, _ => table.elim
  | .bit, table, entries => BooleanTable.Holds table entries
  | .word _ _, table, entries => WordTable.Holds table entries
  | .text, table, entries | .bytes, table, entries => ByteTable.Holds table entries
  | .block _, table, entries => BlockTable.Holds table entries

theorem holds_empty : (l : Layout) → (hash : l.Key → UInt64) → (h : l ≠ .none) →
    (Memo.empty l hash h).Holds []
  | .none, _, h => absurd rfl h
  | .bit, _, _ => BooleanTable.holds_empty
  | .word _ _, hash, _ => WordTable.holds_empty hash
  | .text, hash, _ | .bytes, hash, _ => ByteTable.holds_empty hash
  | .block _, hash, _ => BlockTable.holds_empty hash

theorem holds_clear : {l : Layout} → (memo : Memo l) → memo.clear.Holds []
  | .none, table => table.elim
  | .bit, _ => BooleanTable.holds_empty
  | .word _ _, table => WordTable.holds_empty (WordTable.hash table)
  | .text, table | .bytes, table => ByteTable.holds_empty (ByteTable.hash table)
  | .block _, table => BlockTable.holds_empty (BlockTable.hash table)

theorem insert_admitted {l : Layout} {memo : Memo l} {entries : List (Option l.Key)}
    (h : memo.Holds entries) {key : l.Key} (hkey : l.Takes key) :
    Admitted Holds memo entries (some key) (memo.insert key) :=
  match l with
  | .none => memo.elim
  | .bit => BooleanTable.insert_admitted h key
  | .word _ _ => WordTable.insert_admitted h key
  | .text | .bytes => ByteTable.insert_admitted h key
  | .block _ => BlockTable.insert_admitted h hkey

theorem insertNull_admitted {l : Layout} {memo : Memo l} {entries : List (Option l.Key)}
    (h : memo.Holds entries) : Admitted Holds memo entries none memo.insertNull :=
  match l with
  | .none => memo.elim
  | .bit => BooleanTable.insertNull_admitted h
  | .word _ _ => WordTable.insertNull_admitted h
  | .text | .bytes => ByteTable.insertNull_admitted h
  | .block _ => BlockTable.insertNull_admitted h

theorem Holds.nodup {l : Layout} {memo : Memo l} {entries : List (Option l.Key)}
    (h : memo.Holds entries) : entries.Nodup :=
  match l with
  | .none => memo.elim
  | .bit => BooleanTable.Holds.nodup h
  | .word _ _ => (WordTable.Holds.indexed h).nodup
  | .text | .bytes => (ByteTable.Holds.indexed h).nodup
  | .block _ => (BlockTable.Holds.indexed h).nodup

theorem Holds.size_eq {l : Layout} {memo : Memo l} {entries : List (Option l.Key)}
    (h : memo.Holds entries) : memo.size = entries.length :=
  match l with
  | .none => memo.elim
  | .bit => BooleanTable.Holds.size_eq h
  | .word _ _ => WordTable.Holds.size_eq h
  | .text | .bytes => ByteTable.Holds.size_eq h
  | .block _ => BlockTable.Holds.size h

theorem Holds.isEmpty_eq (h : memo.Holds entries) : memo.isEmpty = entries.isEmpty := by
  rw [isEmpty, h.size_eq]
  cases entries <;> rfl

theorem Holds.nullSlot?_eq_some_iff {l : Layout} {memo : Memo l} {entries : List (Option l.Key)}
    (h : memo.Holds entries) (slot : ℕ) :
    memo.nullSlot? = some slot ↔ entries[slot]? = some none :=
  match l with
  | .none => memo.elim
  | .bit => BooleanTable.Holds.nullSlot h slot
  | .word _ _ => WordTable.Holds.nullSlot h slot
  | .text | .bytes => ByteTable.Holds.nullSlot h slot
  | .block _ => BlockTable.Holds.nullSlot h slot

theorem Holds.toCells_unique {l : Layout} {memo other : Memo l} {entries : List (Option l.Key)}
    (h : memo.Holds entries) (hother : other.Holds entries) : memo.toCells = other.toCells :=
  match l with
  | .none => memo.elim
  | .bit => congrArg Except.ok (BooleanTable.Holds.toCells_unique h hother)
  | .word _ _ => congrArg Except.ok (WordTable.Holds.toCells_unique h hother)
  | .text => ByteTable.Holds.toTextCells_unique h hother
  | .bytes => ByteTable.Holds.toCells_unique h hother
  | .block _ => congrArg Except.ok (BlockTable.Holds.toCells_unique h hother)

section Two

variable {grown : Memo l} {a b : l.Key}
  (h : memo.Holds entries) (ha : l.Takes a) (hb : l.Takes b)
include h ha hb

/-- Two keys that are put in one after the other share a slot only if they are the same. -/
theorem Holds.slot_eq_iff {first second : Lookup} {last : Memo l}
    (hfirst : memo.insert a = .ok (first, grown)) (hsecond : grown.insert b = .ok (second, last)) :
    first.slot = second.slot ↔ a = b := by
  obtain ⟨more, hgrown, -, -, hfirst_slot⟩ :=
    (hfirst ▸ insert_admitted h ha).getElem?_slot h
  obtain ⟨all, hlast, ⟨rest, rfl⟩, -, hsecond_slot⟩ :=
    (hsecond ▸ insert_admitted hgrown hb).getElem?_slot hgrown
  have hstays : (more ++ rest)[first.slot]? = some (some a) := by
    rw [List.getElem?_append_left (List.getElem?_eq_some_iff.mp hfirst_slot).1, hfirst_slot]
  constructor
  · intro hslots
    rw [hslots, hsecond_slot] at hstays
    exact (Option.some.inj (Option.some.inj hstays)).symm
  · rintro rfl
    exact slot_unique hlast.nodup hstays hsecond_slot

theorem Holds.exists_slots (hroom : memo.size < largestSlot) :
    ∃ first grown second last, memo.insert a = .ok (first, grown) ∧
      grown.insert b = .ok (second, last) := by
  rw [h.size_eq] at hroom
  obtain ⟨first, grown, hfirst⟩ := (insert_admitted h ha).exists_ok hroom.le
  obtain ⟨more, hgrown, -, hlength, -⟩ := (hfirst ▸ insert_admitted h ha).getElem?_slot h
  obtain ⟨second, last, hsecond⟩ :=
    (insert_admitted hgrown hb).exists_ok (hlength.trans hroom)
  exact ⟨first, grown, second, last, hfirst, hsecond⟩

end Two

def Lists (memo : Memo l) (xs : List (Option l.Element)) : Prop :=
  memo.Holds (xs.map (Option.map l.key))

theorem Lists.nodup {xs : List (Option l.Element)} (h : memo.Lists xs) : xs.Nodup :=
  List.Nodup.of_map (Option.map l.key) (Holds.nodup h)

theorem Lists.insert_admitted {xs : List (Option l.Element)} (h : memo.Lists xs)
    (x : l.Element) : Admitted Lists memo xs (some x) (memo.insert (l.key x)) :=
  .of_map l.key_injective (Memo.insert_admitted h (l.takes_key x))

theorem Lists.insertNull_admitted {xs : List (Option l.Element)} (h : memo.Lists xs) :
    Admitted Lists memo xs none memo.insertNull :=
  .of_map (x := none) l.key_injective (Memo.insertNull_admitted h)

theorem reach_text (xs : List (Option String)) :
    Layout.text.reach xs =
      ((xs.map (Option.map (·.toUTF8.toList))).flatMap ByteTable.stored).length := by
  rw [Layout.reach, List.length_flatMap, List.map_map]
  refine congrArg List.sum (List.map_congr_left fun x _ => ?_)
  cases x <;> rfl

theorem reach_bytes (xs : List (Option (List UInt8))) :
    Layout.bytes.reach xs = (xs.flatMap ByteTable.stored).length := by
  rw [Layout.reach, List.length_flatMap]
  refine congrArg List.sum (List.map_congr_left fun x _ => ?_)
  cases x <;> rfl

theorem Lists.toCells_ok {l : Layout} {memo : Memo l} {xs : List (Option l.Element)}
    (h : memo.Lists xs) (hwidth : l ≠ .block 0)
    (hfit : l.reach xs ≤ Layout.largestOffset) :
    ∃ cells, memo.toCells = .ok cells ∧ cells.toList = xs := by
  have hself : ∀ {α : Type} (xs : List (Option α)), xs.map (Option.map fun x => x) = xs := by simp
  cases l with
  | none => exact memo.elim
  | bit => exact ⟨_, rfl, BooleanTable.toList_toCells (hself xs ▸ h)⟩
  | word width reading => exact ⟨_, rfl, WordTable.toList_toCells (hself xs ▸ h)⟩
  | text => exact ByteTable.toTextCells_ok h (reach_text xs ▸ hfit)
  | bytes => exact ByteTable.toCells_ok (hself xs ▸ h) (reach_bytes xs ▸ hfit)
  | block width =>
    have hlost : ¬(width = 0 ∧ none ∉ xs) := by
      rintro ⟨rfl, -⟩
      exact hwidth rfl
    exact ⟨_, rfl, (BlockTable.toList_toCells h).trans (if_neg hlost)⟩

/-- The cells show all entries, or none at all if the entries leave nothing to see. -/
theorem Lists.toCells_shown {xs : List (Option l.Element)} (h : memo.Lists xs)
    (hfit : l.reach xs ≤ Layout.largestOffset) :
    ∃ cells, memo.toCells = .ok cells ∧ cells.toList = l.shown xs := by
  by_cases hwidth : l = .block 0
  · subst hwidth
    refine ⟨_, rfl, (BlockTable.toList_toCells h).trans ?_⟩
    simp [Layout.shown]
  · rw [Layout.shown_eq_self hwidth]
    exact h.toCells_ok hwidth hfit

theorem Lists.toCells_refused {l : Layout} {memo : Memo l} {xs : List (Option l.Element)}
    (h : memo.Lists xs) (hover : Layout.largestOffset < l.reach xs) :
    memo.toCells = .error (.capacity (.offsets l.offsetType (l.reach xs))) := by
  have hself : ∀ {α : Type} (xs : List (Option α)), xs.map (Option.map fun x => x) = xs := by simp
  cases l with
  | none => exact memo.elim
  | text =>
    rw [reach_text] at hover ⊢
    exact ByteTable.toTextCells_refused h hover
  | bytes =>
    rw [reach_bytes] at hover ⊢
    exact ByteTable.toCells_refused (hself xs ▸ h) hover
  | bit | word | block =>
    -- These have no offsets, so nothing is too large for them.
    have hnone : Layout.reach _ xs = 0 := Layout.reach_eq_zero (fun _ => rfl) xs
    rw [hnone] at hover
    exact absurd hover (Nat.not_lt_zero _)

theorem reserve_zero [Memory] (l : Layout) : reserve 0 l = .ok () := by
  cases l with
  | none | bit => rfl
  | text | bytes =>
    change Capacity.reserveItems 8 1 = .ok ()
    exact Capacity.reserveItems_of_le_word (by decide)
  | word width =>
    change Capacity.reserveItems (width / 8) 0 = .ok ()
    exact Capacity.reserveItems_of_le_word (by simp)
  | block width =>
    change Capacity.reserveItems 1 (Capacity.saturatingProduct 0 width) = .ok ()
    exact Capacity.reserveItems_of_le_word (by simp [Capacity.saturatingProduct])

theorem create_eq_ok [Memory] {family : MemoFamily} {t : DataType} (hash : t.layout.Key → UInt64)
    {capacity : ℕ} (hlayout : t.layout ≠ .none) (haccepts : family.accepts t)
    (hroom : reserve capacity t.layout = .ok ()) :
    create family t hash capacity = .ok (empty t.layout hash hlayout) := by
  rw [create, dif_pos ⟨hlayout, haccepts⟩, hroom]
  rfl

theorem toColumn_self {family : MemoFamily} {t : DataType} (h : family.accepts t)
    (memo : Memo t.layout) : toColumn family t memo t = memo.toCells.map (Column.mk t) := by
  cases family with
  | primitive s => exact dif_pos ⟨h, rfl⟩
  | boolean | utf8 | binary | fixedSizeBinary => rfl

end Memo

end Columnar
