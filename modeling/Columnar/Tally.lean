import Columnar.Capacity
import Columnar.Column

namespace Columnar

inductive Operation
  | unique | valueCounts | dictionaryEncode
  deriving DecidableEq, Repr

namespace Operation

def name : Operation → String
  | .unique => "unique"
  | .valueCounts => "value_counts"
  | .dictionaryEncode => "dictionary_encode"

def memoizesNulls : Operation → Bool
  | .unique | .valueCounts => true
  | .dictionaryEncode => false

end Operation

/-- An observed null carries a slot only when nulls have one. -/
inductive Observation
  | found (slot : Int)
  | inserted (slot : Int)
  | nullFound (slot : Option Int)
  | nullInserted (slot : Option Int)
  deriving DecidableEq, Repr

/-- Slot numbers not handed out yet, a null position having a zero under a mask bit that is off. -/
structure PendingKeys where
  slots : Array Int
  mask : Array Bool
  size_eq : mask.size = slots.size
  deriving DecidableEq, Repr

namespace PendingKeys

def empty : PendingKeys := ⟨#[], #[], rfl⟩

def push (keys : PendingKeys) (slot : Int) : PendingKeys :=
  ⟨keys.slots.push slot, keys.mask.push true, by simp [keys.size_eq]⟩

def pushNull (keys : PendingKeys) : PendingKeys :=
  ⟨keys.slots.push 0, keys.mask.push false, by simp [keys.size_eq]⟩

/-- A mask of which no bit is off is left out. -/
def validity (keys : PendingKeys) : Option (Array Bool) :=
  if keys.mask.toList.all id then none else some keys.mask

def cells (keys : PendingKeys) : Cells DataType.int32.layout :=
  { slots := keys.slots.map fun slot => some (BitVec.ofInt 32 slot)
    validity := keys.validity
    offset := 0
    length := keys.slots.size }

def toCells (keys : PendingKeys) : Except Failure (Cells DataType.int32.layout) :=
  match keys.validity with
  | none => .ok keys.cells
  | some mask =>
    if mask.size = keys.slots.size then .ok keys.cells
    else .error (.format (.maskLength keys.slots.size mask.size))

theorem toCells_eq_ok (keys : PendingKeys) : keys.toCells = .ok keys.cells := by
  unfold toCells validity
  split
  · rfl
  · next mask h =>
    split at h
    · cases h
    · obtain rfl := Option.some.inj h
      rw [if_pos keys.size_eq]

end PendingKeys

/-- Occurrences by slot. Every tracked slot has been seen. -/
abbrev SlotCounts : Type := Array Nat

namespace SlotCounts

/-- Counts one more occurrence of a slot that is tracked or the next to be. -/
def bump (counts : SlotCounts) : Int → Except Failure SlotCounts
  | .negSucc n => .error (.internal (.negativeCountSlot (.negSucc n)))
  | .ofNat slot =>
    if slot < counts.size then .ok (counts.modify slot (· + 1))
    else if slot = counts.size then .ok (counts.push 1)
    else .error (.internal (.countSlotGap slot counts.size))

def toCells (counts : SlotCounts) : Cells DataType.int64.layout :=
  Cells.ofValues (counts.toList.map (BitVec.ofNat 64))

end SlotCounts

abbrev Tally : Operation → Type
  | .unique => Unit
  | .valueCounts => SlotCounts
  | .dictionaryEncode => PendingKeys

namespace Tally

def empty : (op : Operation) → Tally op
  | .unique => ()
  | .valueCounts => #[]
  | .dictionaryEncode => PendingKeys.empty

/-- Room for the observations of `length` positions; only keys take room by position. -/
def reserve [Memory] :
    {op : Operation} → Tally op → (length : Nat) → Except Failure Unit
  | .unique, _, _ | .valueCounts, _, _ => .ok ()
  | .dictionaryEncode, keys, length => Capacity.reserveItems 4 (keys.slots.size + length)

def observe : {op : Operation} → Tally op → Observation → Except Failure (Tally op)
  | .unique, _, _ => .ok ()
  | .valueCounts, counts, .found slot | .valueCounts, counts, .inserted slot
  | .valueCounts, counts, .nullFound (some slot) | .valueCounts, counts, .nullInserted (some slot) =>
    SlotCounts.bump counts slot
  | .valueCounts, _, .nullFound none | .valueCounts, _, .nullInserted none =>
    .error (.internal .nullWithoutSlot)
  | .dictionaryEncode, keys, .found slot | .dictionaryEncode, keys, .inserted slot =>
    .ok (keys.push slot)
  | .dictionaryEncode, keys, .nullFound _ | .dictionaryEncode, keys, .nullInserted _ =>
    .ok keys.pushNull

/-- Hands out the pending keys, which are gone even if no column can be made of them. -/
def flush : {op : Operation} → Tally op →
    Except Failure (Option (Cells DataType.int32.layout)) × Tally op
  | .unique, t => (.ok none, t)
  | .valueCounts, counts => (.ok none, counts)
  | .dictionaryEncode, keys => (keys.toCells.map some, PendingKeys.empty)

def flushFinal : {op : Operation} → Tally op → Option (Cells DataType.int64.layout) × Tally op
  | .unique, t => (none, t)
  | .valueCounts, counts => (some (SlotCounts.toCells counts), #[])
  | .dictionaryEncode, keys => (none, keys)

end Tally

end Columnar
