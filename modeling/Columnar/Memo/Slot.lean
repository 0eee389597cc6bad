import Columnar.Failure
import Std.Data.HashMap

namespace Columnar.Memo

/-- The slot of a value that was there before, or that has just got one. -/
inductive Lookup
  | found (slot : Nat)
  | inserted (slot : Nat)
  deriving DecidableEq, Repr

def Lookup.slot : Lookup → Nat
  | .found slot | .inserted slot => slot

/-- Slot numbers are 32-bit and not negative. -/
def largestSlot : Nat := 2147483647

def nextSlot (length : Nat) : Except Failure Nat :=
  if length ≤ largestSlot then .ok length else .error (.capacity .distinctValues)

structure SlotIndex where
  buckets : Std.HashMap UInt64 (List Nat)

namespace SlotIndex

def empty : SlotIndex := ⟨∅⟩

def bucket (index : SlotIndex) (hash : UInt64) : List Nat := index.buckets.getD hash []

def find? (index : SlotIndex) (hash : UInt64) (holds : Nat → Bool) : Option Nat :=
  (index.bucket hash).find? holds

def insert (index : SlotIndex) (hash : UInt64) (slot : Nat) : SlotIndex :=
  ⟨index.buckets.insert hash (slot :: index.bucket hash)⟩

@[simp] theorem bucket_empty (hash : UInt64) : empty.bucket hash = [] := by
  simp [empty, bucket]

theorem bucket_insert (index : SlotIndex) (hash other : UInt64) (slot : Nat) :
    (index.insert hash slot).bucket other =
      if other = hash then slot :: index.bucket hash else index.bucket other := by
  by_cases h : hash = other
  · simp [bucket, insert, h]
  · simp [bucket, insert, Std.HashMap.getD_insert, h, Ne.symm h]

end SlotIndex

end Columnar.Memo
