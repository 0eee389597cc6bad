import Columnar.Failure

namespace Columnar

/-- The most bytes that one request for room can be granted, a word at the least. Room taken item by item is
always there. -/
class Memory where
  limit : Nat
  word_le : 8 ≤ limit

abbrev Memory.of47Bits : Memory := ⟨0x800000000000, by decide⟩

namespace Capacity

def wordBound : Nat := 0x10000000000000000

def largestAllocation : Nat := 0x7fffffffffffffff

/-- Buckets that hold `slots` slots with at least an eighth of the buckets free. -/
def buckets (slots : Nat) : Nat :=
  if slots = 0 then 0
  else if slots < 4 then 4
  else if slots < 8 then 8
  else (8 * slots / 7).nextPowerOfTwo

/-- A bucket is a slot number of eight bytes and one byte of control; a group of sixteen control
bytes closes the table. -/
def slotTableBytes (slots : Nat) : Nat := 9 * buckets slots + 16

def reserveSlots [Memory] (slots : Nat) : Except Failure Unit :=
  if slots = 0 then .ok ()
  else if wordBound ≤ 8 * slots then .error (.capacity .slotOverflow)
  else if largestAllocation < slotTableBytes slots then .error (.capacity .slotOverflow)
  else if Memory.limit < slotTableBytes slots then
    .error (.capacity (.slotAllocation (slotTableBytes slots)))
  else .ok ()

def reserveItems [Memory] (size count : Nat) : Except Failure Unit :=
  if largestAllocation < size * count then .error (.capacity .allocationOverflow)
  else if Memory.limit < size * count then .error (.capacity .allocationRefused)
  else .ok ()

theorem reserveItems_eq_ok_iff [Memory] {size count : Nat} :
    reserveItems size count = .ok () ↔
      size * count ≤ largestAllocation ∧ size * count ≤ Memory.limit := by
  unfold reserveItems
  split
  · simp; omega
  · split <;> simp <;> omega

theorem reserveItems_error [Memory] {size count : Nat} {e : Failure}
    (h : reserveItems size count = .error e) : ∃ fault, e = .capacity fault := by
  unfold reserveItems at h
  split at h
  · exact ⟨_, (Except.error.inj h).symm⟩
  · split at h
    · exact ⟨_, (Except.error.inj h).symm⟩
    · cases h

theorem reserveItems_of_le [Memory] {size m n : Nat} (hle : m ≤ n)
    (h : reserveItems size n = .ok ()) : reserveItems size m = .ok () := by
  have hbytes : size * m ≤ size * n := Nat.mul_le_mul_left size hle
  rw [reserveItems_eq_ok_iff] at h ⊢
  exact ⟨Nat.le_trans hbytes h.1, Nat.le_trans hbytes h.2⟩

theorem reserveItems_of_le_word [Memory] {size count : Nat} (h : size * count ≤ 8) :
    reserveItems size count = .ok () :=
  reserveItems_eq_ok_iff.mpr ⟨Nat.le_trans h (by decide), Nat.le_trans h Memory.word_le⟩

def sum (a b : Nat) : Except Failure Nat :=
  if a + b < wordBound then .ok (a + b) else .error .outOfBounds

def saturatingProduct (a b : Nat) : Nat := min (a * b) (wordBound - 1)

end Capacity

end Columnar
