import Mathlib

namespace Columnar.Number

def bytes : (count n : ℕ) → List UInt8
  | 0, _ => []
  | count + 1, n => UInt8.ofNat n :: bytes count (n / 256)

def ofBytes : List UInt8 → ℕ
  | [] => 0
  | b :: rest => b.toNat + 256 * ofBytes rest

@[simp] theorem length_bytes (count n : ℕ) : (bytes count n).length = count := by
  induction count generalizing n with
  | zero => rfl
  | succ count ih => rw [bytes, List.length_cons, ih]

theorem ofBytes_bytes (count n : ℕ) : ofBytes (bytes count n) = n % 256 ^ count := by
  induction count generalizing n with
  | zero => rw [pow_zero, Nat.mod_one]; rfl
  | succ count ih => rw [bytes, ofBytes, ih, pow_succ', Nat.mod_mul, UInt8.toNat_ofNat']

theorem bytes_ofBytes (bs : List UInt8) : bytes bs.length (ofBytes bs) = bs := by
  induction bs with
  | nil => rfl
  | cons b rest ih =>
    have hb : b.toNat < 256 := b.toNat_lt
    have hrest : (b.toNat + 256 * ofBytes rest) / 256 = ofBytes rest := by omega
    have hfirst : UInt8.ofNat (b.toNat + 256 * ofBytes rest) = b := by
      apply UInt8.toNat_inj.mp
      rw [UInt8.toNat_ofNat']
      omega
    rw [List.length_cons, ofBytes, bytes, hfirst, hrest, ih]

theorem bytes_eq_iff (count n m : ℕ) :
    bytes count n = bytes count m ↔ n % 256 ^ count = m % 256 ^ count := by
  constructor
  · intro h
    rw [← ofBytes_bytes, h, ofBytes_bytes]
  · intro h
    rw [← ofBytes_bytes, ← ofBytes_bytes] at h
    have hn := bytes_ofBytes (bytes count n)
    rw [h, length_bytes] at hn
    have hm := bytes_ofBytes (bytes count m)
    rw [length_bytes] at hm
    exact hn.symm.trans hm

theorem bytes_mod (count n : ℕ) : bytes count (n % 256 ^ count) = bytes count n :=
  (bytes_eq_iff count _ _).mpr (Nat.mod_mod n _)

theorem bytes_mod_eq_iff (count total n m : ℕ) :
    bytes count (n % 256 ^ total) = bytes count (m % 256 ^ total) ↔
      n % 256 ^ min count total = m % 256 ^ min count total := by
  have hmod (k : ℕ) : k % 256 ^ total % 256 ^ count = k % 256 ^ min count total := by
    rcases le_total count total with h | h
    · rw [min_eq_left h, Nat.mod_mod_of_dvd k (pow_dvd_pow 256 h)]
    · have hlt : k % 256 ^ total < 256 ^ count :=
        (Nat.mod_lt k (by positivity)).trans_le (Nat.pow_le_pow_right (by decide) h)
      rw [min_eq_right h, Nat.mod_eq_of_lt hlt]
  rw [bytes_eq_iff, hmod, hmod]

theorem bytes_append (count more n : ℕ) :
    bytes (count + more) n = bytes count n ++ bytes more (n / 256 ^ count) := by
  induction count generalizing n with
  | zero => simp [bytes]
  | succ count ih =>
    rw [Nat.succ_add, bytes, ih, bytes, List.cons_append, pow_succ', Nat.div_div_eq_div_mul]

theorem bytes_zero (count : ℕ) : bytes count 0 = List.replicate count 0 := by
  induction count with
  | zero => rfl
  | succ count ih => rw [bytes, Nat.zero_div, ih, List.replicate_succ]; rfl

theorem take_bytes {count total : ℕ} (h : count ≤ total) (n : ℕ) :
    (bytes total n).take count = bytes count n := by
  obtain ⟨more, rfl⟩ := Nat.exists_eq_add_of_le h
  rw [bytes_append, List.take_left' (length_bytes _ _)]

theorem bytes_eq_map (count n : ℕ) :
    bytes count n = (List.range count).map fun i => UInt8.ofNat (n / 256 ^ i) := by
  induction count with
  | zero => rfl
  | succ count ih => rw [bytes_append, ih, List.range_succ, List.map_append]; rfl

end Columnar.Number
