import Columnar.Proofs.Distinct.Ends

open private Nat.nextPowerOfTwo.go from Init.Data.Nat.Power2.Basic

namespace Columnar

namespace Capacity

/-! ### The size of a slot table -/

section NextPowerOfTwo

variable (n : ℕ) {k : ℕ}

theorem le_go (power : ℕ) (h : power > 0) : n ≤ Nat.nextPowerOfTwo.go n power h := by
  fun_induction Nat.nextPowerOfTwo.go n power h with
  | case1 power h hlt ih => exact ih
  | case2 power h hge => exact Nat.le_of_not_lt hge

theorem go_le (hn : n ≤ 2 ^ k) (power : ℕ) (h : power > 0) {j : ℕ} (hpower : power = 2 ^ j)
    (hj : j ≤ k) : Nat.nextPowerOfTwo.go n power h ≤ 2 ^ k := by
  fun_induction Nat.nextPowerOfTwo.go n power h generalizing j with
  | case1 power h hlt ih =>
    have hjk : j < k := (Nat.pow_lt_pow_iff_right one_lt_two).mp (hpower ▸ hlt.trans_le hn)
    exact ih (by rw [hpower, Nat.pow_succ]) hjk
  | case2 power h hge => exact hpower ▸ Nat.pow_le_pow_right two_pos hj

theorem le_nextPowerOfTwo : n ≤ n.nextPowerOfTwo := le_go n 1 _

theorem nextPowerOfTwo_le_iff : n.nextPowerOfTwo ≤ 2 ^ k ↔ n ≤ 2 ^ k := by
  constructor
  · exact (le_nextPowerOfTwo n).trans
  · intro h
    exact go_le n h 1 _ (j := 0) rfl (Nat.zero_le k)

end NextPowerOfTwo

theorem nextPowerOfTwo_mono : Monotone Nat.nextPowerOfTwo := by
  intro m n hle
  obtain ⟨k, hk⟩ := Nat.isPowerOfTwo_nextPowerOfTwo n
  have hn : n ≤ 2 ^ k := (nextPowerOfTwo_le_iff n).mp hk.le
  rw [hk]
  exact (nextPowerOfTwo_le_iff m).mpr (hle.trans hn)

theorem buckets_mono : Monotone buckets := by
  intro m n hle
  have hpower : (8 * m / 7).nextPowerOfTwo ≤ (8 * n / 7).nextPowerOfTwo :=
    nextPowerOfTwo_mono (by omega)
  have hceil := le_nextPowerOfTwo (8 * n / 7)
  unfold buckets
  split_ifs <;> omega

theorem slotTableBytes_mono : Monotone slotTableBytes := by
  intro m n hle
  have hbuckets := buckets_mono hle
  unfold slotTableBytes
  omega

/-- Why there is no room for slots where `most` bytes are the most that are granted: eight times their number
is no word, no allocation is as large as their table, or the table has more than those bytes. -/
def SlotsRefused (most slots : ℕ) : Prop :=
  slots ≠ 0 ∧ (wordBound ≤ 8 * slots ∨ largestAllocation < slotTableBytes slots ∨
    most < slotTableBytes slots)

theorem exists_reserveSlots_error_iff [Memory] {slots : ℕ} :
    (∃ e, reserveSlots slots = .error e) ↔ SlotsRefused Memory.limit slots := by
  unfold reserveSlots SlotsRefused
  split_ifs with hnone hword hlargest hmemory <;> simp_all

theorem SlotsRefused.mono {most slots more : ℕ} (h : SlotsRefused most slots) (hle : slots ≤ more) :
    SlotsRefused most more := by
  have hbytes := slotTableBytes_mono hle
  obtain ⟨hnone, hrefused⟩ := h
  unfold SlotsRefused
  omega

/-- One more than the slots that there is room for is a word, however far memory reaches. -/
theorem sum_one {most slots : ℕ} (h : ¬SlotsRefused most slots) :
    sum slots 1 = .ok (slots + 1) := by
  refine if_pos ?_
  unfold SlotsRefused wordBound at h
  unfold wordBound
  omega

theorem sum_one_of_reserveSlots [Memory] {slots : ℕ} (h : reserveSlots slots = .ok ()) :
    sum slots 1 = .ok (slots + 1) := by
  apply @sum_one Memory.limit
  rw [← exists_reserveSlots_error_iff, h]
  simp

/-- A product that stays at the largest word is refused like the product that it stands for. -/
theorem reserveItems_saturatingProduct [Memory] (a b : ℕ) :
    reserveItems 1 (saturatingProduct a b) = reserveItems 1 (a * b) := by
  rcases Nat.lt_or_ge (a * b) wordBound with h | h
  · rw [saturatingProduct, min_eq_left (by omega)]
  · have hlarge : largestAllocation < 1 * (a * b) := by
      unfold wordBound at h
      unfold largestAllocation
      omega
    rw [saturatingProduct, min_eq_right (by omega)]
    exact (if_pos (by decide)).trans (if_pos hlarge).symm

end Capacity

namespace Memo

/-- The bytes that the values of so many slots take, whether or not their number is a word. -/
def valueBytes (capacity : ℕ) : Layout → ℕ
  | .none | .bit => 0
  | .word width _ => width / 8 * capacity
  | .text | .bytes => 8 * (capacity + 1)
  | .block width => capacity * width

/-- The sizes of the parts of a table come out as they do without a bound on numbers. -/
theorem reserve_eq_exact [Memory] (capacity : ℕ) {l : Layout} (hnone : l ≠ .none) (hbit : l ≠ .bit) :
    reserve capacity l = (do
      Capacity.reserveSlots capacity
      Capacity.reserveItems 1 (valueBytes capacity l)) := by
  have hone (size count : ℕ) : Capacity.reserveItems size count =
      Capacity.reserveItems 1 (size * count) := by
    rw [Capacity.reserveItems, Capacity.reserveItems, one_mul]
  cases l with
  | none => exact absurd rfl hnone
  | bit => exact absurd rfl hbit
  | word width reading => rw [reserve, hone, valueBytes]
  | text | bytes =>
    rw [reserve, valueBytes, ← hone]
    -- The sum is asked for only where there is room for the slots.
    cases hslots : Capacity.reserveSlots capacity with
    | error e => rfl
    | ok _ =>
      rw [Capacity.sum_one_of_reserveSlots hslots]
      rfl
  | block width => rw [reserve, Capacity.reserveItems_saturatingProduct, valueBytes]

theorem reserve_ne_outOfBounds [Memory] (capacity : ℕ) (l : Layout) :
    reserve capacity l ≠ .error .outOfBounds := by
  by_cases hnone : l = .none
  · subst hnone
    exact nofun
  by_cases hbit : l = .bit
  · subst hbit
    exact nofun
  rw [reserve_eq_exact capacity hnone hbit]
  cases hslots : Capacity.reserveSlots capacity with
  | error e =>
    unfold Capacity.reserveSlots at hslots
    split_ifs at hslots <;> cases hslots <;> exact nofun
  | ok _ =>
    change Capacity.reserveItems 1 _ ≠ _
    unfold Capacity.reserveItems
    split_ifs <;> simp

end Memo

variable {op : Operation} {t : DataType}

theorem DataType.Supported.layout_ne_bit (h : t.Supported) (hboolean : t ≠ .boolean) :
    t.layout ≠ .bit := by
  cases h with
  | boolean => exact absurd rfl hboolean
  | fixedSizeBinary w => cases w <;> exact Layout.noConfusion
  | _ => exact Layout.noConfusion

namespace Kernel

variable [Memory]

theorem create_negativeWidth (op : Operation) {w : ℤ} (h : w < 0) (capacity : ℕ) :
    create op (.fixedSizeBinary w) capacity =
      .error (.internal (.wrongTable .fixedSizeBinary (.fixedSizeBinary w))) := by
  obtain ⟨n, rfl⟩ := Int.eq_negSucc_of_lt_zero h
  rfl

/-- Room is all that a kernel of a supported type can lack, and what is lacking is told as it is. -/
theorem create_eq_reserve (h : t.Supported) (hnull : t ≠ .null)
    (hwidth : ∀ w, t = .fixedSizeBinary w → 0 ≤ w) (capacity : ℕ) :
    (create op t capacity).map (fun _ => ()) = Memo.reserve capacity t.layout := by
  obtain ⟨family, hfamily⟩ := (DataType.supported_iff.mp h).resolve_left hnull
  have hlayout := h.layout_ne_none hnull hwidth
  cases hroom : Memo.reserve capacity t.layout with
  | ok _ =>
    rw [create_eq_ok op hfamily hlayout hroom]
    rfl
  | error e =>
    unfold create
    split
    · exact absurd rfl hnull
    · have served : (family? t).isSome := Option.isSome_of_mem hfamily
      have haccepts := accepts_get served hlayout
      simp only [dif_pos served, Memo.create, dif_pos (And.intro hlayout haccepts), hroom]
      rfl

theorem create_ne_outOfBounds (op : Operation) (t : DataType) (capacity : ℕ) :
    create op t capacity ≠ .error .outOfBounds := by
  by_cases hsupported : t.Supported
  · by_cases hnull : t = .null
    · subst hnull
      exact nofun
    by_cases hwidth : ∀ w, t = .fixedSizeBinary w → 0 ≤ w
    · intro h
      have hreserve : (create op t capacity).map (fun _ => ()) = _ :=
        create_eq_reserve hsupported hnull hwidth capacity
      rw [h] at hreserve
      exact Memo.reserve_ne_outOfBounds capacity t.layout hreserve.symm
    -- A negative width is told before any room is asked for.
    · simp only [not_forall, not_le] at hwidth
      obtain ⟨w, rfl, hneg⟩ := hwidth
      rw [create_negativeWidth op hneg]
      simp
  · rw [create_unsupported hsupported]
    simp

open Capacity in
/-- Whatever capacity is asked for, there is a kernel or an error. A type without a kernel and a negative
width are told first; nulls and booleans take no room; for all other types the parts of the table are asked
for one after the other, and the answer is that of sizes without a bound on numbers: a product that is no
word is refused as it would be, and one more than a number of slots is asked for only where the slots are not
refused and it is a word, however far memory reaches. Slots that are refused are refused in larger numbers
too. -/
theorem create_any_capacity (op : Operation) (t : DataType) (capacity : ℕ) :
    create op t capacity ≠ .error .outOfBounds ∧
    (¬t.Supported → create op t capacity = .error (.notImplemented op.name t)) ∧
    (∀ w < 0, t = .fixedSizeBinary w →
      create op t capacity = .error (.internal (.wrongTable .fixedSizeBinary t))) ∧
    (t = .null ∨ t = .boolean → ∃ kernel, create op t capacity = .ok kernel) ∧
    (t.Supported → (∀ w, t = .fixedSizeBinary w → 0 ≤ w) → t ≠ .null → t ≠ .boolean →
      (create op t capacity).map (fun _ => ()) = (do
        reserveSlots capacity
        reserveItems 1 (Memo.valueBytes capacity t.layout))) ∧
    (∀ width, reserveItems 1 (saturatingProduct capacity width) = reserveItems 1 (capacity * width)) ∧
    ((∃ e, reserveSlots capacity = .error e) ↔ SlotsRefused Memory.limit capacity) ∧
    ∀ most, (¬SlotsRefused most capacity → sum capacity 1 = .ok (capacity + 1)) ∧
      ∀ more, capacity ≤ more → SlotsRefused most capacity → SlotsRefused most more := by
  refine ⟨create_ne_outOfBounds op t capacity, create_unsupported, ?_, ?_, ?_,
    reserveItems_saturatingProduct capacity, exists_reserveSlots_error_iff,
    fun most => ⟨sum_one, fun more hle h => h.mono hle⟩⟩
  · rintro w hneg rfl
    exact create_negativeWidth op hneg capacity
  · rintro (rfl | rfl)
    · exact ⟨_, rfl⟩
    · exact ⟨_, rfl⟩
  · intro hsupported hwidth hnull hboolean
    rw [create_eq_reserve hsupported hnull hwidth, Memo.reserve_eq_exact capacity
      (hsupported.layout_ne_none hnull hwidth) (hsupported.layout_ne_bit hboolean)]

omit [Memory] in
/-- The largest capacity that can be asked for. -/
theorem create_any_capacity_largest :
    letI : Memory := .of47Bits
    let largest := Capacity.wordBound - 1
    DataType.utf8.Supported ∧ DataType.utf8 ≠ .null ∧ DataType.utf8 ≠ .boolean ∧
    (create .valueCounts .utf8 largest).map (fun _ => ()) = .error (.capacity .slotOverflow) ∧
    create .valueCounts (.fixedSizeBinary (-1)) largest =
      .error (.internal (.wrongTable .fixedSizeBinary (.fixedSizeBinary (-1)))) ∧
    create .valueCounts (.list (.item .int8)) largest =
      .error (.notImplemented "value_counts" (.list (.item .int8))) ∧
    ∃ kernel, create .valueCounts .boolean largest = .ok kernel := by
  intro largest
  let memory : Memory := .of47Bits
  have htext := create_any_capacity .valueCounts .utf8 largest
  have hblocks := create_any_capacity .valueCounts (.fixedSizeBinary (-1)) largest
  have hlist := create_any_capacity .valueCounts (.list (.item .int8)) largest
  have hboolean := create_any_capacity .valueCounts .boolean largest
  refine ⟨.utf8, by decide, by decide, ?_, ?_, ?_, ?_⟩
  · rw [htext.2.2.2.2.1 .utf8 (nofun) (by decide) (by decide)]
    rfl
  · exact hblocks.2.2.1 (-1) (by decide) rfl
  · exact hlist.2.1 nofun
  · exact hboolean.2.2.2.1 (Or.inr rfl)

end Kernel

end Columnar
