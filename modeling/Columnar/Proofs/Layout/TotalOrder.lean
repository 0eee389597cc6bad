import Columnar.Number.Shortest
import Columnar.Proofs.Layout.Order

namespace Columnar

/-- Not a number, infinite, or a number, with the sign bit. A zero has one value and two signs. -/
inductive Datum
  | nan (negative : Bool) (payload : ℕ)
  | infinite (negative : Bool)
  | finite (negative : Bool) (value : ℚ)
  deriving DecidableEq

namespace Datum

/-- The kinds of data from left to right. -/
def region : Datum → ℤ
  | .nan true _ => -2
  | .infinite true => -1
  | .finite _ _ => 0
  | .infinite false => 1
  | .nan false _ => 2

/-- The total order of IEEE 754. Numbers go by value, and of two zeros the negative one comes first. The
farther a NaN is from the numbers, the larger its payload. -/
def TotalLess (a b : Datum) : Prop :=
  a.region < b.region ∨
    match a, b with
    | .finite s u, .finite t v => u < v ∨ u = v ∧ s = true ∧ t = false
    | .nan true p, .nan true q => q < p
    | .nan false p, .nan false q => p < q
    | _, _ => False

def neg : Datum → Datum
  | .nan negative payload => .nan (!negative) payload
  | .infinite negative => .infinite (!negative)
  | .finite negative value => .finite (!negative) (-value)

theorem totalLess_neg (a b : Datum) : TotalLess a.neg b.neg ↔ TotalLess b a := by
  rcases a with ⟨_ | _, p⟩ | ⟨_ | _⟩ | ⟨s, u⟩ <;> rcases b with ⟨_ | _, q⟩ | ⟨_ | _⟩ | ⟨t, v⟩ <;>
    simp [TotalLess, neg, region]
  simp only [eq_comm, and_comm]

theorem TotalLess.asymm {a b : Datum} (h : TotalLess a b) : ¬TotalLess b a := by
  rcases a with ⟨_ | _, p⟩ | ⟨_ | _⟩ | ⟨s, u⟩ <;> rcases b with ⟨_ | _, q⟩ | ⟨_ | _⟩ | ⟨t, v⟩ <;>
    simp [TotalLess, region] at h ⊢
  all_goals grind

end Datum

namespace Number.FloatFormat

variable (f : FloatFormat)

/-- What stored exponents are too large by. -/
def bias : ℤ := 2 ^ (f.exponentBits - 1) - 1

/-- The number without its sign. A stored exponent of zero is one of one without the leading bit. -/
def value (exponent fraction : ℕ) : ℚ :=
  if exponent = 0 then fraction * 2 ^ (1 - f.bias - f.fractionBits)
  else (2 ^ f.fractionBits + fraction) * 2 ^ (exponent - f.bias - f.fractionBits)

def magnitude (bits : ℕ) : Datum :=
  let exponent := bits / 2 ^ f.fractionBits
  let fraction := bits % 2 ^ f.fractionBits
  if exponent < 2 ^ f.exponentBits - 1 then .finite false (f.value exponent fraction)
  else if fraction = 0 then .infinite false
  else .nan false fraction

def datum {w : ℕ} (x : BitVec w) : Datum :=
  let unsigned := f.magnitude (x.toNat % 2 ^ (f.exponentBits + f.fractionBits))
  if x.msb then unsigned.neg else unsigned

/-- A number without its sign, in units of the smallest positive one. -/
def units (bits : ℕ) : ℕ :=
  if bits / 2 ^ f.fractionBits = 0 then bits % 2 ^ f.fractionBits
  else (2 ^ f.fractionBits + bits % 2 ^ f.fractionBits) * 2 ^ (bits / 2 ^ f.fractionBits - 1)

theorem value_eq_units (bits : ℕ) :
    f.value (bits / 2 ^ f.fractionBits) (bits % 2 ^ f.fractionBits) =
      f.units bits * 2 ^ (1 - f.bias - f.fractionBits) := by
  unfold value units
  split
  · rfl
  · next hexponent =>
    have hsplit : ((bits / 2 ^ f.fractionBits : ℕ) : ℤ) - f.bias - f.fractionBits =
        ((bits / 2 ^ f.fractionBits - 1 : ℕ) : ℤ) + (1 - f.bias - f.fractionBits) := by
      rw [Nat.cast_sub (Nat.one_le_iff_ne_zero.mpr hexponent), Nat.cast_one]
      ring
    rw [hsplit, zpow_add₀ two_ne_zero, zpow_natCast]
    push_cast
    ring

theorem units_add {exponent fraction : ℕ} (h : fraction < 2 ^ f.fractionBits) :
    f.units (2 ^ f.fractionBits * exponent + fraction) =
      if exponent = 0 then fraction
      else (2 ^ f.fractionBits + fraction) * 2 ^ (exponent - 1) := by
  rw [units, Nat.mul_add_div (Nat.two_pow_pos _), Nat.mul_add_mod, Nat.mod_eq_of_lt h,
    Nat.div_eq_of_lt h, Nat.add_zero]

/-- The next bits are those of the next number, also where the exponent changes. -/
theorem units_strictMono : StrictMono f.units := by
  refine strictMono_nat_of_lt_succ fun bits => ?_
  have hfraction : bits % 2 ^ f.fractionBits < 2 ^ f.fractionBits :=
    Nat.mod_lt _ (Nat.two_pow_pos _)
  rw [← Nat.div_add_mod bits (2 ^ f.fractionBits), Nat.add_assoc, f.units_add hfraction]
  generalize bits / 2 ^ f.fractionBits = exponent at *
  generalize bits % 2 ^ f.fractionBits = fraction at *
  -- The next bits have the next fraction, or after the last fraction the next exponent.
  rcases Nat.lt_or_ge (fraction + 1) (2 ^ f.fractionBits) with hnext | hlast
  · rw [f.units_add hnext]
    split
    · exact Nat.lt_succ_self fraction
    · exact Nat.mul_lt_mul_of_pos_right (Nat.lt_succ_self _) (Nat.two_pow_pos _)
  · obtain hlast : fraction + 1 = 2 ^ f.fractionBits := Nat.le_antisymm hfraction hlast
    rw [hlast, ← Nat.mul_succ, ← Nat.add_zero (2 ^ f.fractionBits * exponent.succ),
      f.units_add (Nat.two_pow_pos _), if_neg (Nat.succ_ne_zero exponent), Nat.add_zero,
      Nat.succ_sub_one]
    cases exponent with
    | zero => simpa using hfraction
    | succ exponent =>
      calc (2 ^ f.fractionBits + fraction) * 2 ^ exponent
        _ < (2 ^ f.fractionBits + 2 ^ f.fractionBits) * 2 ^ exponent :=
          Nat.mul_lt_mul_of_pos_right (Nat.add_lt_add_left hfraction _) (Nat.two_pow_pos _)
        _ = 2 ^ f.fractionBits * 2 ^ (exponent + 1) := by ring

theorem value_nonneg (exponent fraction : ℕ) : 0 ≤ f.value exponent fraction := by
  unfold value
  split <;> positivity

theorem magnitude_mono {m n : ℕ} (h : m < n) (hn : n < 2 ^ (f.exponentBits + f.fractionBits)) :
    Datum.TotalLess (f.magnitude m) (f.magnitude n) := by
  have hexponents : m / 2 ^ f.fractionBits ≤ n / 2 ^ f.fractionBits := Nat.div_le_div_right h.le
  have hlargest : n / 2 ^ f.fractionBits < 2 ^ f.exponentBits := by
    rwa [Nat.div_lt_iff_lt_mul (Nat.two_pow_pos _), ← Nat.pow_add]
  simp only [magnitude]
  by_cases hnumbers : n / 2 ^ f.fractionBits < 2 ^ f.exponentBits - 1
  · rw [if_pos (hexponents.trans_lt hnumbers), if_pos hnumbers, value_eq_units, value_eq_units]
    have hunits : (f.units m : ℚ) < f.units n := by exact_mod_cast f.units_strictMono h
    exact Or.inr (Or.inl (mul_lt_mul_of_pos_right hunits (by positivity)))
  · rw [if_neg hnumbers]
    by_cases hnumber : m / 2 ^ f.fractionBits < 2 ^ f.exponentBits - 1
    · rw [if_pos hnumber]
      split <;> exact Or.inl (by simp [Datum.region])
    · -- With the greatest exponent on both sides the fractions decide.
      have hsame : m / 2 ^ f.fractionBits = n / 2 ^ f.fractionBits := by omega
      have hfractions : m % 2 ^ f.fractionBits < n % 2 ^ f.fractionBits := by
        rw [← Nat.div_add_mod m (2 ^ f.fractionBits), ← Nat.div_add_mod n (2 ^ f.fractionBits),
          hsame] at h
        exact Nat.lt_of_add_lt_add_left h
      rw [if_neg hnumber, if_neg (Nat.ne_zero_of_lt hfractions)]
      split
      · exact Or.inl (by simp [Datum.region])
      · exact Or.inr hfractions

/-- Whatever has the sign is left of whatever has not, zero of zero as well. -/
theorem neg_magnitude_less (m n : ℕ) :
    Datum.TotalLess (f.magnitude m).neg (f.magnitude n) := by
  have hzero : ∀ {u v : ℚ}, 0 ≤ u → 0 ≤ v →
      Datum.TotalLess (.finite true (-u)) (.finite false v) := by
    intro u v hu hv
    refine Or.inr ((neg_nonpos_of_nonneg hu).trans hv |>.lt_or_eq.imp_right fun heq => ?_)
    exact ⟨heq, rfl, rfl⟩
  simp only [magnitude]
  split_ifs
  case pos => exact hzero (f.value_nonneg _ _) (f.value_nonneg _ _)
  all_goals exact Or.inl (by simp [Datum.region, Datum.neg])

section Words

variable {w : ℕ} (hw : w = f.exponentBits + f.fractionBits + 1)
include hw

theorem datum_eq (x : BitVec w) :
    f.datum x = if x.msb then (f.magnitude (x.toNat - 2 ^ (w - 1))).neg else f.magnitude x.toNat := by
  subst hw
  have hx := x.isLt
  simp only [datum, BitVec.msb_eq_decide, Nat.add_sub_cancel, decide_eq_true_eq] at hx ⊢
  rw [pow_succ] at hx
  split_ifs with hsign
  · rw [Nat.mod_eq_sub_mod hsign, Nat.mod_eq_of_lt (by omega)]
  · rw [Nat.mod_eq_of_lt (by omega)]

theorem totalLess_of_less {x y : BitVec w} (h : Layout.Less (.word w .float) x y) :
    Datum.TotalLess (f.datum x) (f.datum y) := by
  have hwidth : w - 1 = f.exponentBits + f.fractionBits := by omega
  have hpow : 2 ^ w = 2 ^ (f.exponentBits + f.fractionBits) * 2 := hw ▸ pow_succ _ _
  have hx := x.isLt
  have hy := y.isLt
  rw [f.datum_eq hw, f.datum_eq hw, hwidth]
  cases hsx : x.msb <;> cases hsy : y.msb <;> simp only [Layout.Less, hsx, hsy] at h <;>
    rw [BitVec.msb_eq_decide, hwidth] at hsx hsy <;>
    simp only [decide_eq_true_eq, decide_eq_false_iff_not] at hsx hsy
  case false.false => exact f.magnitude_mono h (Nat.lt_of_not_le hsy)
  case true.false => exact f.neg_magnitude_less _ _
  case true.true => exact (Datum.totalLess_neg _ _).mpr (f.magnitude_mono (by omega) (by omega))

theorem less_iff_totalLess (x y : BitVec w) :
    Layout.Less (.word w .float) x y ↔ Datum.TotalLess (f.datum x) (f.datum y) := by
  refine ⟨f.totalLess_of_less hw, fun h => ?_⟩
  by_contra hnot
  rcases eq_or_ne x y with rfl | hne
  · exact h.asymm h
  · rw [← Layout.rank_float_lt_iff, not_lt] at hnot
    have hswap : Reading.float.rank y < Reading.float.rank x :=
      hnot.lt_of_ne fun heq => hne (Layout.rank_injective .float heq).symm
    exact h.asymm (f.totalLess_of_less hw ((Layout.rank_float_lt_iff y x).mp hswap))

end Words

example : singleFormat.datum 0xbfc00000#32 = .finite true (-3 / 2) := by cbv

example : singleFormat.datum 0x00000001#32 = .finite false (1 / 2 ^ 149) := by cbv

example : doubleFormat.datum 0xfff0000000000003#64 = .nan true 3 := by decide

end Number.FloatFormat

namespace Layout

def datum? : (l : Layout) → l.Element → Option Datum
  | .word 32 .float, x => some (Number.singleFormat.datum x)
  | .word 64 .float, x => some (Number.doubleFormat.datum x)
  | _, _ => Option.none

theorem less_iff_of_datum? {l : Layout} {x y : l.Element} {a b : Datum}
    (hx : l.datum? x = some a) (hy : l.datum? y = some b) : l.Less x y ↔ a.TotalLess b := by
  unfold datum? at hx hy
  split at hx
  · cases hx
    cases hy
    exact Number.singleFormat.less_iff_totalLess rfl _ _
  · cases hx
    cases hy
    exact Number.doubleFormat.less_iff_totalLess rfl _ _
  · cases hx

end Layout

end Columnar
