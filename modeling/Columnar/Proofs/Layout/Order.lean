import Columnar.Layout
import Columnar.Proofs.Text.Utf8

namespace Columnar.Layout

theorem key_injective (l : Layout) : Function.Injective l.key :=
  match l with
  | .none => fun x => x.elim
  | .bit | .word _ _ | .bytes => fun _ _ h => h
  | .text => Text.toUTF8_toList_injective
  | .block _ => fun _ _ h => Subtype.ext h

/-- Less by value: `false` than `true`, a number than a greater one, bytes lexicographically. Of two
floats the one with a sign is less; without a sign the smaller bits are less, with one the larger. -/
def Less : (l : Layout) → l.Element → l.Element → Prop
  | .none, x, _ => x.elim
  | .bit, a, b => a = false ∧ b = true
  | .word _ .signed, a, b => a.toInt < b.toInt
  | .word _ .unsigned, a, b => a.toNat < b.toNat
  | .word _ .float, a, b =>
    match a.msb, b.msb with
    | true, false => True
    | false, true => False
    | false, false => a.toNat < b.toNat
    | true, true => b.toNat < a.toNat
  | .text, a, b => a.toUTF8.toList < b.toUTF8.toList
  | .bytes, a, b => a < b
  | .block _, a, b => a.1 < b.1

theorem rank_float_lt_iff {w : ℕ} (a b : BitVec w) :
    Reading.float.rank a < Reading.float.rank b ↔ Less (.word w .float) a b := by
  simp only [Reading.rank, Less, BitVec.msb_eq_decide, Nat.one_shiftLeft]
  generalize 2 ^ (w - 1) = half
  by_cases ha : half ≤ a.toNat <;> by_cases hb : half ≤ b.toNat <;> simp [ha, hb] <;> omega

theorem rank_injective {w : ℕ} (reading : Reading) :
    Function.Injective (reading.rank : BitVec w → ℤ) := by
  intro a b h
  cases reading with
  | signed => exact BitVec.toInt_inj.mp h
  | unsigned => exact BitVec.toNat_inj.mp (Int.ofNat_inj.mp h)
  | float =>
    simp only [Reading.rank, BitVec.msb_eq_decide, Nat.one_shiftLeft] at h
    generalize 2 ^ (w - 1) = half at h
    refine BitVec.toNat_inj.mp ?_
    by_cases ha : half ≤ a.toNat <;> by_cases hb : half ≤ b.toNat <;> simp [ha, hb] at h <;> omega

theorem compare_bytes_eq_lt_iff (a b : List UInt8) : compare a b = .lt ↔ a < b := by
  induction a generalizing b with
  | nil => cases b <;> simp
  | cons x a ih =>
    cases b with
    | nil => simp
    | cons y b =>
      rw [List.compare_cons_cons, List.cons_lt_cons_iff, Ordering.then_eq_lt, ih,
        Std.compare_eq_lt, Std.LawfulEqOrd.compare_eq_iff_eq]

theorem order_eq_lt_iff {l : Layout} (x y : l.Element) :
    l.order (l.key x) (l.key y) = .lt ↔ l.Less x y :=
  match l with
  | .none => x.elim
  | .bit => (by decide : ∀ a b : Bool, compare a b = .lt ↔ a = false ∧ b = true) x y
  | .word _ .signed => Int.compare_eq_lt
  | .word _ .unsigned => Int.compare_eq_lt.trans Int.ofNat_lt
  | .word _ .float => Int.compare_eq_lt.trans (rank_float_lt_iff x y)
  | .text | .bytes | .block _ => compare_bytes_eq_lt_iff _ _

theorem order_eq_eq_iff {l : Layout} (x y : l.Element) :
    l.order (l.key x) (l.key y) = .eq ↔ x = y := by
  rw [← (key_injective l).eq_iff]
  exact match l with
  | .none => x.elim
  | .bit => Std.LawfulEqOrd.compare_eq_iff_eq
  | .word _ reading => Std.LawfulEqOrd.compare_eq_iff_eq.trans (rank_injective reading).eq_iff
  | .text | .bytes | .block _ => Std.LawfulEqOrd.compare_eq_iff_eq

instance (l : Layout) : Std.TransCmp l.order :=
  match l with
  | .none => { eq_swap := fun {a} => a.elim, isLE_trans := fun {a} => a.elim }
  | .bit => inferInstanceAs (Std.TransCmp (compare : Bool → Bool → Ordering))
  | .word _ reading => inferInstanceAs (Std.TransCmp (compareOn reading.rank))
  | .text | .bytes | .block _ => inferInstanceAs (Std.TransCmp (compare : List UInt8 → _ → _))

theorem order_self (l : Layout) (x : l.Key) : l.order x x = .eq :=
  Std.ReflCmp.compare_self

theorem order_swap (l : Layout) (x y : l.Key) : (l.order x y).swap = l.order y x :=
  Std.OrientedCmp.eq_swap.symm

end Columnar.Layout
