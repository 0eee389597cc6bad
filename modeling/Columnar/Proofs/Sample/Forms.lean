import Columnar.Proofs.Distinct.Ends
import Columnar.Proofs.Number.Bytes
import Columnar.Sample

namespace Columnar.Sample

theorem ofNat_eq_iff (width m n : ℕ) :
    BitVec.ofNat width m = BitVec.ofNat width n ↔ m % 2 ^ width = n % 2 ^ width := by
  rw [← BitVec.toNat_inj, BitVec.toNat_ofNat, BitVec.toNat_ofNat]

theorem odd_eq_iff (m n : ℕ) : (m % 2 == 1) = (n % 2 == 1) ↔ m % 2 = n % 2 := by
  rw [Bool.eq_iff_iff, beq_iff_eq, beq_iff_eq]
  omega

theorem toString_injective : Function.Injective fun n : ℕ => toString n := by
  intro m n h
  have hdigits := congrArg (fun s : String => Nat.ofDigitChars 10 s.toList 0) h
  simpa using hdigits

theorem length_toUTF8_toString (n : ℕ) :
    (toString n).toUTF8.toList.length = (toString n).length := by
  have hascii : ∀ c ∈ Nat.toDigits 10 n, (String.utf8EncodeChar c).length = 1 := by
    intro c hc
    have hdigit := Char.isDigit_iff_toNat.mp (Nat.isDigit_of_mem_toDigits (by decide) (by decide) hc)
    rw [String.length_utf8EncodeChar, Char.utf8Size_eq_one_iff, UInt32.le_iff_toNat_le]
    exact hdigit.2.trans (by decide)
  rw [Text.toUTF8_toList, Nat.toString_eq_ofList_toDigits, String.toList_ofList, List.length_flatMap,
    List.map_congr_left hascii]
  simp

theorem length_toString_le {n : ℕ} (h : n < 10 ^ 10) : (toString n).length ≤ 10 := by
  rw [Nat.toString_eq_ofList_toDigits, String.length_ofList]
  exact (Nat.length_toDigits_le_iff (by decide) (by decide)).mpr h

theorem eightBytes_eq (n : ℕ) : eightBytes n = Number.bytes 8 n := by
  rw [eightBytes, Number.bytes_eq_map]
  simp only [Nat.shiftRight_eq_div_pow, pow_mul]
  rfl

/-- A block has the bytes of what is left of the number in eight of them. -/
theorem block_eq (width n : ℕ) : (block width n).1 = Number.bytes width (n % 256 ^ 8) := by
  have hrest : List.replicate width 0 = Number.bytes width (n % 256 ^ 8 / 256 ^ 8) := by
    rw [Nat.div_eq_of_lt (Nat.mod_lt n (by positivity)), Number.bytes_zero]
  change (eightBytes n ++ List.replicate width 0).take width = _
  rw [eightBytes_eq, ← Number.bytes_mod, hrest, ← Number.bytes_append,
    Number.take_bytes (Nat.le_add_left width 8)]

theorem block_eq_iff (width m n : ℕ) :
    block width m = block width n ↔ m % 256 ^ min width 8 = n % 256 ^ min width 8 := by
  rw [Subtype.ext_iff, block_eq, block_eq, Number.bytes_mod_eq_iff]

theorem eightBytes_eq_iff {m n : ℕ} (hm : m < 2 ^ 64) (hn : n < 2 ^ 64) :
    eightBytes m = eightBytes n ↔ m = n := by
  have hall : 2 ^ 64 = 256 ^ 8 := by norm_num
  rw [hall] at hm hn
  rw [eightBytes_eq, eightBytes_eq, Number.bytes_eq_iff, Nat.mod_eq_of_lt hm, Nat.mod_eq_of_lt hn]

/-- How many numbers have a form of their own, if not all do. -/
def variety? : Layout → Option ℕ
  | .bit => some 2
  | .word width _ => some (2 ^ width)
  | .block width => some (256 ^ min width 8)
  | .none | .text | .bytes => none

def residue (l : Layout) (n : ℕ) : ℕ := (variety? l).elim n (n % ·)

theorem variety?_pos {l : Layout} {k : ℕ} (h : variety? l = some k) : 0 < k := by
  cases l <;> cases h <;> positivity

section Residue

variable (l : Layout) (n : ℕ)

theorem residue_le : residue l n ≤ n := by
  rw [residue]
  cases variety? l with
  | none => exact le_refl n
  | some k => exact Nat.mod_le n k

theorem residue_residue : residue l (residue l n) = residue l n := by
  simp only [residue]
  cases variety? l with
  | none => rfl
  | some k => exact Nat.mod_mod n k

end Residue

/-- The types that samples are made of, besides that of nulls. Any zone, precision, scale and width will do. -/
inductive Sampled : DataType → Prop
  | boolean : Sampled .boolean
  | int (width : IntegerWidth) : Sampled (.int width)
  | uint (width : IntegerWidth) : Sampled (.uint width)
  | float32 : Sampled .float32
  | float64 : Sampled .float64
  | date32 : Sampled .date32
  | date64 : Sampled .date64
  | seconds : Sampled (.time32 .second)
  | microseconds : Sampled (.time64 .microsecond)
  | milliseconds (zone : Option String) : Sampled (.timestamp .millisecond zone)
  | decimal128 (precision : ℕ) (scale : ℤ) : Sampled (.decimal128 precision scale)
  | utf8 : Sampled .utf8
  | binary : Sampled .binary
  | fixedSizeBinary (width : ℕ) : Sampled (.fixedSizeBinary width)

theorem exists_form_iff {t : DataType} : (∃ form, form? t = some form) ↔ Sampled t := by
  constructor
  · rintro ⟨form, h⟩
    unfold form? at h
    split at h <;> first | constructor | cases h
  · intro h
    cases h <;> exact ⟨_, rfl⟩

theorem Sampled.supported {t : DataType} (h : Sampled t) : t.Supported := by
  cases h <;> constructor

theorem Sampled.width_pos {t : DataType} (h : Sampled t) (ht : t ≠ .fixedSizeBinary 0) (width : ℤ)
    (hwidth : t = .fixedSizeBinary width) : 0 < width := by
  subst hwidth
  cases h with
  | fixedSizeBinary w =>
    have hw : w ≠ 0 := by
      rintro rfl
      exact ht rfl
    exact Int.natCast_pos.mpr (Nat.pos_of_ne_zero hw)

theorem extent_eq_zero {t : DataType} (h : ¬(t = .utf8 ∨ t = .binary)) (n : ℕ) : extent t n = 0 := by
  unfold extent
  split <;> simp_all

theorem extent_le (t : DataType) {n : ℕ} (hn : n < 10 ^ 10) : extent t n ≤ 10 := by
  unfold extent
  split
  · exact length_toString_le hn
  · decide
  · decide

section Form

variable {t : DataType} {form : ℕ → t.Element} (hform : form? t = some form)

include hform

/-- Numbers have one form exactly if a type cannot tell them apart. -/
theorem form_eq_iff (hfloat : ∀ size, t ≠ .float size) {m n : ℕ} (hm : m < 2 ^ 64)
    (hn : n < 2 ^ 64) : form m = form n ↔ residue t.layout m = residue t.layout n := by
  cases t with
  | boolean =>
    cases hform
    exact odd_eq_iff m n
  | int width | uint width =>
    cases hform
    exact ofNat_eq_iff _ m n
  | date32 | date64 =>
    cases hform
    exact ofNat_eq_iff _ m n
  | time32 unit | time64 unit | timestamp unit zone =>
    cases unit <;> cases hform
    exact ofNat_eq_iff _ m n
  | decimal width precision scale =>
    cases width <;> cases hform
    exact ofNat_eq_iff _ m n
  | float size => exact absurd rfl (hfloat size)
  | utf8 =>
    cases hform
    exact toString_injective.eq_iff
  | binary =>
    cases hform
    exact eightBytes_eq_iff hm hn
  | fixedSizeBinary width =>
    cases width <;> cases hform
    exact block_eq_iff _ m n
  | _ => cases hform

theorem extent_form (n : ℕ) : t.layout.extent (form n) = extent t n := by
  cases t with
  | utf8 =>
    cases hform
    exact length_toUTF8_toString n
  | binary =>
    cases hform
    change (eightBytes n).length = 8
    rw [eightBytes_eq, Number.length_bytes]
  | boolean | int | uint | date32 | date64 =>
    cases hform
    rfl
  | time32 unit | time64 unit | timestamp unit zone =>
    cases unit <;> cases hform
    rfl
  | decimal width precision scale =>
    cases width <;> cases hform
    rfl
  | float size => cases size <;> cases hform <;> rfl
  | fixedSizeBinary width =>
    cases width <;> cases hform
    rfl
  | _ => cases hform

end Form

end Columnar.Sample
