namespace Columnar.Number

/-- A positive decimal `digits · 10^exponent`. -/
structure Decimal where
  digits : Nat
  exponent : Int
  deriving DecidableEq, Repr

def digitCount (n : Nat) : Nat := (Nat.toDigits 10 n).length

namespace Decimal

/-- The same decimal without zeros at the end of its digits, of which there are fewer than `fuel`. -/
def strip (fuel : Nat) (d : Decimal) : Decimal :=
  match fuel with
  | 0 => d
  | fuel + 1 => if d.digits ≠ 0 ∧ d.digits % 10 = 0 then strip fuel ⟨d.digits / 10, d.exponent + 1⟩ else d

/-- Where the point stands: the decimal is below `10^point` and not below a tenth of it. -/
def point (d : Decimal) : Int := d.exponent + digitCount d.digits

end Decimal

/-- The numbers that round to a float, as fractions of one denominator. -/
structure Rounding where
  low : Nat
  value : Nat
  high : Nat
  denominator : Nat
  closed : Bool
  deriving DecidableEq, Repr

/-- For `m · 2^q`. Below the least float of a binade the floats lie twice as close as above it. -/
def Rounding.ofBinary (m : Nat) (q : Int) (leastOfBinade : Bool) : Rounding :=
  let up := 1 <<< (q - 2).toNat
  { low := (4 * m - (if leastOfBinade then 1 else 2)) * up
    value := 4 * m * up
    high := (4 * m + 2) * up
    denominator := 1 <<< (2 - q).toNat
    closed := m % 2 = 0 }

namespace Rounding

def magnitude (r : Rounding) : Int :=
  if r.denominator ≤ r.value then digitCount (r.value / r.denominator)
  else 1 - (digitCount ((r.denominator + r.value - 1) / r.value - 1) : Int)

def scaled (r : Rounding) (exponent : Int) (n : Nat) : Nat × Nat :=
  (n * Nat.pow 10 (-exponent).toNat, r.denominator * Nat.pow 10 exponent.toNat)

def admits (r : Rounding) (exponent : Int) (digits : Nat) : Bool :=
  let (low, den) := r.scaled exponent r.low
  let (high, _) := r.scaled exponent r.high
  if r.closed then low ≤ digits * den && digits * den ≤ high
  else low < digits * den && digits * den < high

/-- The decimal of the given exponent that rounds to the float and lies nearest to it. -/
def nearest? (r : Rounding) (exponent : Int) : Option Decimal :=
  let (value, den) := r.scaled exponent r.value
  let below := value / den
  let above := below + 1
  let belowFits := r.admits exponent below
  let aboveFits := r.admits exponent above
  let twice := 2 * (value - below * den)
  -- Of two equally near ones the even one is taken.
  let chooseBelow := twice < den || (twice = den && below % 2 = 0)
  if belowFits && (chooseBelow || !aboveFits) then some ⟨below, exponent⟩
  else if aboveFits then some ⟨above, exponent⟩
  else none

/-- Searches with ever more digits, `most` at the most. -/
def shortest (r : Rounding) (most : Nat) : Decimal :=
  let found := (List.range most).findSome? fun (n : Nat) => r.nearest? (r.magnitude - (n + 1 : Nat))
  (found.getD ⟨r.value, 0⟩).strip most

end Rounding

/-- A floating-point format by its widths: bits of the fraction and of the exponent, and the decimal
digits that tell any two of its numbers apart. -/
structure FloatFormat where
  fractionBits : Nat
  exponentBits : Nat
  digits : Nat
  deriving DecidableEq, Repr

def singleFormat : FloatFormat := ⟨23, 8, 9⟩

def doubleFormat : FloatFormat := ⟨52, 11, 17⟩

inductive FloatClass
  | nan
  | infinite
  | zero
  | finite (magnitude : Decimal)
  deriving DecidableEq, Repr

namespace FloatFormat

variable (format : FloatFormat)

def classify (bits : Nat) : Bool × FloatClass :=
  let hidden := 1 <<< format.fractionBits
  let fraction := bits % hidden
  let biased := (bits >>> format.fractionBits) % (1 <<< format.exponentBits)
  let negative := (bits >>> (format.fractionBits + format.exponentBits)) % 2 = 1
  let bias : Int := (1 <<< (format.exponentBits - 1) : Nat) - 1 + format.fractionBits
  let finite (m : Nat) (q : Int) : FloatClass :=
    let least := fraction = 0 && 1 < biased
    .finite ((Rounding.ofBinary m q least).shortest format.digits)
  (negative,
    if biased = (1 <<< format.exponentBits) - 1 then if fraction = 0 then .infinite else .nan
    else if biased = 0 then if fraction = 0 then .zero else finite fraction (1 - bias)
    else finite (hidden + fraction) (biased - bias))

end FloatFormat

end Columnar.Number
