namespace Columnar.Number

def digitsValue (base : Nat) (digits : List Char) : Nat :=
  digits.foldl (fun n c =>
    base * n + (if c.isDigit then c.toNat - 48 else c.toLower.toNat - 87)) 0

def readDigits? (cs : List Char) : Option Nat :=
  if cs.isEmpty || !cs.all Char.isDigit then none else some (digitsValue 10 cs)

def readNat? : List Char → Option Nat
  | '+' :: cs => readDigits? cs
  | cs => readDigits? cs

def readInt? : List Char → Option Int
  | '-' :: cs => (readDigits? cs).map fun n => -n
  | cs => (readNat? cs).map Int.ofNat

/-- The float nearest to `digits · 10^exponent`. Exponents far outside the range of floats need no
arithmetic. -/
def nearestFloat (digits : Nat) (exponent : Int) : Float :=
  let places : Int := (Nat.toDigits 10 digits).length
  if digits = 0 ∨ places + exponent < -400 then 0
  else if 400 < places + exponent then 1 / 0
  else Float.ofScientific digits (exponent < 0) exponent.natAbs

def readExponent? : List Char → Option Int
  | [] => some 0
  | c :: cs => if c = 'e' ∨ c = 'E' then readInt? cs else none

/-- Digits with a point among, before or after them, and maybe an exponent. -/
def readMagnitude? (cs : List Char) : Option Float :=
  let (whole, rest) := cs.span Char.isDigit
  let (fraction, rest) := match rest with
    | '.' :: rest => rest.span Char.isDigit
    | rest => ([], rest)
  if whole.isEmpty && fraction.isEmpty then none
  else (readExponent? rest).map fun e =>
    nearestFloat (digitsValue 10 (whole ++ fraction)) (e - fraction.length)

/-- A magnitude, an infinity or no number, after an optional sign. -/
def readFloat? (cs : List Char) : Option Float :=
  let (negative, cs) := match cs with
    | '-' :: cs => (true, cs)
    | '+' :: cs => (false, cs)
    | cs => (false, cs)
  let magnitude := match String.ofList (cs.map Char.toLower) with
    | "inf" | "infinity" => some (1 / 0)
    | "nan" => some (0 / 0)
    | _ => readMagnitude? cs
  magnitude.map fun x => if negative then -x else x

end Columnar.Number
