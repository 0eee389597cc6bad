namespace Columnar.Calendar

structure Date where
  year : Int
  month : Nat
  day : Nat
  deriving DecidableEq, Repr

structure Clock where
  seconds : Nat
  nanoseconds : Nat
  deriving DecidableEq, Repr

def secondsPerDay : Nat := 86400

/-- Years run from March here, so that a leap day is the last day of its year; 400 years have 146097
days. -/
def Date.ofDays (days : Int) : Date :=
  let shifted := days + 719468
  let era := shifted.fdiv 146097
  let day := (shifted - era * 146097).toNat
  -- A day for every fourth year is taken off, and put back for centuries but the fourth.
  let year := (day - day / 1460 + day / 36524 - day / 146096) / 365
  let dayOfYear := day - (365 * year + year / 4 - year / 100)
  let month := (5 * dayOfYear + 2) / 153
  { year := era * 400 + year + (if month < 10 then 0 else 1)
    month := if month < 10 then month + 3 else month - 9
    day := dayOfYear - (153 * month + 2) / 5 + 1 }

/-- The years that dates are written for. -/
def Date.isKnown (date : Date) : Bool := -262143 ≤ date.year && date.year ≤ 262142

def padded (width n : Nat) : String :=
  let digits := toString n
  "".pushn '0' (width - digits.length) ++ digits

/-- A year of more than four digits, or before year zero, carries its sign. -/
def Date.text (date : Date) : String :=
  let year := padded 4 date.year.natAbs
  let sign := if date.year < 0 then "-" else if 9999 < date.year then "+" else ""
  s!"{sign}{year}-{padded 2 date.month}-{padded 2 date.day}"

/-- Three, six or nine digits of a second, as many as are needed. -/
def fractionText (nanoseconds : Nat) : String :=
  if nanoseconds = 0 then ""
  else if nanoseconds % 1000000 = 0 then "." ++ padded 3 (nanoseconds / 1000000)
  else if nanoseconds % 1000 = 0 then "." ++ padded 6 (nanoseconds / 1000)
  else "." ++ padded 9 nanoseconds

def Clock.text (clock : Clock) : String :=
  let hours := clock.seconds / 3600
  let minutes := clock.seconds / 60 % 60
  s!"{padded 2 hours}:{padded 2 minutes}:{padded 2 (clock.seconds % 60)}" ++
    fractionText clock.nanoseconds

def moment (seconds : Int) (nanoseconds : Nat) : Date × Clock :=
  (Date.ofDays (seconds.fdiv secondsPerDay),
    ⟨(seconds.fmod secondsPerDay).toNat, nanoseconds⟩)

def momentText (at? : Date × Clock) : String := at?.1.text ++ "T" ++ at?.2.text

/-- Hours and minutes of an offset from universal time, `Z` for none. -/
def offsetText (seconds : Int) : String :=
  if seconds = 0 then "Z"
  else
    let minutes := seconds.natAbs / 60
    (if seconds < 0 then "-" else "+") ++ padded 2 (minutes / 60) ++ ":" ++ padded 2 (minutes % 60)

/-- The seconds of an offset written `+hh:mm`, `+hhmm` or `+hh`, less than a day. -/
def offset? (zone : String) : Option Int :=
  let digits := match zone.toList with
    | [s, a, b, ':', c, d] => some (s, [a, b, c, d])
    | [s, a, b, c, d] => some (s, [a, b, c, d])
    | [s, a, b] => some (s, [a, b, '0', '0'])
    | _ => none
  match digits with
  | some (sign, [a, b, c, d]) =>
    if [a, b, c, d].all Char.isDigit then
      let value (x y : Char) : Int := (x.toNat - 48) * 10 + (y.toNat - 48)
      let seconds := value a b * 3600 + value c d * 60
      if seconds < secondsPerDay then
        if sign = '+' then some seconds else if sign = '-' then some (-seconds) else none
      else none
    else none
  | _ => none

end Columnar.Calendar
