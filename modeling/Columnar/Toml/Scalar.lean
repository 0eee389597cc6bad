import Columnar.Number.Read
import Columnar.Toml.Value

namespace Columnar.Toml

def isHexDigit (c : Char) : Bool := c.isDigit || ('a' ≤ c && c ≤ 'f') || ('A' ≤ c && c ≤ 'F')

/-- Control characters other than the tab stand nowhere in a document. -/
def isControl (c : Char) : Bool := (c.toNat < 0x20 && c ≠ '\t') || c.toNat = 0x7f

/-! ### Quoted strings -/

def codePoint? (count : Nat) (cs : List Char) : Option Char :=
  let digits := cs.take count
  let n := Number.digitsValue 16 digits
  if digits.length = count ∧ digits.all isHexDigit ∧ n.isValidChar then some (Char.ofNat n) else none

/-- What a backslash and the characters after it stand for, and how many of them it takes. -/
def escape? : List Char → Option (Char × Nat)
  | 'b' :: _ => some ('\x08', 1)
  | 't' :: _ => some ('\t', 1)
  | 'n' :: _ => some ('\n', 1)
  | 'f' :: _ => some ('\x0c', 1)
  | 'r' :: _ => some ('\r', 1)
  | 'e' :: _ => some ('\x1b', 1)
  | '"' :: _ => some ('"', 1)
  | '\\' :: _ => some ('\\', 1)
  | 'x' :: cs => (codePoint? 2 cs).map (·, 3)
  | 'u' :: cs => (codePoint? 4 cs).map (·, 5)
  | 'U' :: cs => (codePoint? 8 cs).map (·, 9)
  | _ => none

/-- The rest of a one-line string, up to its closing `quote`; `escapes` tells whether it has any. -/
def lineString (quote : Char) (escapes : Bool) (cs : List Char) : Option (List Char × List Char) :=
  match cs with
  | [] => none
  | c :: rest =>
    if c = quote then some ([], rest)
    else if escapes && c = '\\' then
      match escape? rest with
      | some (e, count) =>
        (lineString quote escapes (rest.drop count)).map fun (text, r) => (e :: text, r)
      | none => none
    else if isControl c then none
    else (lineString quote escapes rest).map fun (text, r) => (c :: text, r)
termination_by cs.length
decreasing_by all_goals simp only [List.length_drop, List.length_cons]; omega

def skipSpace : List Char → List Char
  | ' ' :: rest | '\t' :: rest | '\n' :: rest | '\r' :: '\n' :: rest => skipSpace rest
  | cs => cs

/-- What is left after a backslash at the end of a line: the next character that is no blank. -/
def lineContinuation? (cs : List Char) : Option (List Char) :=
  match cs.dropWhile fun c => c = ' ' || c = '\t' with
  | '\n' :: rest | '\r' :: '\n' :: rest => some (skipSpace rest)
  | _ => none

/-- The rest of a string of several lines, up to three closing quotes, before which two more may be
text. -/
def blockString (quote : Char) (escapes : Bool) (cs : List Char) (fuel : Nat) :
    Option (List Char × List Char) :=
  match fuel, cs with
  | 0, _ | _, [] => none
  | fuel + 1, c :: rest =>
    if c = quote then
      let quotes := (cs.takeWhile (· = quote)).length
      if quotes < 3 then
        (blockString quote escapes rest fuel).map fun (text, r) => (c :: text, r)
      else
        let extra := min (quotes - 3) 2
        some (List.replicate extra quote, cs.drop (extra + 3))
    else if escapes && c = '\\' then
      match lineContinuation? rest with
      | some rest => blockString quote escapes rest fuel
      | none =>
        match escape? rest with
        | some (e, count) =>
          (blockString quote escapes (rest.drop count) fuel).map fun (text, r) => (e :: text, r)
        | none => none
    else if c = '\r' && rest.head? ≠ some '\n' then none
    else if isControl c && c ≠ '\n' && c ≠ '\r' then none
    else (blockString quote escapes rest fuel).map fun (text, r) => (c :: text, r)

/-- A line break right after the opening quotes is no part of the text. -/
def afterOpening : List Char → List Char
  | '\n' :: rest => rest
  | '\r' :: '\n' :: rest => rest
  | cs => cs

def quoteMark : Char := '"'

def apostrophe : Char := '\x27'

/-- A quoted string of either kind; only strings in quote marks have escapes. -/
def string? (cs : List Char) : Option (String × List Char) :=
  let found := match cs with
    | a :: b :: c :: rest =>
      if (a = quoteMark || a = apostrophe) && b = a && c = a then
        blockString a (a = quoteMark) (afterOpening rest) (rest.length + 1)
      else lineString? cs
    | cs => lineString? cs
  found.map fun (text, rest) => (String.ofList text, rest)
where
  lineString? : List Char → Option (List Char × List Char)
    | a :: rest =>
      if a = quoteMark || a = apostrophe then lineString a (a = quoteMark) rest else none
    | [] => none

/-! ### Numbers -/

/-- Digits, with single underscores between two of them. -/
def separated? (isDigit : Char → Bool) : List Char → Option (List Char)
  | [] => none
  | [c] => if isDigit c then some [c] else none
  | c :: '_' :: rest =>
    if isDigit c then (separated? isDigit rest).map (c :: ·) else none
  | c :: rest => if isDigit c then (separated? isDigit rest).map (c :: ·) else none

def withinInt64 (i : Int) : Option Int :=
  if -0x8000000000000000 ≤ i ∧ i < 0x8000000000000000 then some i else none

def whole? (cs : List Char) : Option (List Char) :=
  match separated? Char.isDigit cs with
  | some ('0' :: _ :: _) => none
  | found => found

def sign : List Char → Bool × List Char
  | '-' :: cs => (true, cs)
  | '+' :: cs => (false, cs)
  | cs => (false, cs)

def integer? (word : List Char) : Option Int := do
  let n ← match word with
    | '0' :: 'x' :: cs => (separated? isHexDigit cs).map fun ds => (Number.digitsValue 16 ds : Int)
    | '0' :: 'o' :: cs =>
      (separated? (fun c => '0' ≤ c && c ≤ '7') cs).map fun ds => (Number.digitsValue 8 ds : Int)
    | '0' :: 'b' :: cs =>
      (separated? (fun c => c = '0' || c = '1') cs).map fun ds => (Number.digitsValue 2 ds : Int)
    | _ =>
      let (negative, cs) := sign word
      (whole? cs).map fun ds =>
        let n : Int := Number.digitsValue 10 ds
        if negative then -n else n
  withinInt64 n

/-- A whole part with a fraction, an exponent or both, or a named value; the digits must not run over
into an infinity. -/
def float? (word : List Char) : Option Float := do
  let (negative, cs) := sign word
  let magnitude : Float ← match String.ofList cs with
    | "inf" => some (1 / 0)
    | "nan" => some (0 / 0)
    | _ => do
      let (mantissa, exponent) := cs.span fun c => c ≠ 'e' && c ≠ 'E'
      let (before, after) := mantissa.span (· ≠ '.')
      let ds ← whole? before
      let fraction ← match after with
        | [] => if exponent.isEmpty then none else some []
        | _ :: after => separated? Char.isDigit after
      let e ← match exponent with
        | [] => some 0
        | _ :: exponent =>
          let (negative, exponent) := sign exponent
          (separated? Char.isDigit exponent).map fun es =>
            let e : Int := Number.digitsValue 10 es
            if negative then -e else e
      let x := Number.nearestFloat (Number.digitsValue 10 (ds ++ fraction)) (e - fraction.length)
      if x.isInf then none else some x
  return if negative then -magnitude else magnitude

/-! ### Dates and times -/

def twoDigits? (least greatest : Nat) (a b : Char) : Option Nat :=
  let n := Number.digitsValue 10 [a, b]
  if a.isDigit ∧ b.isDigit ∧ least ≤ n ∧ n ≤ greatest then some n else none

def daysInMonth (year month : Nat) : Nat :=
  if month = 2 then
    if year % 4 = 0 && (year % 100 ≠ 0 || year % 400 = 0) then 29 else 28
  else if month = 4 || month = 6 || month = 9 || month = 11 then 30
  else 31

def isDate : List Char → Bool
  | [a, b, c, d, '-', m, n, '-', x, y] =>
    [a, b, c, d].all Char.isDigit &&
      ((twoDigits? 1 12 m n).bind fun month =>
        twoDigits? 1 (daysInMonth (Number.digitsValue 10 [a, b, c, d]) month) x y).isSome
  | _ => false

def isZone : List Char → Bool
  | [] | ['Z'] | ['z'] => true
  | [s, a, b, ':', c, d] =>
    (s = '+' || s = '-') && (twoDigits? 0 23 a b).isSome && (twoDigits? 0 59 c d).isSome
  | _ => false

/-- What follows the seconds: a fraction maybe, and a zone if `zoned`. -/
def isAfterSeconds (zoned : Bool) : List Char → Bool
  | '.' :: rest =>
    let (digits, rest) := rest.span Char.isDigit
    !digits.isEmpty && (rest.isEmpty || zoned && isZone rest)
  | rest => rest.isEmpty || zoned && isZone rest

def isTime (zoned : Bool) : List Char → Bool
  | a :: b :: ':' :: c :: d :: rest =>
    (twoDigits? 0 23 a b).isSome && (twoDigits? 0 59 c d).isSome &&
      match rest with
      | ':' :: e :: f :: rest => (twoDigits? 0 60 e f).isSome && isAfterSeconds zoned rest
      | rest => rest.isEmpty || zoned && isZone rest
  | _ => false

def isDateTime (word : List Char) : Bool :=
  let date := word.take 10
  match word.drop 10 with
  | [] => isDate date || isTime false word
  | t :: time =>
    (isDate date && (t = 'T' || t = 't' || t = ' ') && isTime true time) || isTime false word

/-! ### Bare words -/

def endsWord (c : Char) : Bool := " \t\r\n,]\x7d#=".toList.contains c

/-- The longest bare word; a date and a time after a single space are one word. -/
def word (cs : List Char) : List Char × List Char :=
  let (w, rest) := cs.span fun c => !endsWord c
  match rest with
  | ' ' :: d :: rest =>
    if isDate w && d.isDigit then
      let (time, rest) := (d :: rest).span fun c => !endsWord c
      (w ++ ' ' :: time, rest)
    else (w, ' ' :: d :: rest)
  | rest => (w, rest)

def scalar? (cs : List Char) : Option (Value × List Char) :=
  match string? cs with
  | some (text, rest) => some (.string text, rest)
  | none =>
    let (w, rest) := word cs
    let value : Option Value := match String.ofList w with
      | "true" => some (.boolean true)
      | "false" => some (.boolean false)
      | text =>
        ((integer? w).map Value.integer).orElse fun _ =>
          ((float? w).map Value.float).orElse fun _ =>
            if isDateTime w then some (.dateTime text) else none
    value.map (·, rest)

end Columnar.Toml
