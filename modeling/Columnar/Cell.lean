import Columnar.Calendar
import Columnar.Column
import Columnar.Failure
import Columnar.Number.Shortest
import Columnar.Text.Quoted

namespace Columnar

/-! ### Floats -/

/-- When the digits of a float stand without an exponent: the point lies after at most `most` digits, or
fewer than `zeros` zeros stand between the point and the first digit. -/
structure FloatStyle where
  format : Number.FloatFormat
  most : Int
  zeros : Int

def singleStyle : FloatStyle := ⟨Number.singleFormat, 13, 6⟩

def doubleStyle : FloatStyle := ⟨Number.doubleFormat, 16, 5⟩

namespace FloatStyle

def zeroText (n : Nat) : String := "".pushn '0' n

/-- Positional text always has a point with a digit on either side. -/
def decimalText (style : FloatStyle) (d : Number.Decimal) : String :=
  let digits := toString d.digits
  let (front, back) := (String.ofList (digits.toList.take d.point.toNat),
    String.ofList (digits.toList.drop d.point.toNat))
  if 0 ≤ d.exponent ∧ d.point ≤ style.most then digits ++ zeroText d.exponent.toNat ++ ".0"
  else if 0 < d.point ∧ d.point ≤ style.most then front ++ "." ++ back
  else if -style.zeros < d.point ∧ d.point ≤ 0 then "0." ++ zeroText (-d.point).toNat ++ digits
  else
    match digits.toList with
    | first :: second :: rest =>
      s!"{first}.{String.ofList (second :: rest)}e{d.point - 1}"
    | _ => s!"{digits}e{d.point - 1}"

def text (style : FloatStyle) (bits : Nat) : String :=
  let (negative, kind) := style.format.classify bits
  let sign := if negative then "-" else ""
  match kind with
  | .nan => "NaN"
  | .infinite => sign ++ "inf"
  | .zero => sign ++ "0.0"
  | .finite d => sign ++ style.decimalText d

end FloatStyle

/-! ### Decimals -/

/-- An unscaled decimal with its point set. Digits beyond the precision are cut off at the end, and the
point is counted from there; it may not come to stand before the text. -/
def decimalText (precision : Nat) (scale : Int) (unscaled : Int) : Except Failure String :=
  let sign := if unscaled < 0 then ['-'] else []
  let digits := (toString unscaled.natAbs).toList
  let kept := sign ++ digits.take precision
  match scale with
  | .ofNat 0 => .ok (String.ofList kept)
  | .negSucc n => .ok (String.ofList (kept ++ List.replicate (n + 1) '0'))
  | .ofNat scale =>
    if digits.length ≤ scale then
      .ok (String.ofList sign ++ "0." ++ FloatStyle.zeroText (scale - digits.length) ++
        String.ofList digits)
    else if scale ≤ kept.length then
      let whole := kept.length - scale
      .ok (String.ofList (kept.take whole) ++ "." ++ String.ofList (kept.drop whole))
    else .error .outOfBounds

/-! ### Dates and times -/

def TimeUnit.perSecond : TimeUnit → Nat
  | .second => 1
  | .millisecond => 1000
  | .microsecond => 1000000
  | .nanosecond => 1000000000

def TimeUnit.nanoseconds (unit : TimeUnit) : Nat := 1000000000 / unit.perSecond

def unreadable (what : String) (t : DataType) (n : Int) : String :=
  s!"ERROR: Cast error: Failed to convert {n} to {what} for {t.text}"

def dateText? (days : Int) : Option String :=
  let date := Calendar.Date.ofDays days
  if date.isKnown then some date.text else none

/-- Seconds and fractions are counted in 32 bits; a second may run over into a leap second at the end of
a minute. -/
def clockText? (unit : TimeUnit) (n : Int) : Option String :=
  let wrap (i : Int) : Nat := (i.emod 0x100000000).toNat
  let seconds := wrap (n.tdiv unit.perSecond)
  let nanoseconds := wrap (n.tmod unit.perSecond * unit.nanoseconds)
  if Calendar.secondsPerDay ≤ seconds ∨ 2000000000 ≤ nanoseconds ∨
      (1000000000 ≤ nanoseconds ∧ seconds % 60 ≠ 59) then none
  else some (Calendar.Clock.text ⟨seconds, nanoseconds⟩)

/-- A point in time, at its zone's clock if it has a zone. Nothing is written for a date outside the calendar,
and a zone may not lead out of it. -/
def momentText? (unit : TimeUnit) (zone : Option Int) (n : Int) : Except Failure (Option String) :=
  let seconds := n.fdiv unit.perSecond
  let nanoseconds := (n.fmod unit.perSecond).toNat * unit.nanoseconds
  let universal := Calendar.moment seconds nanoseconds
  if universal.1.isKnown then
    match zone with
    | none => .ok (some (Calendar.momentText universal))
    | some offset =>
      let localMoment := Calendar.moment (seconds + offset) nanoseconds
      if localMoment.1.isKnown then
        .ok (some (Calendar.momentText localMoment ++ Calendar.offsetText offset))
      else .error .outOfBounds
  else .ok none

def numberText (t : DataType) (zone : Option Int) (n : Int) : Except Failure String :=
  match t with
  | .date32 => .ok ((dateText? n).getD (unreadable "temporal" t n))
  | .date64 => return (← momentText? .millisecond none n).getD (unreadable "temporal" t n)
  | .time32 unit | .time64 unit => .ok ((clockText? unit n).getD (unreadable "temporal" t n))
  | .timestamp unit _ => return (← momentText? unit zone n).getD (unreadable "datetime" t n)
  | .decimal _ precision scale => decimalText precision scale n
  | _ => .ok (toString n)

/-! ### Elements -/

def byteText (b : UInt8) : String :=
  let digits := Text.hexDigits b.toNat
  if digits.length < 2 then "0" ++ digits else digits

def bytesText (bytes : List UInt8) : String := String.join (bytes.map byteText)

def elementText (t : DataType) (zone : Option Int) :
    (l : Layout) → l.Element → Except Failure String
  | .none, x => x.elim
  | .bit, b => .ok (toString b)
  | .word 32 .float, x => .ok (singleStyle.text x.toNat)
  | .word _ .float, x => .ok (doubleStyle.text x.toNat)
  | .word _ .signed, x => numberText t zone x.toInt
  | .word _ .unsigned, x => .ok (toString x.toNat)
  | .text, s => .ok s
  | .bytes, bytes => .ok (bytesText bytes)
  | .block _, bytes => .ok (bytesText bytes.1)

/-- The offset of a type's zone; only zones that are written as offsets are known. -/
def zoneOffset (t : DataType) : Except Failure (Option Int) :=
  match t with
  | .timestamp _ (some zone) =>
    match Calendar.offset? zone with
    | some offset => .ok (some offset)
    | none => .error (.format (.unknownZone zone))
  | _ => .ok none

namespace Column

def texts (c : Column) : Except Failure (List String) := do
  let zone ← zoneOffset c.type
  c.cells.toList.mapM fun x => match x with
    | some x => elementText c.type zone c.type.layout x
    | none => .ok ""

end Column

end Columnar
