import Columnar.DataType

namespace Columnar

inductive Reading
  | signed | unsigned | float
  deriving DecidableEq, Repr

/-- A number in the order of the values a word can have. Floats rank by the IEEE total order: below
zero the larger magnitude comes first, and each NaN lies beyond the infinity of its sign. -/
def Reading.rank {w : Nat} : Reading → BitVec w → Int
  | .signed, x => x.toInt
  | .unsigned, x => x.toNat
  | .float, x => if x.msb then -((x.toNat - (1 <<< (w - 1)) : Nat) : Int) - 1 else x.toNat

inductive Layout
  | none
  | bit
  | word (width : Nat) (reading : Reading)
  | text
  | bytes
  | block (width : Nat)
  deriving DecidableEq, Repr

abbrev Block (width : Nat) : Type := { bytes : List UInt8 // bytes.length = width }

namespace Layout

/-- What is stored for one element. Types without a layout store nothing. -/
abbrev Element : Layout → Type
  | .none => Empty
  | .bit => Bool
  | .word w _ => BitVec w
  | .text => String
  | .bytes => List UInt8
  | .block w => Block w

/-- What a memo table keeps of an element; text is kept as its bytes. -/
abbrev Key : Layout → Type
  | .none => Empty
  | .bit => Bool
  | .word w _ => BitVec w
  | .text | .bytes | .block _ => List UInt8

instance : (l : Layout) → DecidableEq l.Element
  | .none => inferInstanceAs (DecidableEq Empty)
  | .bit => inferInstanceAs (DecidableEq Bool)
  | .word w _ => inferInstanceAs (DecidableEq (BitVec w))
  | .text => inferInstanceAs (DecidableEq String)
  | .bytes => inferInstanceAs (DecidableEq (List UInt8))
  | .block w => inferInstanceAs (DecidableEq (Block w))

instance : (l : Layout) → DecidableEq l.Key
  | .none => inferInstanceAs (DecidableEq Empty)
  | .bit => inferInstanceAs (DecidableEq Bool)
  | .word w _ => inferInstanceAs (DecidableEq (BitVec w))
  | .text | .bytes | .block _ => inferInstanceAs (DecidableEq (List UInt8))

def key : (l : Layout) → l.Element → l.Key
  | .none, x => x
  | .bit, b => b
  | .word _ _, x => x
  | .text, s => s.toUTF8.toList
  | .bytes, bs => bs
  | .block _, bs => bs.1

/-- How far an element moves the offsets of its column. Only text and bytes have offsets. -/
def extent : (l : Layout) → l.Element → Nat
  | .text, s => s.toUTF8.toList.length
  | .bytes, string => string.length
  | .none, _ | .bit, _ | .word _ _, _ | .block _, _ => 0

/-- Offsets are 32-bit and not negative. -/
def largestOffset : Nat := 2147483647

/-- The order of elements by value: `false` before `true`, words by the number they stand for, bytes
lexicographically. -/
def order : (l : Layout) → l.Key → l.Key → Ordering
  | .none, a, _ => a.elim
  | .bit, a, b => compare a b
  | .word _ reading, a, b => compare (reading.rank a) (reading.rank b)
  | .text, a, b | .bytes, a, b | .block _, a, b => compare a b

end Layout

/-- Types that have no layout hold no values, only nulls. -/
def DataType.layout : DataType → Layout
  | .boolean => .bit
  | .int w => .word w.bits .signed
  | .uint w => .word w.bits .unsigned
  | .float .single => .word 32 .float
  | .float .double => .word 64 .float
  | .date32 => .word 32 .signed
  | .date64 => .word 64 .signed
  | .time32 .second | .time32 .millisecond => .word 32 .signed
  | .time64 .microsecond | .time64 .nanosecond => .word 64 .signed
  | .timestamp _ _ => .word 64 .signed
  | .decimal .w128 _ _ => .word 128 .signed
  | .decimal .w256 _ _ => .word 256 .signed
  | .binary => .bytes
  | .utf8 => .text
  | .fixedSizeBinary (.ofNat w) => .block w
  | _ => .none

abbrev DataType.Element (t : DataType) : Type := t.layout.Element

end Columnar
