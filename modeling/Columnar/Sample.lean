import Columnar.Column

namespace Columnar

namespace Sample

/-- The number in row `i`; every seventh row is null when nulls are asked for. -/
def number? (distinct : Nat) (withNulls : Bool) (i : Nat) : Option Nat :=
  if withNulls && i % 7 == 6 then none else some (i % max distinct 1)

def eightBytes (n : Nat) : List UInt8 := (List.range 8).map fun i => UInt8.ofNat (n >>> (8 * i))

/-- Those bytes cut off at `width`, or filled up to it with zeros. -/
def block (width n : Nat) : Block width :=
  ⟨(eightBytes n ++ List.replicate width 0).take width, by simp⟩

/-- The form a number takes in a type, for the types that samples are made of. -/
def form? : (t : DataType) → Option (Nat → t.Element)
  | .boolean => some fun n => n % 2 == 1
  | .int w => some fun n => BitVec.ofNat w.bits n
  | .uint w => some fun n => BitVec.ofNat w.bits n
  | .float .single => some fun n => n.toFloat32.toBits.toBitVec
  | .float .double => some fun n => n.toFloat.toBits.toBitVec
  | .date32 => some (BitVec.ofNat 32)
  | .date64 => some (BitVec.ofNat 64)
  | .time32 .second => some (BitVec.ofNat 32)
  | .time64 .microsecond => some (BitVec.ofNat 64)
  | .timestamp .millisecond _ => some (BitVec.ofNat 64)
  | .decimal .w128 _ _ => some (BitVec.ofNat 128)
  | .utf8 => some fun n => toString n
  | .binary => some eightBytes
  | .fixedSizeBinary (.ofNat w) => some (block w)
  | _ => none

def extent : DataType → Nat → Nat
  | .utf8, n => (toString n).length
  | .binary, _ => 8
  | _, _ => 0

def lastOffset (t : DataType) (rows distinct : Nat) (withNulls : Bool) : Nat :=
  rows.fold (fun i _ offset => offset + (number? distinct withNulls i).elim 0 (extent t)) 0

/-- A sample of `rows` rows with at most `distinct` different values, if the type has samples and the
offsets of a column reach that far. -/
def column? (t : DataType) (rows distinct : Nat) (withNulls : Bool) : Option Column :=
  match t with
  | .null => some ⟨.null, .nulls _ rows⟩
  | t => do
    let form ← form? t
    if lastOffset t rows distinct withNulls ≤ Layout.largestOffset then
      return ⟨t, .ofList ((List.range rows).map fun i => (number? distinct withNulls i).map form)⟩
    else none

end Sample

namespace Column

/-- Consecutive slices of `chunkLength` rows, the last of them maybe shorter. -/
def chunks (c : Column) (chunkLength : Nat) : List Column :=
  let step := max chunkLength 1
  (List.range ((c.length + step - 1) / step)).map fun i =>
    c.slice (i * step) (min step (c.length - i * step))

end Column

end Columnar
