import Columnar.Struct

namespace Columnar

structure Position where
  array : UInt32
  offset : UInt32
  deriving DecidableEq, Repr, Inhabited

namespace Position

/-- The four bytes of a word, least significant first. -/
def wordBytes (w : UInt32) : List UInt8 :=
  [w.toUInt8, (w >>> 8).toUInt8, (w >>> 16).toUInt8, (w >>> 24).toUInt8]

def wordOfBytes : List UInt8 → UInt32
  | [] => 0
  | b :: bytes => b.toUInt32 ||| (wordOfBytes bytes <<< 8)

def packedWidth : Nat := 8

def toBlock (p : Position) : Block packedWidth :=
  ⟨wordBytes p.array ++ wordBytes p.offset, rfl⟩

def ofBlock (block : Block packedWidth) : Position :=
  ⟨wordOfBytes (block.1.take 4), wordOfBytes (block.1.drop 4)⟩

def pack (positions : List Position) : Cells (.block packedWidth) :=
  Cells.ofValues (positions.map toBlock)

def unpack {width : Nat} (packed : Cells (.block width)) : Except Failure (List Position) :=
  if h : width = packedWidth then
    match packed.toList.mapM id with
    | some blocks => .ok (blocks.map fun block => ofBlock (h ▸ block))
    | none => .error (.invalidInput .packedNulls)
  else .error (.invalidInput (.packedWidth width))

def fields : List Field := [.plain "array_id" .uint32 false, .plain "offset" .uint32 false]

def numbers (positions : List Position) (part : Position → UInt32) : Cells DataType.uint32.layout :=
  Cells.ofValues (positions.map fun p => (part p).toBitVec)

def toStruct (positions : List Position) : Except Failure StructColumn :=
  StructColumn.ofColumns fields
    [⟨.uint32, numbers positions array⟩, ⟨.uint32, numbers positions offset⟩]

def element? {l : Layout} (sources : Array (Cells l)) (p : Position) : Option (Option l.Element) :=
  match sources[p.array.toNat]? with
  | some cells =>
    if p.offset.toNat < cells.length then some (cells.get p.offset.toNat) else none
  | none => none

/-- Gathers the elements at the positions behind `offset` bytes. What lies at each position, be it under a
null, moves the offsets of the new column. -/
def gather {l : Layout} (sources : Array (Cells l)) (offset : Nat) :
    List Position → Except Failure (List (Option l.Element))
  | [] => .ok []
  | p :: ps =>
    match sources[p.array.toNat]? with
    | some cells =>
      if p.offset.toNat < cells.length then do
        let reached := offset + cells.extent p.offset.toNat
        if Layout.largestOffset < reached then .error (.format (.offsetOverflow reached))
        else return cells.get p.offset.toNat :: (← gather sources reached ps)
      else .error .outOfBounds
    | none => .error .outOfBounds

def take (sources : List Column) (positions : List Position) : Except Failure Column :=
  match sources with
  | [] => .error (.format .interleaveNone)
  | first :: _ =>
    match sources.find? (·.type ≠ first.type) with
    | some other => .error (.format (.interleaveTypes first.type other.type))
    | none => do
      let elements ← gather (sources.filterMap (·.as? first.type)).toArray 0 positions
      return ⟨first.type, Cells.ofList elements⟩

end Position

end Columnar
