import Columnar.Kernel
import Columnar.Struct

namespace Columnar

/-- A column as keys into a dictionary of its distinct elements. -/
structure Encoded where
  keys : Cells DataType.int32.layout
  dictionary : Column

def Encoded.type (e : Encoded) : DataType := .dictionary .int32 e.dictionary.type

namespace Distinct

variable {op : Operation} {t : DataType}

/-- A finished pass: the kernel, what it handed out after each chunk, and the dictionary. -/
structure Pass (op : Operation) (t : DataType) where
  kernel : Kernel op t
  outputs : List Column
  dictionary : Column

/-- Takes in the chunks in order, with a flush after each. -/
def feed [Memory] (kernel : Kernel op t) :
    List Column → Except Failure (Kernel op t × List Column)
  | [] => .ok (kernel, [])
  | chunk :: chunks => do
    let (kernel, result) := kernel.append chunk
    result
    let (flushed, kernel) := kernel.flush
    let out ← flushed
    let (kernel, outs) ← feed kernel chunks
    return (kernel, (out.map (Column.mk .int32)).toList ++ outs)

def pass [Memory] (op : Operation) (t : DataType) (chunks : List Column) (capacity : Nat) :
    Except Failure (Pass op t) := do
  let kernel ← Kernel.create op t capacity
  let (kernel, outputs) ← feed kernel chunks
  let dictionary ← kernel.dictionary
  return { kernel, outputs, dictionary }

/-- A key must be null or a position of the dictionary. -/
def encode (dictionary keys : Column) : Except Failure Encoded :=
  match keys.as? .int32 with
  | none => .error (.internal (.keyType keys.type))
  | some keys =>
    let astray := keys.toList.zipIdx.find? fun (key, _) =>
      key.any fun k => k.toInt < 0 || dictionary.length ≤ k.toInt.toNat
    match astray with
    | some (some key, i) => .error (.format (.dictionaryKey key.toInt i dictionary.length))
    | _ => .ok { keys, dictionary }

end Distinct

open Distinct

/-- The distinct elements of all chunks in order of first sight, null among them if there is one. -/
def uniqueChunked [Memory] (t : DataType) (chunks : List Column) (capacity : Nat) :
    Except Failure Column := do
  return (← pass .unique t chunks capacity).dictionary

def valueCountsFields (t : DataType) : List Field :=
  [.plain "values" t true, .plain "counts" .int64 false]

def valueCountsChunked [Memory] (t : DataType) (chunks : List Column) (capacity : Nat) :
    Except Failure StructColumn := do
  let done ← pass .valueCounts t chunks capacity
  let counts := (done.kernel.flushFinal).1.getD (.ofValues [])
  if counts.length = done.dictionary.length then
    StructColumn.ofColumns (valueCountsFields t) [done.dictionary, ⟨.int64, counts⟩]
  else
    throw (.internal (.countsLength counts.length done.dictionary.length))

/-- One encoded column per chunk, all with the same dictionary, which holds no null. -/
def dictionaryEncodeChunked [Memory] (t : DataType) (chunks : List Column) (capacity : Nat) :
    Except Failure (List Encoded) := do
  let done ← pass .dictionaryEncode t chunks capacity
  if done.outputs.length = chunks.length then
    done.outputs.mapM (encode done.dictionary)
  else
    throw (.internal (.missingKeys done.outputs.length chunks.length))

namespace Operation

abbrev Result : Operation → Type
  | .unique => Column
  | .valueCounts => StructColumn
  | .dictionaryEncode => List Encoded

def chunked [Memory] : (op : Operation) → (t : DataType) → (chunks : List Column) →
    (capacity : Nat) → Except Failure op.Result
  | .unique => uniqueChunked
  | .valueCounts => valueCountsChunked
  | .dictionaryEncode => dictionaryEncodeChunked

end Operation

namespace Column

def unique [Memory] (c : Column) : Except Failure Column := uniqueChunked c.type [c] 0

def valueCounts [Memory] (c : Column) : Except Failure StructColumn :=
  valueCountsChunked c.type [c] 0

def dictionaryEncode [Memory] (c : Column) : Except Failure Encoded := do
  match ← dictionaryEncodeChunked c.type [c] 0 with
  | encoded :: _ => return encoded
  | [] => throw (.internal .nothingEncoded)

end Column

end Columnar
