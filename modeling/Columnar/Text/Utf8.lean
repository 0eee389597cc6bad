namespace Columnar

/-- Why bytes are not UTF-8. Everything before `start` is; a broken sequence there has `length`
bytes, and one that the end of the input cuts off has none. -/
structure Utf8Fault where
  start : Nat
  length : Option Nat
  deriving DecidableEq, Repr

def Utf8Fault.text : Utf8Fault → String
  | ⟨start, some n⟩ => s!"invalid utf-8 sequence of {n} bytes from index {start}"
  | ⟨start, none⟩ => s!"incomplete utf-8 byte sequence from index {start}"

namespace Text

/-- For a byte that opens a longer sequence: how many bytes follow it, the bits it adds to the code
point, and the least and greatest byte that may come next. -/
def openSequence (lead : Nat) : Option (Nat × Nat × Nat × Nat) :=
  if lead < 0xc2 then none
  else if lead < 0xe0 then some (1, lead % 32, 0x80, 0xbf)
  else if lead = 0xe0 then some (2, 0, 0xa0, 0xbf)
  else if lead = 0xed then some (2, 13, 0x80, 0x9f)
  else if lead < 0xf0 then some (2, lead % 16, 0x80, 0xbf)
  else if lead = 0xf0 then some (3, 0, 0x90, 0xbf)
  else if lead < 0xf4 then some (3, lead % 8, 0x80, 0xbf)
  else if lead = 0xf4 then some (3, 4, 0x80, 0x8f)
  else none

/-- Adds `more` bytes to the code point, the next of them between `least` and `greatest`. A failure
gives the length of the broken sequence, or nothing when the input ends within it. -/
def continueSequence (more taken point least greatest : Nat) (bytes : List UInt8) :
    Except (Option Nat) Nat :=
  match more, bytes with
  | 0, _ => .ok point
  | _ + 1, [] => .error none
  | more + 1, b :: rest =>
    if least ≤ b.toNat ∧ b.toNat ≤ greatest then
      continueSequence more (taken + 1) (64 * point + b.toNat % 64) 0x80 0xbf rest
    else .error (some taken)

/-- The character that `lead` opens, and how many of the bytes after it belong to it. -/
def firstChar (lead : UInt8) (rest : List UInt8) : Except (Option Nat) (Char × Nat) :=
  if lead.toNat < 0x80 then .ok (Char.ofNat lead.toNat, 0)
  else
    match openSequence lead.toNat with
    | none => .error (some 1)
    | some (more, point, least, greatest) =>
      (continueSequence more 1 point least greatest rest).map fun p => (Char.ofNat p, more)

/-- The characters of `bytes`, which start at index `start` of the whole input. -/
def decodeFrom (start : Nat) (bytes : List UInt8) : Except Utf8Fault (List Char) :=
  match bytes with
  | [] => .ok []
  | lead :: rest =>
    match firstChar lead rest with
    | .error length => .error ⟨start, length⟩
    | .ok (c, more) => (decodeFrom (start + more + 1) (rest.drop more)).map (c :: ·)
termination_by bytes.length
decreasing_by simp only [List.length_drop, List.length_cons]; omega

def decode (bytes : List UInt8) : Except Utf8Fault String := (decodeFrom 0 bytes).map String.ofList

/-- Whether a character starts at `offset` of well-formed text, or the text ends there. -/
def isBoundary (bytes : Array UInt8) (offset : Nat) : Bool :=
  match bytes[offset]? with
  | some b => b.toNat < 0x80 || 0xc0 ≤ b.toNat
  | none => offset = bytes.size

end Text

end Columnar
