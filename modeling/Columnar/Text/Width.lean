import Columnar.Text.Emoji
import Columnar.Text.Unspaced
import Columnar.Text.Wide

namespace Columnar.Text

def charWidth (c : Char) : Nat :=
  if c.toNat ≤ 0xa0 then 1
  else if c = '\u17d8' then 3
  else if c = '\u17a4' || wideRanges.contains c then 2
  else if unspacedRanges.contains c then 0
  else 1

/-! ### Kinds of characters -/

def within (least greatest : Nat) (c : Char) : Bool := least ≤ c.toNat && c.toNat ≤ greatest

def isIndicator (c : Char) : Bool := within 0x1f1e6 0x1f1ff c

def isTone (c : Char) : Bool := within 0x1f3fb 0x1f3ff c

def isTagLetter (c : Char) : Bool := within 0xe0061 0xe007a c

def isTagDigit (c : Char) : Bool := within 0xe0030 0xe0039 c

/-- Emoji that can be shown as text, but for the squared ideographs. -/
def isTextual (c : Char) : Bool :=
  emojiRanges.contains c && variableRanges.contains c && !within 0x1f200 0x1f2ff c

def isLam (c : Char) : Bool :=
  Ranges.contains [(0x644, 0x644), (0x6b5, 0x6b8), (0x76a, 0x76a), (0x8a6, 0x8a6), (0x8c7, 0x8c7)] c

def isAlef (c : Char) : Bool :=
  Ranges.contains [(0x622, 0x623), (0x625, 0x625), (0x627, 0x627), (0x671, 0x673), (0x675, 0x675),
    (0x773, 0x774), (0x870, 0x882)] c

/-- Marks between two letters that join all the same. -/
def isJoiningMark (c : Char) : Bool := charWidth c = 0 && !separatingRanges.contains c

/-- Khmer letters that have a form below the line. -/
def isKhmerLetter (c : Char) : Bool :=
  Ranges.contains [(0x1780, 0x1782), (0x1784, 0x1787), (0x1789, 0x178c), (0x178e, 0x1793),
    (0x1795, 0x1798), (0x179b, 0x179d), (0x17a0, 0x17a0), (0x17a2, 0x17a2), (0x17a7, 0x17a7),
    (0x17ab, 0x17ac), (0x17af, 0x17af)] c

def isTifinagh (c : Char) : Bool := within 0x2d31 0x2d65 c || c = '\u2d6f'

/-- Marks that are not shown and leave the ligatures around them alone. -/
def isHiddenMark (c : Char) : Bool :=
  Ranges.contains [(0x34f, 0x34f), (0x17b4, 0x17b5), (0x180b, 0x180d), (0x180f, 0x180f),
    (0xfe00, 0xfe0f), (0xe0100, 0xe01ef)] c

def joiner : Char := '\u200d'

/-! ### What follows -/

/-- What the text after a character starts with, as far as the character may be drawn together with it.
`joined` tells whether a joiner stands before it. -/
inductive Start
  | plain
  | lineFeed
  | alef
  | lamed (joined : Bool)
  | khmerLetter
  | ya (joined : Bool)
  /-- A Buginese vowel before a joined ya. -/
  | vowelYa
  | tifinagh (joined : Bool)
  /-- A Tifinagh consonant after the sign that joins consonants. -/
  | linkedTifinagh
  | toneLetter
  | orkhonI (joined : Bool)
  | kiratE
  | kiratAi
  | emoji
  | tone
  | indicator
  | indicators
  | joinedEmoji
  | joinedKeycap
  | joinedIndicator
  | evenIndicators
  | oddIndicators
  /-- So many tag letters before the closing tag and a joined emoji. -/
  | tagLetters (count : Nat)
  /-- So many tag digits before tag letters or the closing tag. -/
  | tagDigits (count : Nat)
  deriving DecidableEq, Repr

/-- Ligatures that hidden marks do not interrupt. -/
def Start.isLigature : Start → Bool
  | .lamed _ | .khmerLetter | .ya _ | .vowelYa | .tifinagh _ | .linkedTifinagh | .toneLetter
  | .orkhonI _ => true
  | _ => false

def Start.join : Start → Start
  | .lamed _ => .lamed true
  | .ya _ => .ya true
  | .tifinagh _ => .tifinagh true
  | .orkhonI _ => .orkhonI true
  | start => start

def Start.ofChar (c : Char) : Start :=
  if c = '\n' then .lineFeed
  else if c = '\u05dc' then .lamed false
  else if isAlef c then .alef
  else if isKhmerLetter c then .khmerLetter
  else if c = '\u1a10' then .ya false
  else if isTifinagh c then .tifinagh false
  else if within 0xa4fc 0xa4fd c then .toneLetter
  else if c.toNat = 0x10c03 then .orkhonI false
  else if c.toNat = 0x16d67 then .kiratE
  else if c.toNat = 0x16d68 then .kiratAi
  else if isIndicator c then .indicator
  else if isTone c then .tone
  else if emojiRanges.contains c then .emoji
  else .plain

/-- The width that a character adds before such a start if it is drawn together with it, and the start of
the text from there on. -/
def Start.extend? (start : Start) (c : Char) : Option (Int × Start) :=
  let found (condition : Bool) (width : Int) (start : Start) : Option (Int × Start) :=
    if condition then some (width, start) else none
  match start with
  | .alef => (found (isLam c) 0 .plain).or (found (isJoiningMark c) 0 .alef)
  | .lamed true => found (c = '\u05d0') 0 .plain
  | .khmerLetter => found (c = '\u17d2') (-1) .plain
  | .ya true => found (c = '\u1a17') 0 .vowelYa
  | .vowelYa => found (c = '\u1a15') 0 .plain
  | .tifinagh joined =>
    (found (c = '\u2d7f') 1 .linkedTifinagh).or (found (joined && isTifinagh c) 0 .plain)
  | .linkedTifinagh => found (isTifinagh c) (-1) .plain
  | .toneLetter => found (within 0xa4f8 0xa4fb c) 0 .plain
  | .orkhonI true => found (c.toNat = 0x10c32) 0 .plain
  | .kiratE =>
    (found (c.toNat = 0x16d63 || c.toNat = 0x16d69) 0 .plain).or <|
      (found (c.toNat = 0x16d67) 0 .kiratAi).or (found (c.toNat = 0x16d68) 1 .kiratE)
  | .kiratAi => found (c.toNat = 0x16d63) 0 .plain
  | .emoji => found (c = joiner) 0 .joinedEmoji
  | .tone => (found (tonedRanges.contains c) 0 .emoji).or (found (c = joiner) 0 .joinedEmoji)
  | .indicator => found (isIndicator c) 1 .indicators
  | .indicators => (found (isIndicator c) 1 .indicators).or (found (c = joiner) 0 .joinedEmoji)
  | .joinedEmoji =>
    (found (c = '\u20e3') 0 .joinedKeycap).or <|
      (found (isIndicator c) 1 .joinedIndicator).or <|
        (found (isTone c) 0 .tone).or <|
          (found (c.toNat = 0xe007f) 0 (.tagLetters 0)).or
            (found (emojiRanges.contains c) 0 .emoji)
  | .joinedIndicator => found (isIndicator c) (-1) .evenIndicators
  | .evenIndicators =>
    (found (isIndicator c) 3 .oddIndicators).or (found (c = joiner) 0 .joinedEmoji)
  | .oddIndicators =>
    (found (isIndicator c) (-1) .evenIndicators).or (found (c = joiner) 0 .joinedEmoji)
  | .tagLetters count =>
    (found (count < 6 && isTagLetter c) 0 (.tagLetters (count + 1))).or <|
      (found (count < 5 && isTagDigit c) 0 (.tagDigits 1)).or
        (found (3 ≤ count && c.toNat = 0x1f3f4) 0 .emoji)
  | .tagDigits count =>
    (found (count < 3 && isTagDigit c) 0 (.tagDigits (count + 1))).or
      (found (3 ≤ count && c.toNat = 0x1f3f4) 0 .emoji)
  | _ => none

/-! ### Selectors -/

/-- What follows a character, and the variation selectors right before it. -/
structure Following where
  start : Start
  asEmoji : Bool
  asText : Bool
  asQuote : Bool
  deriving DecidableEq, Repr

namespace Following

def of (start : Start) : Following := ⟨start, false, false, false⟩

/-- What a selector leaves of what follows it: ligatures and, for `kept`, some more. -/
def beforeSelector (next : Following) (kept : Bool) : Following :=
  if next.start.isLigature || kept then next else of .plain

def markEmoji (next : Following) : Following :=
  { next.beforeSelector (next.start = .joinedEmoji || next.start = .joinedKeycap) with
    asEmoji := true }

/-- The width that a character adds, and what follows the character before it. -/
def measure (next : Following) (c : Char) : Int × Following :=
  let ordinary : Int × Following := (charWidth c, of (Start.ofChar c))
  if next.asEmoji && variableRanges.contains c then
    (if next.start = .joinedEmoji || next.start = .joinedKeycap then 0 else 2, of .emoji)
  else
    let next := if next.asEmoji then { next.beforeSelector false with asEmoji := false } else next
    if c.toNat ≤ 0xa0 then
      if c = '\r' && next.start = .lineFeed then (0, of .plain) else ordinary
    else if c = '\ufe0f' then (0, next.markEmoji)
    else if c = '\ufe0e' then (0, { next.beforeSelector false with asText := true })
    else if c = '\ufe01' then (0, { next.beforeSelector false with asQuote := true })
    else if next.asText && isTextual c then (1, of .plain)
    else if next.asQuote && ['\u2018', '\u2019', '\u201c', '\u201d'].contains c then (2, of .plain)
    else
      let start := next.start
      if start.isLigature && c = joiner then (0, of start.join)
      else if start.isLigature && isHiddenMark c then (0, of start)
      else
        match start.extend? c with
        | some (width, start) => (width, of start)
        | none => ordinary

end Following

def width (s : String) : Nat :=
  let (sum, _) := s.toList.foldr (fun c (sum, next) =>
    let (added, next) := next.measure c
    (sum + added, next)) ((0 : Int), Following.of .plain)
  sum.toNat

end Columnar.Text
