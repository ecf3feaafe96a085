import HostBridge.Text.Utf8

/-!
# String literals

Between its quotes a string literal is a row of pieces: bytes that stand for
themselves, short escapes such as `\n`, and units `\u0041` of UTF-16, of which
a high and a low surrogate in a row make one character.

* `Piece.text?` is the text that the pieces stand for, if their bytes together
  are UTF-8 and every surrogate has its partner.
* `Piece.spell` writes a text with as few escapes as possible.
-/

namespace HostBridge

/-- The characters with a short escape. -/
inductive Escape
  | quote
  | backslash
  | slash
  | backspace
  | formFeed
  | newline
  | carriageReturn
  | tab
deriving DecidableEq

namespace Escape

/-- All short escapes. -/
def all : List Escape :=
  [.quote, .backslash, .slash, .backspace, .formFeed, .newline, .carriageReturn, .tab]

/-- The byte that the escape stands for. -/
def byte : Escape → UInt8
  | .quote => 0x22
  | .backslash => 0x5C
  | .slash => 0x2F
  | .backspace => 0x08
  | .formFeed => 0x0C
  | .newline => 0x0A
  | .carriageReturn => 0x0D
  | .tab => 0x09

/-- The letter that is written after the backslash. -/
def letter : Escape → UInt8
  | .quote => 0x22
  | .backslash => 0x5C
  | .slash => 0x2F
  | .backspace => 0x62
  | .formFeed => 0x66
  | .newline => 0x6E
  | .carriageReturn => 0x72
  | .tab => 0x74

/-- The escape written with this letter. -/
def ofLetter? (letter : UInt8) : Option Escape :=
  all.find? (·.letter == letter)

/-- The escape of a character, if it has to be escaped and has a short one. -/
def ofChar? : Char → Option Escape
  | '"' => some .quote
  | '\\' => some .backslash
  | '\x08' => some .backspace
  | '\x0C' => some .formFeed
  | '\n' => some .newline
  | '\r' => some .carriageReturn
  | '\t' => some .tab
  | _ => none

end Escape

/-- A piece of a string literal. -/
inductive Piece
  /-- A byte that stands for itself: no quote, no backslash, not below 0x20. -/
  | plain (byte : UInt8)
  /-- A backslash and a letter. -/
  | short (escape : Escape)
  /-- A backslash, the letter `u` and four hexadecimal digits. -/
  | unit (code : UInt16)
deriving DecidableEq

namespace Piece

/-- The unit is the first half of a surrogate pair. -/
def isHigh (code : UInt16) : Bool := 0xD800 ≤ code && code < 0xDC00

/-- The unit is the second half of a surrogate pair. -/
def isLow (code : UInt16) : Bool := 0xDC00 ≤ code && code < 0xE000

/-- The character of a surrogate pair. -/
def paired (high low : UInt16) : Char :=
  Char.ofNat (0x10000 + (high.toNat - 0xD800) * 0x400 + (low.toNat - 0xDC00))

/-- The bytes that the pieces stand for. -/
def bytes? : List Piece → Option Bytes
  | [] => some []
  | .plain byte :: rest => (bytes? rest).map (byte :: ·)
  | .short escape :: rest => (bytes? rest).map (escape.byte :: ·)
  | .unit code :: rest =>
    if isHigh code then
      match rest with
      | .unit low :: rest =>
        if isLow low then (bytes? rest).map (String.utf8EncodeChar (paired code low) ++ ·)
        else none
      | _ => none
    else if isLow code then none
    else (bytes? rest).map (String.utf8EncodeChar (Char.ofNat code.toNat) ++ ·)

/-- The text that the pieces stand for. -/
def text? (pieces : List Piece) : Option String := (bytes? pieces).bind Utf8.decode?

/-- The pieces of one character. Only a quote, a backslash and what is below
    U+0020 are escaped. -/
def spellChar (c : Char) : List Piece :=
  match Escape.ofChar? c with
  | some escape => [.short escape]
  | none =>
    if c.toNat < 0x20 then [.unit (UInt16.ofNat c.toNat)]
    else (String.utf8EncodeChar c).map .plain

/-- The pieces of a text. -/
def spell (text : String) : List Piece := text.toList.flatMap spellChar

/-- A hexadecimal digit, as it is written. -/
def hexByte (n : Nat) : UInt8 := UInt8.ofNat (if n < 10 then 0x30 + n else 0x61 + n - 10)

/-- The value of a hexadecimal digit. -/
def hexValue? (byte : UInt8) : Option Nat :=
  if 0x30 ≤ byte ∧ byte ≤ 0x39 then some (byte.toNat - 0x30)
  else if 0x61 ≤ byte ∧ byte ≤ 0x66 then some (byte.toNat - 0x61 + 10)
  else if 0x41 ≤ byte ∧ byte ≤ 0x46 then some (byte.toNat - 0x41 + 10)
  else none

/-- The unit written with four hexadecimal digits. -/
def unit? (a b c d : UInt8) : Option UInt16 := do
  let a ← hexValue? a
  let b ← hexValue? b
  let c ← hexValue? c
  let d ← hexValue? d
  return UInt16.ofNat (((a * 16 + b) * 16 + c) * 16 + d)

/-- A piece as it is written. -/
def render : Piece → Bytes
  | .plain byte => [byte]
  | .short escape => [0x5C, escape.letter]
  | .unit code =>
    let n := code.toNat
    [0x5C, 0x75, hexByte (n / 4096), hexByte (n / 256 % 16), hexByte (n / 16 % 16), hexByte (n % 16)]

end Piece

end HostBridge
