import HostBridge.Json.Raw

/-!
# Reading JSON

The reader goes through the bytes from left to right; every step takes what it
needs from the front and returns the rest. Blanks (space, tab, line feed,
carriage return) may stand around every token. The rules are those of the JSON
grammar and no more: neither the nesting of brackets nor the size of a number
is bounded here, and the bytes of a string may be anything but control
characters.

The recursion is bounded by a number of steps; `Raw.read?` allows two for each
byte, which is enough because an element costs two steps and at least one byte.
-/

namespace HostBridge

namespace Raw

/-- A blank between tokens. -/
def isBlank (byte : UInt8) : Bool :=
  byte == 0x20 || byte == 0x09 || byte == 0x0A || byte == 0x0D

/-- What follows the blanks in front. -/
def skipBlanks (bytes : Bytes) : Bytes := bytes.dropWhile isBlank

/-- The value of a written digit. -/
def digit? (byte : UInt8) : Option Digit :=
  if 0x30 ≤ byte ∧ byte ≤ 0x39 then some (Digit.last (byte.toNat - 0x30)) else none

/-- The digits in front, and the rest. -/
def readDigits : Bytes → List Digit × Bytes
  | [] => ([], [])
  | byte :: rest =>
    match digit? byte with
    | some d =>
      let (digits, rest) := readDigits rest
      (d :: digits, rest)
    | none => ([], byte :: rest)

/-- The point and the digits after it, if a point comes first. -/
def readFraction (bytes : Bytes) : Option (Option (List Digit) × Bytes) :=
  match bytes with
  | 0x2E :: rest =>
    match readDigits rest with
    | ([], _) => none
    | (digits, rest) => some (some digits, rest)
  | _ => some (none, bytes)

/-- The sign and the digits of an exponent. -/
def readExponentDigits (bytes : Bytes) : Option (Exponent × Bytes) :=
  let (negative, rest) : Bool × Bytes :=
    match bytes with
    | 0x2B :: rest => (false, rest)
    | 0x2D :: rest => (true, rest)
    | _ => (false, bytes)
  match readDigits rest with
  | ([], _) => none
  | (digits, rest) => some (⟨negative, digits⟩, rest)

/-- The exponent, if its letter comes first. -/
def readExponent (bytes : Bytes) : Option (Option Exponent × Bytes) :=
  match bytes with
  | 0x65 :: rest => (readExponentDigits rest).map fun (e, rest) => (some e, rest)
  | 0x45 :: rest => (readExponentDigits rest).map fun (e, rest) => (some e, rest)
  | _ => some (none, bytes)

/-- A number literal. A zero in front of other digits is refused. -/
def readNumber (bytes : Bytes) : Option (Literal × Bytes) := do
  let (negative, rest) : Bool × Bytes :=
    match bytes with
    | 0x2D :: rest => (true, rest)
    | _ => (false, bytes)
  let (whole, rest) ←
    match readDigits rest with
    | ([], _) => none
    | (first :: more, rest) =>
      -- a zero stands alone before the point
      if first.val = 0 ∧ more ≠ [] then none else some (first :: more, rest)
  let (fraction, rest) ← readFraction rest
  let (exponent, rest) ← readExponent rest
  return (⟨negative, whole, fraction, exponent⟩, rest)

/-- The pieces of a string up to the closing quote, which is taken too. -/
def readPieces : Bytes → Option (List Piece × Bytes)
  | [] => none
  | 0x22 :: rest => some ([], rest)
  | 0x5C :: 0x75 :: a :: b :: c :: d :: rest => do
    let code ← Piece.unit? a b c d
    let (pieces, rest) ← readPieces rest
    return (.unit code :: pieces, rest)
  | 0x5C :: letter :: rest => do
    let escape ← Escape.ofLetter? letter
    let (pieces, rest) ← readPieces rest
    return (.short escape :: pieces, rest)
  | byte :: rest =>
    if byte < 0x20 ∨ byte = 0x5C then none
    else do
      let (pieces, rest) ← readPieces rest
      return (.plain byte :: pieces, rest)

mutual

/-- A value, after blanks. -/
def readValue : (steps : Nat) → Bytes → Option (Raw × Bytes)
  | 0, _ => none
  | steps + 1, bytes =>
    match skipBlanks bytes with
    | 0x6E :: 0x75 :: 0x6C :: 0x6C :: rest => some (.null, rest)
    | 0x74 :: 0x72 :: 0x75 :: 0x65 :: rest => some (.bool true, rest)
    | 0x66 :: 0x61 :: 0x6C :: 0x73 :: 0x65 :: rest => some (.bool false, rest)
    | 0x22 :: rest => (readPieces rest).map fun (pieces, rest) => (.string pieces, rest)
    | 0x5B :: rest =>
      match skipBlanks rest with
      | 0x5D :: rest => some (.array [], rest)
      | rest => (readElements steps rest).map fun (xs, rest) => (.array xs, rest)
    | 0x7B :: rest =>
      match skipBlanks rest with
      | 0x7D :: rest => some (.object [], rest)
      | rest => (readMembers steps rest).map fun (ms, rest) => (.object ms, rest)
    | rest => (readNumber rest).map fun (literal, rest) => (.number literal, rest)

/-- At least one element of an array, up to the closing bracket, which is taken
    too. -/
def readElements : (steps : Nat) → Bytes → Option (List Raw × Bytes)
  | 0, _ => none
  | steps + 1, bytes => do
    let (x, rest) ← readValue steps bytes
    match skipBlanks rest with
    | 0x5D :: rest => return ([x], rest)
    | 0x2C :: rest => do
      let (xs, rest) ← readElements steps rest
      return (x :: xs, rest)
    | _ => none

/-- At least one member of an object, up to the closing brace, which is taken
    too. -/
def readMembers : (steps : Nat) → Bytes → Option (List (List Piece × Raw) × Bytes)
  | 0, _ => none
  | steps + 1, bytes => do
    let (key, rest) ←
      match skipBlanks bytes with
      | 0x22 :: rest => readPieces rest
      | _ => none
    let (x, rest) ←
      match skipBlanks rest with
      | 0x3A :: rest => readValue steps rest
      | _ => none
    match skipBlanks rest with
    | 0x7D :: rest => return ([(key, x)], rest)
    | 0x2C :: rest => do
      let (ms, rest) ← readMembers steps rest
      return ((key, x) :: ms, rest)
    | _ => none

end

/-- The value that the whole of `bytes` spells. -/
def read? (bytes : Bytes) : Option Raw :=
  match readValue (2 * bytes.length + 2) bytes with
  | some (x, rest) => if skipBlanks rest = [] then some x else none
  | none => none

end Raw

end HostBridge
