import HostBridge.Json.Text
import HostBridge.Number.Literal

/-!
# JSON as it is spelled

A `Raw` value keeps what a JSON text spells out: the digits of every number,
the pieces of every string, the members of every object in the order in which
they stand, repeated ones included. Only blanks and the case of letters are
gone. What a `Raw` value means is for its readers to say; some parts of a
message are never given a meaning and need only be spelled correctly.

* `Raw.render` writes a value without blanks.
-/

namespace HostBridge

/-- A JSON value as it is spelled. -/
inductive Raw
  | null
  | bool (value : Bool)
  | number (literal : Literal)
  | string (pieces : List Piece)
  | array (elements : List Raw)
  | object (members : List (List Piece × Raw))
deriving Inhabited

namespace Digit

/-- A digit as it is written. -/
def render (d : Digit) : UInt8 := UInt8.ofNat (0x30 + d.val)

end Digit

namespace Literal

/-- A number literal as it is written. The sign of the exponent is always
    given. -/
def render (l : Literal) : Bytes :=
  (if l.negative then [0x2D] else []) ++ l.whole.map Digit.render ++
    (match l.fraction with
      | none => []
      | some digits => 0x2E :: digits.map Digit.render) ++
    (match l.exponent with
      | none => []
      | some e => 0x65 :: (if e.negative then 0x2D else 0x2B) :: e.digits.map Digit.render)

end Literal

namespace Raw

/-- A string literal with its quotes. -/
def renderString (pieces : List Piece) : Bytes :=
  0x22 :: (pieces.flatMap Piece.render ++ [0x22])

mutual

/-- The text of a value, without blanks. -/
def render : Raw → Bytes
  | .null => [0x6E, 0x75, 0x6C, 0x6C]
  | .bool true => [0x74, 0x72, 0x75, 0x65]
  | .bool false => [0x66, 0x61, 0x6C, 0x73, 0x65]
  | .number literal => literal.render
  | .string pieces => renderString pieces
  | .array [] => [0x5B, 0x5D]
  | .array (x :: xs) => 0x5B :: (render x ++ renderElements xs)
  | .object [] => [0x7B, 0x7D]
  | .object ((key, x) :: ms) =>
    0x7B :: (renderString key ++ 0x3A :: (render x ++ renderMembers ms))
termination_by structural x => x

/-- The further elements of an array, up to the closing bracket. -/
def renderElements : List Raw → Bytes
  | [] => [0x5D]
  | x :: xs => 0x2C :: (render x ++ renderElements xs)
termination_by structural xs => xs

/-- The further members of an object, up to the closing brace. -/
def renderMembers : List (List Piece × Raw) → Bytes
  | [] => [0x7D]
  | (key, x) :: ms => 0x2C :: (renderString key ++ 0x3A :: (render x ++ renderMembers ms))
termination_by structural ms => ms

end

end Raw

end HostBridge
