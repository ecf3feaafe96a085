import HostBridge.Json.Raw
import HostBridge.Json.Reader
import HostBridge.Number.Shortest
import HostBridge.Table

/-!
# JSON values

A JSON value as a tree: numbers are integers or floating-point numbers, and the
members of an object stand in the order of their keys, each key once.

* `Json.ofRaw?` gives a spelled value its meaning. It refuses numbers that are
  too great, strings that are no text, and arrays and objects nested deeper
  than the given `room`. Of repeated members the last one counts.
* `Json.spell` is the one spelling in which values are written.
* `Json.read?` and `Json.write` put the two together with the reading and
  writing of bytes.
-/

namespace HostBridge

/-- A JSON value. -/
inductive Json
  | null
  | bool (value : Bool)
  | integer (n : Int)
  | float (x : Binary64)
  | string (text : String)
  | array (elements : List Json)
  | object (members : List (String × Json))
deriving Inhabited

namespace Json

/-- The deepest nesting of arrays and objects that a message may have. -/
def maxNesting : Nat := 127

/-- The least integer that stays an integer. -/
def leastInteger : Int := -0x8000000000000000

/-- The greatest integer that stays an integer. -/
def greatestInteger : Int := 0xFFFFFFFFFFFFFFFF

/-- The tree as a floating-point number, if it is a number. -/
def asFloat? : Json → Option Binary64
  | .integer n => some (.ofInt n)
  | .float x => some x
  | _ => none

/-- The number of a literal. A literal without point and exponent is an
    integer, unless it is out of range or a negative zero. -/
def ofLiteral? (l : Literal) : Option Json :=
  match l.integer? with
  | some n =>
    if leastInteger ≤ n ∧ n ≤ greatestInteger ∧ ¬(n = 0 ∧ l.negative) then some (.integer n)
    else l.toFloat?.map .float
  | none => l.toFloat?.map .float

mutual

/-- The meaning of a spelled value, whose arrays and objects may be nested
    `room` deep. -/
def ofRaw? (room : Nat) : Raw → Option Json
  | .null => some .null
  | .bool value => some (.bool value)
  | .number literal => ofLiteral? literal
  | .string pieces => (Piece.text? pieces).map .string
  | .array elements =>
    match room with
    | 0 => none
    | room + 1 => (elementsOfRaw? room elements).map .array
  | .object members =>
    match room with
    | 0 => none
    | room + 1 => (membersOfRaw? room members).map fun ms => .object (Entries.settle ms)
termination_by structural x => x

/-- The meaning of the elements of an array. -/
def elementsOfRaw? (room : Nat) : List Raw → Option (List Json)
  | [] => some []
  | x :: xs => do
    let x ← ofRaw? room x
    let xs ← elementsOfRaw? room xs
    return x :: xs
termination_by structural xs => xs

/-- The meaning of the members of an object, in the order in which they
    stand. -/
def membersOfRaw? (room : Nat) : List (List Piece × Raw) → Option (List (String × Json))
  | [] => some []
  | (key, x) :: ms => do
    let key ← Piece.text? key
    let x ← ofRaw? room x
    let ms ← membersOfRaw? room ms
    return (key, x) :: ms
termination_by structural ms => ms

end

/-- The literal of an integer. -/
def integerLiteral (n : Int) : Literal := ⟨n < 0, Digit.ofNat n.natAbs, none, none⟩

mutual

/-- The spelling of a value. What is no finite number is spelled as null. -/
def spell : Json → Raw
  | .null => .null
  | .bool value => .bool value
  | .integer n => .number (integerLiteral n)
  | .float x => if x.isFinite then .number x.literal else .null
  | .string text => .string (Piece.spell text)
  | .array elements => .array (spellElements elements)
  | .object members => .object (spellMembers members)
termination_by structural x => x

/-- The spelling of the elements of an array. -/
def spellElements : List Json → List Raw
  | [] => []
  | x :: xs => spell x :: spellElements xs
termination_by structural xs => xs

/-- The spelling of the members of an object. -/
def spellMembers : List (String × Json) → List (List Piece × Raw)
  | [] => []
  | (key, x) :: ms => (Piece.spell key, spell x) :: spellMembers ms
termination_by structural ms => ms

end

/-- The value that a text spells. -/
def read? (bytes : Bytes) : Option Json := (Raw.read? bytes).bind (ofRaw? maxNesting)

/-- The text of a value. -/
def write (x : Json) : Bytes := x.spell.render

end Json

end HostBridge
