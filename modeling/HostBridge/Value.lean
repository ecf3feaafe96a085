import HostBridge.Json

/-!
# Message values

The values that messages carry. Integers have 64 bits and are never mixed up
with floating-point numbers. A map is given by the writes that built it, in any
order; the last write of a key counts, and two maps with the same associations
are the same to everybody who looks at them: `get?`, `==`, `canonical` and
`toJson` all see only what the writes leave behind.

Two readers turn JSON into values:

* `Value.ofRaw?` reads a spelled value directly, and `Value.read?` a text. They
  refuse integers above the 64-bit range that a value can hold.
* `Value.ofJson?` converts a JSON tree, and `Value.readTree?` a text by way of
  its tree. Such integers become floating-point numbers. A number that is
  neither would be refused, but there is none: `Value.ofJson` is the same
  conversion without a failure.

`Value.viaJson` writes a value as a JSON tree and reads it back, which turns
what is no finite number into null and changes nothing else.
-/

namespace HostBridge

/-- A value of a message. -/
inductive Value
  | null
  | bool (value : Bool)
  | int (n : Int64)
  | float (x : Binary64)
  | string (text : String)
  | list (elements : List Value)
  | map (writes : List (String × Value))
deriving Inhabited

namespace Value

/-- The value is null. -/
def isNull : Value → Bool
  | .null => true
  | _ => false

/-- The text of a string. -/
def text? : Value → Option String
  | .string text => some text
  | _ => none

/-- The value under a key of a map. -/
def get? (key : String) : Value → Option Value
  | .map writes => Entries.last? key writes
  | _ => none

mutual

/-- The same value with each key of a map written once, in key order. -/
def canonical : Value → Value
  | .list elements => .list (canonicalElements elements)
  | .map writes => .map (Entries.settle (canonicalWrites writes))
  | v => v
termination_by structural v => v

/-- The canonical forms of the elements of a list. -/
def canonicalElements : List Value → List Value
  | [] => []
  | v :: vs => canonical v :: canonicalElements vs
termination_by structural vs => vs

/-- The canonical forms of what is written into a map. -/
def canonicalWrites : List (String × Value) → List (String × Value)
  | [] => []
  | (key, v) :: ws => (key, canonical v) :: canonicalWrites ws
termination_by structural ws => ws

end

mutual

/-- Equality of values whose maps are written in the same order. -/
def agrees : Value → Value → Bool
  | .null, .null => true
  | .bool a, .bool b => a == b
  | .int m, .int n => m == n
  | .float x, .float y => x.numEq y
  | .string s, .string t => s == t
  | .list vs, .list ws => agreeElements vs ws
  | .map vs, .map ws => agreeWrites vs ws
  | _, _ => false
termination_by structural v => v

/-- Equality of two lists, element by element. -/
def agreeElements : List Value → List Value → Bool
  | [], [] => true
  | v :: vs, w :: ws => agrees v w && agreeElements vs ws
  | _, _ => false
termination_by structural vs => vs

/-- Equality of two rows of writes, write by write. -/
def agreeWrites : List (String × Value) → List (String × Value) → Bool
  | [], [] => true
  | (k, v) :: vs, (l, w) :: ws => k == l && agrees v w && agreeWrites vs ws
  | _, _ => false
termination_by structural vs => vs

end

/-- Values are equal if they hold the same; floating-point numbers compare as
    numbers. -/
instance : BEq Value := ⟨fun v w => agrees v.canonical w.canonical⟩

/-- The least integer of a value. -/
def leastInt : Int := -0x8000000000000000

/-- The greatest integer of a value. -/
def greatestInt : Int := 0x7FFFFFFFFFFFFFFF

/-- The value of an integer in range. -/
def ofInt? (n : Int) : Option Value :=
  if leastInt ≤ n ∧ n ≤ greatestInt then some (.int (Int64.ofInt n)) else none

mutual

/-- The JSON tree of a value. What is no finite number becomes null. -/
def toJson : Value → Json
  | .null => .null
  | .bool value => .bool value
  | .int n => .integer n.toInt
  | .float x => if x.isFinite then .float x else .null
  | .string text => .string text
  | .list elements => .array (elementsToJson elements)
  | .map writes => .object (Entries.settle (writesToJson writes))
termination_by structural v => v

/-- The JSON trees of the elements of a list. -/
def elementsToJson : List Value → List Json
  | [] => []
  | v :: vs => toJson v :: elementsToJson vs
termination_by structural vs => vs

/-- The JSON trees of what is written into a map. -/
def writesToJson : List (String × Value) → List (String × Json)
  | [] => []
  | (key, v) :: ws => (key, toJson v) :: writesToJson ws
termination_by structural ws => ws

end

mutual

/-- The value of a JSON tree. -/
def ofJson : Json → Value
  | .null => .null
  | .bool value => .bool value
  | .integer n => (ofInt? n).getD (.float (.ofInt n))
  | .float x => .float x
  | .string text => .string text
  | .array elements => .list (ofJsonElements elements)
  | .object members => .map (ofJsonMembers members)
termination_by structural x => x

/-- The values of the elements of an array. -/
def ofJsonElements : List Json → List Value
  | [] => []
  | x :: xs => ofJson x :: ofJsonElements xs
termination_by structural xs => xs

/-- The values of the members of an object. -/
def ofJsonMembers : List (String × Json) → List (String × Value)
  | [] => []
  | (key, x) :: ms => (key, ofJson x) :: ofJsonMembers ms
termination_by structural ms => ms

end

/-- The tree as a 64-bit integer, if it is one. -/
def asInt? : Json → Option Value
  | .integer n => ofInt? n
  | _ => none

/-- The value of a number in a tree: an integer if it has 64 bits, and else a
    floating-point number. -/
def ofNumber? (x : Json) : Option Value := (asInt? x).or (x.asFloat?.map .float)

mutual

/-- The value of a JSON tree, unless it holds a number that is neither integer
    nor floating-point number. -/
def ofJson? : Json → Option Value
  | .null => some .null
  | .bool value => some (.bool value)
  | .integer n => ofNumber? (.integer n)
  | .float x => ofNumber? (.float x)
  | .string text => some (.string text)
  | .array elements => (elementsOfJson? elements).map .list
  | .object members => (membersOfJson? members).map .map
termination_by structural x => x

/-- The values of the elements of an array, if all of them have one. -/
def elementsOfJson? : List Json → Option (List Value)
  | [] => some []
  | x :: xs => do
    let v ← ofJson? x
    let vs ← elementsOfJson? xs
    return v :: vs
termination_by structural xs => xs

/-- The values of the members of an object, if all of them have one. -/
def membersOfJson? : List (String × Json) → Option (List (String × Value))
  | [] => some []
  | (key, x) :: ms => do
    let v ← ofJson? x
    let ws ← membersOfJson? ms
    return (key, v) :: ws
termination_by structural ms => ms

end

/-- The value of a JSON tree, null if it has none. -/
def ofJsonOrNull (x : Json) : Value := (ofJson? x).getD .null

/-- The value of a number literal, unless it is an integer out of range or too
    great. -/
def ofLiteral? (l : Literal) : Option Value :=
  match Json.ofLiteral? l with
  | some (.integer n) => ofInt? n
  | some (.float x) => some (.float x)
  | _ => none

mutual

/-- The value that is spelled, with arrays and objects at most `room` deep. -/
def ofRaw? (room : Nat) : Raw → Option Value
  | .null => some .null
  | .bool value => some (.bool value)
  | .number literal => ofLiteral? literal
  | .string pieces => (Piece.text? pieces).map .string
  | .array elements =>
    match room with
    | 0 => none
    | room + 1 => (elementsOfRaw? room elements).map .list
  | .object members =>
    match room with
    | 0 => none
    | room + 1 => (membersOfRaw? room members).map fun ms => .map (Entries.settle ms)
termination_by structural x => x

/-- The values of spelled elements. -/
def elementsOfRaw? (room : Nat) : List Raw → Option (List Value)
  | [] => some []
  | x :: xs => do
    let v ← ofRaw? room x
    let vs ← elementsOfRaw? room xs
    return v :: vs
termination_by structural xs => xs

/-- The values of spelled members, in the order in which they stand. -/
def membersOfRaw? (room : Nat) : List (List Piece × Raw) → Option (List (String × Value))
  | [] => some []
  | (key, x) :: ms => do
    let key ← Piece.text? key
    let v ← ofRaw? room x
    let ws ← membersOfRaw? room ms
    return (key, v) :: ws
termination_by structural ms => ms

end

/-- The value that a text spells. -/
def read? (bytes : Bytes) : Option Value := (Raw.read? bytes).bind (ofRaw? Json.maxNesting)

/-- The value that a text spells, by way of its JSON tree. -/
def readTree? (bytes : Bytes) : Option Value := (Json.read? bytes).bind ofJson?

/-- The value as it comes out of its JSON tree. -/
def viaJson (v : Value) : Value := ofJson v.toJson

end Value

end HostBridge
