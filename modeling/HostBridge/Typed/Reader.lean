import HostBridge.Value.Offer

/-!
# Reading typed arguments

A `Reader` makes something of a JSON tree or says why it cannot. The readers
here are those of the simple types; `Typed.Choice` reads one of several names
and `Typed.Record` a record of fields.

`Value.as` reads a value by way of its JSON tree, so that a reader meets null
in place of what is no finite number, and the members of a map in key order.
`Value.convert` goes the other way, from the tree of something typed to a value.
-/

namespace HostBridge

/-- What is made of a JSON tree. -/
abbrev Reader (α : Type) := Json → Except ValueError α

namespace Reader

variable {α : Type}

/-- What a JSON tree is found to be. -/
def found : Json → Found
  | .null => .null
  | .bool value => .bool value
  | .integer n => .integer n
  | .float x => .float x
  | .string text => .string text
  | .array _ => .sequence
  | .object _ => .map

/-- Something else was expected than `x`. -/
def mismatch (x : Json) (expected : Expected) : Except ValueError α :=
  .error (.invalidType (found x) expected)

/-- Reads a string. -/
def string : Reader String
  | .string text => .ok text
  | x => mismatch x .string

/-- Reads a truth value. -/
def bool : Reader Bool
  | .bool value => .ok value
  | x => mismatch x .bool

/-- Reads an integer of 64 bits. -/
def int : Reader Int64
  | .integer n =>
    if Value.leastInt ≤ n ∧ n ≤ Value.greatestInt then .ok (Int64.ofInt n) else .error .tooLarge
  | x => mismatch x .int

/-- Reads null. -/
def unit : Reader Unit
  | .null => .ok ()
  | x => mismatch x .unit

/-- Reads any value. -/
def value : Reader Value := Value.visit

/-- Reads null as nothing, and everything else by `read`. -/
def optional (read : Reader α) : Reader (Option α)
  | .null => .ok none
  | x => (read x).map some

/-- Reads the elements of a list in their order, up to the first that `read`
    refuses. -/
def elements (read : Reader α) : List Json → Except ValueError (List α)
  | [] => .ok []
  | x :: xs => do
    let a ← read x
    let as ← elements read xs
    return a :: as

/-- Reads a list. -/
def list (read : Reader α) : Reader (List α)
  | .array xs => elements read xs
  | x => mismatch x .sequence

end Reader

namespace Value

/-- What `read` makes of a value. -/
def as {α : Type} (read : Reader α) (v : Value) : Except ValueError α := read v.toJson

/-- The value of the tree of whatever becomes a value. -/
def convert (x : Json) : Except ValueError Value :=
  match ofJson? x with
  | some v => .ok v
  | none => .error .wrongType

end Value

end HostBridge
