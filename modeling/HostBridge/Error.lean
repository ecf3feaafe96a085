import HostBridge.Codec
import HostBridge.Text.Quoted

/-!
# Why a call fails

`ValueError` lists the causes for which a value does not become what is asked
of it, `CallError` those for which a method call is not answered with a value.
Each cause has one wording, `ValueError.message` and `CallError.message`, and
`CallResult.ofOutcome` says how the caller is told.
-/

namespace HostBridge

/-- What was found in place of something else. -/
inductive Found
  | null
  | bool (value : Bool)
  | integer (n : Int)
  /-- An integer offered with 128 bits. -/
  | wideInteger (n : Int)
  | float (x : Binary64)
  | string (text : String)
  | sequence
  | map
  | bytes
  /-- A value wrapped into a type of its own. -/
  | wrapped

/-- What was asked for. -/
inductive Expected
  | string
  | bool
  | int
  | sequence
  /-- One of several names. -/
  | choice
  /-- Nothing besides the name. -/
  | unit
  /-- A record of this name. -/
  | record (name : String)
  /-- Any value at all. -/
  | value

/-- Why a value does not become what is asked of it. -/
inductive ValueError
  /-- The value is of the wrong type. -/
  | wrongType
  /-- A reason in words. -/
  | custom (text : String)
  /-- Something else was expected. -/
  | invalidType (found : Found) (expected : Expected)
  /-- A map stands for a choice but does not have exactly one key. -/
  | notSingleKey
  /-- The name is not one of the choices. -/
  | unknownVariant (name : String) (choices : List String)
  /-- A record lacks a field. -/
  | missingField (name : String)
  /-- A list ends after `count` elements, before a field that is required. -/
  | tooShort (count : Nat) (record : String) (fields : Nat)
  /-- A list has `count` elements, more than there are fields. -/
  | tooLong (count : Nat)
  /-- A variant has no name to be written with. -/
  | unnamedVariant (type variant : String)
  /-- An integer is out of every range. -/
  | outOfRange
  /-- An integer is above the range of a value. -/
  | tooLarge

namespace Literal

/-- A number literal as text. -/
def text (l : Literal) : String := String.ofList (l.render.map fun byte => Char.ofNat byte.toNat)

end Literal

namespace Found

/-- The words for what was found. -/
def text : Found → String
  | .null => "null"
  | .bool value => "boolean `" ++ (if value then "true" else "false") ++ "`"
  | .integer n => "integer `" ++ (Json.integerLiteral n).text ++ "`"
  | .wideInteger n => "integer `" ++ (Json.integerLiteral n).text ++ "` as i128"
  | .float x => "floating point `" ++ x.literal.text ++ "`"
  | .string text => "string " ++ Quoted.text text
  | .sequence => "sequence"
  | .map => "map"
  | .bytes => "byte array"
  | .wrapped => "newtype struct"

end Found

namespace Expected

/-- The words for what was expected. -/
def text : Expected → String
  | .string => "a string"
  | .bool => "a boolean"
  | .int => "i64"
  | .sequence => "a sequence"
  | .choice => "string or map"
  | .unit => "unit"
  | .record name => "struct " ++ name
  | .value => "any valid JSON value"

end Expected

namespace ValueError

/-- A name in backquotes. -/
def backquoted (name : String) : String := "`" ++ name ++ "`"

/-- The words for a list of choices. -/
def choicesText : List String → String
  | [name] => backquoted name
  | [first, second] => backquoted first ++ " or " ++ backquoted second
  | names => "one of " ++ String.intercalate ", " (names.map backquoted)

/-- A number of fields in words. -/
def elementsText (count : Nat) : String :=
  Nat.repr count ++ (if count = 1 then " element" else " elements")

/-- The wording of an error. -/
def message : ValueError → String
  | .wrongType => "wrong type"
  | .custom text => text
  | .invalidType found expected =>
    "invalid type: " ++ found.text ++ ", expected " ++ expected.text
  | .notSingleKey => "invalid value: map, expected map with a single key"
  | .unknownVariant name choices =>
    "unknown variant " ++ backquoted name ++ ", expected " ++ choicesText choices
  | .missingField name => "missing field " ++ backquoted name
  | .tooShort count record fields =>
    "invalid length " ++ Nat.repr count ++ ", expected " ++ (Expected.record record).text ++
      " with " ++ elementsText fields
  | .tooLong count =>
    "invalid length " ++ Nat.repr count ++ ", expected fewer elements in array"
  | .unnamedVariant type variant =>
    "the enum variant " ++ type ++ "::" ++ variant ++ " cannot be serialized"
  | .outOfRange => "number out of range"
  | .tooLarge => "number too large for i64"

end ValueError

/-- Why a method call is not answered with a value. -/
inductive CallError
  /-- Nobody implements the method. -/
  | notImplemented
  /-- The argument, or the answer, is not what it should be. -/
  | value (cause : ValueError)
  /-- Something went wrong. -/
  | unspecified

namespace CallError

/-- The wording of an error. -/
def message : CallError → String
  | .notImplemented => "method not implemented"
  | .value cause => "failed to deserialize value: " ++ cause.message
  | .unspecified => "unspecified error"

/-- The error behind an error. -/
def cause? : CallError → Option ValueError
  | .value cause => some cause
  | _ => none

/-- The result by which the caller learns of an error. -/
def toResult : CallError → CallResult
  | .notImplemented => .notImplemented
  | e => .err "" e.message .null

end CallError

namespace CallResult

/-- The result by which the caller learns how a call ended. -/
def ofOutcome : Except CallError Value → CallResult
  | .ok value => .ok value
  | .error e => e.toResult

end CallResult

end HostBridge
