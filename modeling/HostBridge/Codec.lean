import HostBridge.Value

/-!
# Method calls and their results on the wire

A method call is a method name with one argument value. It is written as an
object with the members `args` and `method`. Read are objects with these
members in any order, where `args` may be missing, and arrays of the method and
optionally the argument; members with other names are passed over whatever they
spell.

The result of a call is written as a list: of one value if the call succeeded,
of a code, a message and a value if it failed. That the method is not
implemented is said by an empty message.

* `MethodCall.decode?` and `MethodCall.encode`.
* `CallResult.decode?` and `CallResult.encode`.
-/

namespace HostBridge

/-- A call of a method. -/
structure MethodCall where
  /-- The name of the method. -/
  method : String
  /-- The argument. -/
  args : Value
deriving Inhabited

namespace MethodCall

/-- The member that holds the name of the method. -/
def methodKey : String := "method"

/-- The member that holds the argument. -/
def argsKey : String := "args"

/-- The deepest nesting of arrays and objects in an argument: the call itself
    takes one level. -/
def maxNesting : Nat := Json.maxNesting - 1

/-- The name of a method, which must be spelled as a string. -/
def methodOfRaw? : Raw → Option String
  | .string pieces => Piece.text? pieces
  | _ => none

/-- Reads the names of all members and leaves their values spelled. -/
def named? : List (List Piece × Raw) → Option (List (String × Raw))
  | [] => some []
  | (key, x) :: ms => do
    let key ← Piece.text? key
    let ms ← named? ms
    return (key, x) :: ms

/-- The values of all members with this name. -/
def valuesOf (key : String) (members : List (String × Raw)) : List Raw :=
  (members.filter (·.1 == key)).map (·.2)

/-- The call given by an object: one method, and at most one argument. -/
def ofMembers? (members : List (List Piece × Raw)) : Option MethodCall := do
  -- every name has to be text, also one that is passed over
  let members ← named? members
  let method ←
    match valuesOf methodKey members with
    | [x] => methodOfRaw? x
    | _ => none
  let args ←
    match valuesOf argsKey members with
    | [] => some .null
    | [x] => Value.ofRaw? maxNesting x
    | _ => none
  return ⟨method, args⟩

/-- The call that is spelled. -/
def ofRaw? : Raw → Option MethodCall
  | .object members => ofMembers? members
  | .array [method] => do
    let method ← methodOfRaw? method
    return ⟨method, .null⟩
  | .array [method, args] => do
    let method ← methodOfRaw? method
    let args ← Value.ofRaw? maxNesting args
    return ⟨method, args⟩
  | _ => none

/-- The call that a message holds. -/
def decode? (message : Bytes) : Option MethodCall := (Raw.read? message).bind ofRaw?

/-- The JSON tree of a call. -/
def toJson (call : MethodCall) : Json :=
  .object [(argsKey, call.args.toJson), (methodKey, .string call.method)]

/-- The message of a call. -/
def encode (call : MethodCall) : Bytes := call.toJson.write

end MethodCall

/-- What comes of a method call. -/
inductive CallResult
  /-- The call succeeded. -/
  | ok (value : Value)
  /-- The call failed. -/
  | err (code message : String) (details : Value)
  /-- Nobody implements the method. -/
  | notImplemented
deriving Inhabited

namespace CallResult

/-- The text of a string, and no text of everything else. -/
def textOf (v : Value) : String := v.text?.getD ""

/-- The result that a reply holds. -/
def decode? (reply : Bytes) : Option CallResult :=
  if reply = [] then some .notImplemented
  else
    match Value.readTree? reply with
    | some (.list [value]) => some (.ok value)
    | some (.list [code, message, details]) => some (.err (textOf code) (textOf message) details)
    | _ => none

/-- The reply with a result. -/
def encode : CallResult → Bytes
  | .ok value => (Json.array [value.toJson]).write
  | .err code message details =>
    (Json.array [.string code, .string message, details.toJson]).write
  | .notImplemented => []

end CallResult

end HostBridge
