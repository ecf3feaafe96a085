import HostBridge.Error

/-!
# Offering data to a value

A value can be made from data of other formats than JSON. What such a format
has at hand is an `Offer`; `Value.accept` takes it or says why not.

A JSON tree can be offered as well, piece by piece: `Value.visit` makes a value
of what it holds. Unlike `Value.ofJson?`, which converts the tree as a whole, it
refuses an integer that is too great for a value.
-/

namespace HostBridge

/-- A piece of data at hand. -/
inductive Offer
  /-- Nothing, where something is optional. -/
  | absent
  /-- The empty datum. -/
  | unit
  | bool (value : Bool)
  /-- An integer of at most 64 bits with a sign. -/
  | signed (n : Int64)
  /-- An integer of at most 64 bits without a sign. -/
  | unsigned (n : UInt64)
  /-- An integer of 128 bits. -/
  | wide (n : Int)
  /-- A floating-point number of 64 bits. -/
  | double (x : Binary64)
  /-- A floating-point number of 32 bits: the one nearest to `x`. -/
  | single (x : Binary64)
  | char (c : Char)
  | string (text : String)
  | bytes
  /-- Something, where something is optional. -/
  | present (inner : Offer)
  /-- Something in a wrapping of its own. -/
  | wrapped (inner : Offer)

/-- How a tree offers an integer: with a sign only if it is below zero. -/
def Offer.ofInteger (n : Int) : Offer :=
  if n < 0 then .signed (Int64.ofInt n) else .unsigned (UInt64.ofNat n.toNat)

namespace Value

/-- The value that is made of an offer. -/
def accept : Offer → Except ValueError Value
  | .absent => .ok .null
  | .unit => .ok .null
  | .bool value => .ok (.bool value)
  | .signed n => .ok (.int n)
  | .unsigned n =>
    match ofInt? n.toNat with
    | some v => .ok v
    | none => .error .tooLarge
  | .wide n => .error (.invalidType (.wideInteger n) .value)
  | .double x => .ok (.float x)
  | .single x => .ok (.float x.toSingle)
  | .char c => .ok (.string c.toString)
  | .string text => .ok (.string text)
  | .bytes => .error (.invalidType .bytes .value)
  | .present inner => accept inner
  | .wrapped _ => .error (.invalidType .wrapped .value)

mutual

/-- The value that is made of what a tree offers. -/
def visit : Json → Except ValueError Value
  | .null => accept .unit
  | .bool value => accept (.bool value)
  | .integer n => accept (.ofInteger n)
  | .float x => accept (.double x)
  | .string text => accept (.string text)
  | .array elements => (visitElements elements).map .list
  | .object members => (visitMembers members).map .map
termination_by structural x => x

/-- The values of the elements of an array, one after the other. -/
def visitElements : List Json → Except ValueError (List Value)
  | [] => .ok []
  | x :: xs => do
    let v ← visit x
    let vs ← visitElements xs
    return v :: vs
termination_by structural xs => xs

/-- The values of the members of an object, one after the other. -/
def visitMembers : List (String × Json) → Except ValueError (List (String × Value))
  | [] => .ok []
  | (key, x) :: ms => do
    let v ← visit x
    let ws ← visitMembers ms
    return (key, v) :: ws
termination_by structural ms => ms

end

/-- The value of an integer without a range of its own. What a JSON tree keeps
    as an integer and a value cannot hold becomes a floating-point number. -/
def ofInteger (n : Int) : Except ValueError Value :=
  if Json.leastInteger ≤ n ∧ n ≤ Json.greatestInteger then .ok (ofJson (.integer n))
  else .error .outOfRange

/-- The value of a number rounded to 32 bits, null if that is no finite
    number. -/
def ofSingle (x : Binary64) : Value := viaJson (.float x.toSingle)

end Value

end HostBridge
