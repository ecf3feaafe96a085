import HostBridge.Typed.Reader

/-!
# Records

A record is read field by field, either from a map that holds the fields under
their names or from a list that holds them in the order of the record.

* From a map the fields are read in key order; unknown keys are passed over,
  and afterwards no required field may be missing.
* From a list the fields are read in their own order. A list may end early if
  no required field is left, and must not go on after the last field.
-/

namespace HostBridge

/-- A field of a record of type `ρ`. -/
structure Field (ρ : Type) where
  /-- The key of the field. -/
  name : String
  /-- Without the field there is no record. -/
  required : Bool
  /-- Reads the field and says how it changes the record. -/
  read : Reader (ρ → ρ)

namespace Field

variable {ρ α : Type}

/-- A field that may be missing. -/
def optional (name : String) (read : Reader α) (set : α → ρ → ρ) : Field ρ :=
  ⟨name, false, fun x => (read x).map set⟩

/-- A field that may not be missing. -/
def mandatory (name : String) (read : Reader α) (set : α → ρ → ρ) : Field ρ :=
  ⟨name, true, fun x => (read x).map set⟩

end Field

/-- A record of type `ρ`. -/
structure Record (ρ : Type) where
  /-- The name of the record. -/
  name : String
  /-- The record before any field is read. -/
  blank : ρ
  /-- The fields in their order. -/
  fields : List (Field ρ)

namespace Record

variable {ρ : Type} (r : Record ρ)

/-- Reads the members of a map one after the other into a record. -/
def readMembers (a : ρ) : List (String × Json) → Except ValueError ρ
  | [] => .ok a
  | (key, x) :: ms =>
    match r.fields.find? (·.name == key) with
    | some field => do
      let set ← field.read x
      readMembers (set a) ms
    | none => readMembers a ms

/-- The first required field that is not among the members. -/
def missing? (members : List (String × Json)) : Option String :=
  (r.fields.find? fun field =>
    field.required && !(members.any (·.1 == field.name))).map (·.name)

/-- Reads a record from the members of a map. -/
def ofMembers (members : List (String × Json)) : Except ValueError ρ := do
  let a ← r.readMembers r.blank members
  match r.missing? members with
  | some name => .error (.missingField name)
  | none => return a

/-- Reads the elements of a list one after the other into a record. `count` is
    the length of the whole list, and `index` the number of fields that are
    done. -/
def readElements (count index : Nat) (a : ρ) :
    List (Field ρ) → List Json → Except ValueError ρ
  | [], [] => .ok a
  | [], _ :: _ => .error (.tooLong count)
  | field :: fields, [] =>
    if field.required then .error (.tooShort index r.name r.fields.length)
    else readElements count (index + 1) a fields []
  | field :: fields, x :: xs => do
    let set ← field.read x
    readElements count (index + 1) (set a) fields xs

/-- Reads a record from the elements of a list. -/
def ofElements (elements : List Json) : Except ValueError ρ :=
  r.readElements elements.length 0 r.blank r.fields elements

/-- Reads a record. -/
def read : Reader ρ
  | .object members => r.ofMembers members
  | .array elements => r.ofElements elements
  | x => Reader.mismatch x (.record r.name)

end Record

end HostBridge
