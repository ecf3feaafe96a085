import HostBridge.Typed.Reader

/-!
# Choices

A choice is one of several variants, each with a name by which it is read and
written. A variant may go without a name: then it is neither read nor written.

A name stands alone as a string, or as the only key of a map whose value is
null. Variants in a row are written as a list of their names.
-/

namespace HostBridge

/-- The names of the variants of a type. -/
structure Choice (α : Type) where
  /-- The type. -/
  type : String
  /-- The variants with a name, in the order in which messages list them. -/
  named : List (String × α)
  /-- What the variant without a name is called, if there is one. -/
  unnamed : String := ""

namespace Choice

variable {α : Type} (c : Choice α)

/-- The variant with this name. -/
def find (name : String) : Except ValueError α :=
  match c.named.lookup name with
  | some a => .ok a
  | none => .error (.unknownVariant name (c.named.map (·.1)))

/-- Reads a variant. -/
def read : Reader α
  | .string name => c.find name
  | .object [(name, payload)] => do
    -- an unknown name is reported before what comes with it
    let a ← c.find name
    Reader.unit payload
    return a
  | .object _ => .error .notSingleKey
  | x => Reader.mismatch x .choice

variable [DecidableEq α]

/-- The name of a variant, if it has one. -/
def name? (a : α) : Option String := (c.named.find? (·.2 == a)).map (·.1)

/-- The name of a variant as a value. -/
def write (a : α) : Except ValueError Value :=
  match c.name? a with
  | some name => .ok (.string name)
  | none => .error (.unnamedVariant c.type c.unnamed)

/-- The names of variants as values, up to the first that has none. -/
def writeElements : List α → Except ValueError (List Value)
  | [] => .ok []
  | a :: as => do
    let v ← c.write a
    let vs ← writeElements as
    return v :: vs

/-- The names of variants as a list. -/
def writeList (as : List α) : Except ValueError Value := (c.writeElements as).map .list

end Choice

end HostBridge
