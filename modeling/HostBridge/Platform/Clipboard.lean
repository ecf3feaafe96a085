import HostBridge.Typed.Choice
import HostBridge.Typed.Record

/-!
# The clipboard

A clip has a label, the types of its content and a list of items. Types are
matched with wildcards: `Mime.matchesType` splits both at the first slash and
compares the parts, where a star matches everything and the case of ASCII
letters does not count.
-/

namespace HostBridge

namespace Mime

/-- The parts before and after the first slash. -/
def split? : List Char → Option (List Char × List Char)
  | [] => none
  | c :: rest =>
    if c = '/' then some ([], rest)
    else (split? rest).map fun (first, second) => (c :: first, second)

/-- Two parts match. -/
def matchesPart (a b : List Char) : Bool :=
  a == ['*'] || b == ['*'] || a.map Char.toLower == b.map Char.toLower

/-- Two types match. A text without a slash is no type. -/
def matchesType (a b : String) : Bool :=
  match split? a.toList, split? b.toList with
  | some (a₁, a₂), some (b₁, b₂) => matchesPart a₁ b₁ && matchesPart a₂ b₂
  | _, _ => false

/-- Plain text. -/
def plainText : String := "text/plain"

/-- Text of any kind. -/
def anyText : String := "text/*"

end Mime

/-- An item of a clip. -/
inductive ClipItem
  | text (text : String)
  /-- Content that is found under an address, and the text that stands for it. -/
  | uri (uri text : String)
  | other
deriving DecidableEq

/-- The content of the clipboard. -/
structure Clip where
  label : String
  /-- The types of the content. -/
  types : List String
  items : List ClipItem
deriving DecidableEq

namespace Clip

/-- A clip of plain text. -/
def plain (label text : String) : Clip := ⟨label, [Mime.plainText], [.text text]⟩

/-- One of the types matches `query`. -/
def hasType (types : List String) (query : String) : Bool :=
  types.any (Mime.matchesType · query)

end Clip

/-- Why the clipboard cannot be read. -/
inductive ClipError
  | permissionDenied (reason : String)
  | notFound (reason : String)
deriving DecidableEq

namespace ClipError

/-- The wording of an error. -/
def message : ClipError → String
  | .permissionDenied reason => "permission denied: " ++ reason
  | .notFound reason => "not found: " ++ reason

/-- The warning that an error is worth: only that a permission is missing. -/
def warning? : ClipError → Option String
  | .permissionDenied reason =>
    some ("Attempted to get clipboard data that requires additional permission(s): " ++
      (ClipError.permissionDenied reason).message)
  | .notFound _ => none

end ClipError

/-- A form in which an application asks for the clipboard. -/
inductive ClipFormat
  | plainText
deriving DecidableEq

namespace ClipFormat

/-- The names of the forms. -/
def choice : Choice ClipFormat where
  type := "ClipboardContentFormat"
  named := [(Mime.plainText, .plainText)]

end ClipFormat

/-- A text for the clipboard or from it. -/
structure ClipText where
  text : String := ""
deriving DecidableEq

namespace ClipText

/-- How a text is read. -/
def record : Record ClipText where
  name := "ClipboardText"
  blank := {}
  fields := [.mandatory "text" .string fun v s => { s with text := v }]

/-- A text as a value. -/
def write (t : ClipText) : Value := .map [("text", .string t.text)]

end ClipText

/-- Whether the clipboard holds text. -/
structure ClipPresence where
  value : Bool := false
deriving DecidableEq

namespace ClipPresence

/-- How the answer is read. -/
def record : Record ClipPresence where
  name := "ClipboardHasStrings"
  blank := {}
  fields := [.mandatory "value" .bool fun v s => { s with value := v }]

/-- The answer as a value. -/
def write (p : ClipPresence) : Value := .map [("value", .bool p.value)]

end ClipPresence

end HostBridge
