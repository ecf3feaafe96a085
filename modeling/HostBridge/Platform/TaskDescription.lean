import HostBridge.Platform.BarsStyle
import HostBridge.Platform.Capabilities

/-!
# The entry in the list of recent applications

An application may name itself and choose a color. A color other than zero is
made opaque.
-/

namespace HostBridge

/-- The arguments of a description, as they are given. -/
structure SwitcherArgs where
  /-- The name of the application. -/
  label : String := ""
  /-- The color as an integer. -/
  color : Option Int64 := none

namespace SwitcherArgs

/-- How the arguments are read. -/
def record : Record SwitcherArgs where
  name := "AppSwitcherDescriptionArgs"
  blank := {}
  fields :=
    [.optional "label" .string fun v s => { s with label := v },
     .optional "primaryColor" (.optional .int) fun v s => { s with color := v }]

end SwitcherArgs

/-- What an application is called and how it is colored. -/
structure Switcher where
  label : String
  color : Color
deriving DecidableEq

namespace Switcher

/-- The opaque color of an integer, of which only the low 32 bits count. -/
def opaqueColor (n : Int64) : Color :=
  let color := UInt32.ofInt n.toInt
  if color = 0 then 0 else color ||| 0xFF000000

/-- Reads a description. -/
def read : Reader Switcher := fun x =>
  (SwitcherArgs.record.read x).map fun args => ⟨args.label, opaqueColor (args.color.getD 0)⟩

end Switcher

/-- A description as it is given to the platform. -/
inductive TaskDescription
  | legacy (label : String) (color : Color)
  | current (label : String) (icon : Nat) (color : Color)
deriving DecidableEq

namespace TaskDescription

/-- The description in the form that the platform supports, if it supports
    one. No icon is ever given. -/
def ofSwitcher? (api : TaskDescriptionApi) (s : Switcher) : Option TaskDescription :=
  match api with
  | .unsupported => none
  | .legacy => some (.legacy s.label s.color)
  | .current => some (.current s.label 0 s.color)

end TaskDescription

end HostBridge
