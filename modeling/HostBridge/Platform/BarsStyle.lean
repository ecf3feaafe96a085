import HostBridge.Typed.Choice
import HostBridge.Typed.Record

/-!
# The style of the system bars

Seven settings, each of which may be left open. A setting that is left open
leaves the bars as they are.
-/

namespace HostBridge

/-- The brightness of icons. -/
inductive Brightness
  | dark
  | light
deriving DecidableEq

namespace Brightness

/-- The names of the two. -/
def choice : Choice Brightness where
  type := "Brightness"
  named := [("Brightness.dark", .dark), ("Brightness.light", .light)]

end Brightness

/-- A color of 32 bits: opacity, red, green, blue. -/
abbrev Color := UInt32

namespace Reader

/-- Reads a color from an integer, of which only the low 32 bits count. -/
def color : Reader Color := fun x => (int x).map fun n => UInt32.ofInt n.toInt

end Reader

/-- The style of the bars. -/
structure BarsStyle where
  statusIcons : Option Brightness := none
  statusColor : Option Color := none
  statusContrast : Option Bool := none
  navigationIcons : Option Brightness := none
  navigationColor : Option Color := none
  dividerColor : Option Color := none
  navigationContrast : Option Bool := none
deriving DecidableEq

namespace BarsStyle

/-- How a style is read. -/
def record : Record BarsStyle where
  name := "SystemChromeStyle"
  blank := {}
  fields :=
    [.optional "statusBarIconBrightness" (.optional Brightness.choice.read)
      fun v s => { s with statusIcons := v },
     .optional "statusBarColor" (.optional .color)
      fun v s => { s with statusColor := v },
     .optional "systemStatusBarContrastEnforced" (.optional .bool)
      fun v s => { s with statusContrast := v },
     .optional "systemNavigationBarIconBrightness" (.optional Brightness.choice.read)
      fun v s => { s with navigationIcons := v },
     .optional "systemNavigationBarColor" (.optional .color)
      fun v s => { s with navigationColor := v },
     .optional "systemNavigationBarDividerColor" (.optional .color)
      fun v s => { s with dividerColor := v },
     .optional "systemNavigationBarContrastEnforced" (.optional .bool)
      fun v s => { s with navigationContrast := v }]

/-- The name of a brightness as a value, null if there is none. -/
def iconsValue : Option Brightness → Except ValueError Value
  | some b => Brightness.choice.write b
  | none => .ok .null

/-- A color as a value, null if there is none. -/
def colorValue (color : Option Color) : Value :=
  (color.map fun c => Value.int (Int64.ofNat c.toNat)).getD .null

/-- A truth value as a value, null if there is none. -/
def flagValue (flag : Option Bool) : Value := (flag.map Value.bool).getD .null

/-- A style as a value: all seven settings. -/
def write (s : BarsStyle) : Except ValueError Value := do
  let statusIcons ← iconsValue s.statusIcons
  let navigationIcons ← iconsValue s.navigationIcons
  return .map
    [("statusBarIconBrightness", statusIcons),
     ("statusBarColor", colorValue s.statusColor),
     ("systemStatusBarContrastEnforced", flagValue s.statusContrast),
     ("systemNavigationBarIconBrightness", navigationIcons),
     ("systemNavigationBarColor", colorValue s.navigationColor),
     ("systemNavigationBarDividerColor", colorValue s.dividerColor),
     ("systemNavigationBarContrastEnforced", flagValue s.navigationContrast)]

end BarsStyle

end HostBridge
