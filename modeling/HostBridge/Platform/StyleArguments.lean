import HostBridge.Platform.Wishes

/-!
# What the arguments of a style say

A style gives seven settings of three kinds: brightnesses of icons, colors and flags. An
argument for a setting may be null, and then leaves it open; it may say what the setting
is to be; or something is wrong with it.

* `SettingKind.Says`: what a value says for a setting of a kind. A color is given by an
  integer, of which only the low 32 bits count, and a brightness by its name, alone or as
  the only key of a map whose value is null.
* `SettingKind.Gives`: what a setting is, given its argument or none.
* `SettingKind.Faults`: what is wrong with a value that is not null and says nothing.

Null is also what is no finite number.
-/

namespace HostBridge

namespace Value

/-- What a value is found to be. -/
def found : Value → Found
  | .null => .null
  | .bool value => .bool value
  | .int n => .integer n.toInt
  | .float x => .float x
  | .string text => .string text
  | .list _ => .sequence
  | .map _ => .map

/-- The value is a map, with one key and `payload` under it. -/
def HoldsOnly (v : Value) (name : String) (payload : Value) : Prop :=
  ∃ writes, v = .map writes ∧
    ∀ key, Entries.last? key writes = if key = name then some payload else none

/-- The value is a name: a string, or a map that has only the name for a key, and null
    under it. -/
inductive Names : Value → String → Prop
  | string (name : String) : Names (.string name) name
  | key {v : Value} {name : String} {payload : Value} (h : v.HoldsOnly name payload)
      (null : payload.finite = .null) : Names v name

end Value

namespace Brightness

/-- The name of a brightness. -/
def word : Brightness → String
  | .dark => "Brightness.dark"
  | .light => "Brightness.light"

end Brightness

/-- The kinds of settings. -/
inductive SettingKind
  /-- The brightness of icons. -/
  | icons
  | color
  | flag

namespace SettingKind

/-- What a setting of a kind is. -/
def Content : SettingKind → Type
  | .icons => Brightness
  | .color => Color
  | .flag => Bool

/-- The value says what a setting is to be. -/
def Says : (k : SettingKind) → Value → k.Content → Prop
  | .icons, v, b => v.Names (Brightness.word b)
  | .color, v, c => ∃ n : Int64, v = .int n ∧ (UInt32.toNat c : Int) = n.toInt % 0x100000000
  | .flag, v, b => v = .bool b

/-- What a setting is, given its argument or none. -/
inductive Gives (k : SettingKind) : Option Value → Option k.Content → Prop
  | absent : Gives k none none
  | null {v : Value} (h : v.finite = .null) : Gives k (some v) none
  | said {v : Value} {c : k.Content} (h : k.Says v c) : Gives k (some v) (some c)

/-- What is wrong with a value for a setting. -/
inductive Faults : SettingKind → Value → ValueError → Prop
  | color {v : Value} (null : v.finite ≠ .null) (other : ∀ n, v ≠ .int n) :
      Faults .color v (.invalidType v.found .int)
  | flag {v : Value} (null : v.finite ≠ .null) (other : ∀ b, v ≠ .bool b) :
      Faults .flag v (.invalidType v.found .bool)
  /-- The value is neither a string nor a map. -/
  | noChoice {v : Value} (null : v.finite ≠ .null) (string : ∀ text, v ≠ .string text)
      (map : ∀ writes, v ≠ .map writes) : Faults .icons v (.invalidType v.found .choice)
  | word {text : String} (other : ∀ b : Brightness, text ≠ b.word) :
      Faults .icons (.string text) (.unknownVariant text ["Brightness.dark", "Brightness.light"])
  | key {v payload : Value} {name : String} (only : v.HoldsOnly name payload)
      (other : ∀ b : Brightness, name ≠ b.word) :
      Faults .icons v (.unknownVariant name ["Brightness.dark", "Brightness.light"])
  /-- Something comes with the name. -/
  | payload {v payload : Value} {b : Brightness} (only : v.HoldsOnly b.word payload)
      (null : payload.finite ≠ .null) : Faults .icons v (.invalidType payload.found .unit)
  /-- The map has no key, or more than one. -/
  | keys {writes : List (String × Value)}
      (h : ∀ name payload, ¬(Value.map writes).HoldsOnly name payload) :
      Faults .icons (.map writes) .notSingleKey

end SettingKind

namespace BarSetting

/-- The kind of a setting. -/
def kind : BarSetting → SettingKind
  | .statusIcons => .icons
  | .statusColor => .color
  | .statusContrast => .flag
  | .navigationIcons => .icons
  | .navigationColor => .color
  | .dividerColor => .color
  | .navigationContrast => .flag

/-- A setting of a style. -/
def ofStyle : (s : BarSetting) → BarsStyle → Option s.kind.Content
  | .statusIcons, style => style.statusIcons
  | .statusColor, style => style.statusColor
  | .statusContrast, style => style.statusContrast
  | .navigationIcons, style => style.navigationIcons
  | .navigationColor, style => style.navigationColor
  | .dividerColor, style => style.dividerColor
  | .navigationContrast, style => style.navigationContrast

end BarSetting

end HostBridge
