import HostBridge.Typed.Choice

/-!
# Sounds and haptic feedback

What an application may ask the device to play or to be felt.
-/

namespace HostBridge

/-- A sound of the platform. -/
inductive Sound
  | click
  | alert
  /-- A sound that is not known here. -/
  | unknown
deriving DecidableEq

namespace Sound

/-- The names of the sounds. -/
def choice : Choice Sound where
  type := "SoundType"
  named := [("SystemSoundType.click", .click), ("SystemSoundType.alert", .alert)]
  unnamed := "Unknown"

/-- The sound with this name. -/
def ofName (name : String) : Sound := (choice.named.lookup name).getD .unknown

/-- Reads a sound. Every string names one. -/
def read : Reader Sound := fun x => (Reader.string x).map ofName

end Sound

/-- A kind of haptic feedback. -/
inductive Haptic
  /-- What is meant if no kind is named. -/
  | standard
  | lightImpact
  | mediumImpact
  | heavyImpact
  | selectionClick
deriving DecidableEq

namespace Haptic

/-- The names of the kinds. -/
def choice : Choice Haptic where
  type := "HapticFeedbackType"
  named :=
    [("HapticFeedbackType.lightImpact", .lightImpact),
     ("HapticFeedbackType.mediumImpact", .mediumImpact),
     ("HapticFeedbackType.heavyImpact", .heavyImpact),
     ("HapticFeedbackType.selectionClick", .selectionClick)]
  unnamed := "Standard"

end Haptic

/-- The haptic feedback of the platform. -/
inductive HapticConstant
  | longPress
  | virtualKey
  | keyboardTap
  | clockTick
  | contextClick
deriving DecidableEq

namespace HapticConstant

/-- The number by which the platform knows a feedback. -/
def code : HapticConstant → Nat
  | .longPress => 0
  | .virtualKey => 1
  | .keyboardTap => 3
  | .clockTick => 4
  | .contextClick => 6

end HapticConstant

end HostBridge
