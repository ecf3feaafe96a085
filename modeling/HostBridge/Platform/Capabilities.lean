/-!
# Capabilities of the platform

What a version of the platform allows, found once from its level, so that the
rest asks for a capability and never compares versions.
-/

namespace HostBridge

/-- How the entry of the application in the list of recent ones is described. -/
inductive TaskDescriptionApi
  | unsupported
  /-- With an icon given as an image. -/
  | legacy
  /-- With an icon given by the number of a resource. -/
  | current
deriving DecidableEq

/-- What a version of the platform allows. -/
structure Capabilities where
  /-- The level of the platform. -/
  level : Nat
  /-- The haptic feedback of a heavy impact. -/
  heavyImpact : Bool
  /-- The haptic feedback of a selection. -/
  selectionClick : Bool
  /-- The description of the entry in the list of recent applications. -/
  taskDescription : TaskDescriptionApi
  /-- Window flags have to be set before the bars can be styled. -/
  legacyBarFlags : Bool
  /-- Icons and color of the status bar. -/
  statusBarStyle : Bool
  /-- Icons and color of the navigation bar. -/
  navigationBarStyle : Bool
  /-- The color of the line above the navigation bar. -/
  dividerColor : Bool
  /-- Whether the platform enforces contrast in the bars. -/
  barContrast : Bool
deriving DecidableEq

namespace Capabilities

/-- The level that is assumed if none is known. -/
def defaultLevel : Nat := 34

/-- What the platform allows at `level`. -/
def ofLevel (level : Nat) : Capabilities where
  level
  heavyImpact := 23 ≤ level
  selectionClick := 21 ≤ level
  taskDescription :=
    if 28 ≤ level then .current else if 21 < level then .legacy else .unsupported
  legacyBarFlags := level < 30
  statusBarStyle := 23 ≤ level
  navigationBarStyle := 26 ≤ level
  dividerColor := 28 ≤ level
  barContrast := 29 ≤ level

end Capabilities

end HostBridge
