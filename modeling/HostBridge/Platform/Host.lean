import HostBridge.Platform.Bars
import HostBridge.Platform.Clipboard
import HostBridge.Platform.Feedback
import HostBridge.Platform.Orientation
import HostBridge.Platform.TaskDescription

/-!
# The surroundings of the platform plugin

The plugin acts on the window that hosts the application, on the clipboard and
on a delegate, and it asks them questions. What it does is a list of `Effect`s;
what it may learn is a value of `Surroundings`.
-/

namespace HostBridge

/-- What is done to the window that hosts the application. -/
inductive HostCall
  | playClick
  | haptic (feedback : HapticConstant)
  | requestOrientation (orientation : ScreenOrientation)
  | describeTask (description : TaskDescription)
  /-- Whether the content keeps clear of the system bars by itself. -/
  | decorFits (fits : Bool)
  | showInsets (types : InsetTypes)
  | hideInsets (types : InsetTypes)
  | barsBehavior (behavior : BarsBehavior)
  /-- A light status bar has dark icons. -/
  | lightStatusBar (light : Bool)
  /-- A light navigation bar has dark icons. -/
  | lightNavigationBar (light : Bool)
  | statusColor (color : Color)
  | navigationColor (color : Color)
  | dividerColor (color : Color)
  | statusContrast (enforced : Bool)
  | navigationContrast (enforced : Bool)
  | addFlags (flags : UInt32)
  | clearFlags (flags : UInt32)
  /-- Insets are reported to the plugin from now on. -/
  | listenInsets
  | backPressed
  | finish
deriving DecidableEq

/-- What the plugin does to its surroundings. -/
inductive Effect
  | host (call : HostCall)
  /-- Reads the clipboard. -/
  | readClip
  /-- Opens the content under an address, as one of the given type. -/
  | openUri (uri type : String)
  | writeClip (clip : Clip)
  /-- Offers the delegate to leave the application. -/
  | askDelegate
  /-- Logs a warning. -/
  | warn (text : String)
  /-- Logs an error. -/
  | fail (text : String)
deriving DecidableEq

/-- What the plugin may learn from its surroundings. -/
structure Surroundings where
  /-- Whether the delegate leaves the application by itself, if there is a
      delegate. -/
  delegate : Option Bool
  /-- Somebody waits for the back button. -/
  backDispatcher : Bool
  /-- The clipboard says that it holds something. -/
  hasClip : Bool
  /-- What reading the clipboard gives. -/
  clip : Except ClipError (Option Clip)
  /-- The types of the content of the clipboard, if they are known. -/
  clipTypes : Option (List String)
  /-- What opening an address as a type gives. -/
  openUri : String → String → Except ClipError Unit

end HostBridge
