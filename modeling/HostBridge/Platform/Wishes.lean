import HostBridge.Platform.HostRecord
import HostBridge.Platform.Life
import HostBridge.Value.Shape

/-!
# What has been asked of the window

The requests that concern the system bars, apart from how they are carried out.

* `BarsWish`: which bars are to be visible. A mode or a list of bars is such a
  wish, and the last one counts (`Request.lastWish`).
* `BarSetting`: the settings that a style may give. Each is found under a key or
  at a place among the arguments of a request, exists from some level of the
  platform on, and can be read off a window.
* `PluginRun` is a plugin with all that has happened to it, `PluginRun.requests`
  what it was asked for, and `PluginRun.window` what became of the window.
-/

namespace HostBridge

namespace InsetTypes

/-- Those of the two bars that are chosen. -/
def ofBars (status navigation : Bool) : InsetTypes :=
  (if status then statusBars else empty).union (if navigation then navigationBars else empty)

end InsetTypes

/-- Which bars are to be visible, and how hidden ones may be brought back. -/
structure BarsWish where
  /-- The status bar is to be visible. -/
  status : Bool
  /-- The navigation bar is to be visible. -/
  navigation : Bool
  behavior : BarsBehavior
deriving DecidableEq

namespace BarsWish

/-- Both bars, above the application. -/
def edgeToEdge : BarsWish := ⟨true, true, .touch⟩

/-- The wish of a mode. -/
def ofMode : BarsMode → BarsWish
  | .leanBack => ⟨false, false, .touch⟩
  | .immersive => ⟨false, false, .swipe⟩
  | .immersiveSticky => ⟨false, false, .transientSwipe⟩
  | .edgeToEdge => edgeToEdge

/-- The wish for the bars that are listed. -/
def ofOverlays (overlays : List Overlay) : BarsWish :=
  ⟨.top ∈ overlays, .bottom ∈ overlays, .transientSwipe⟩

/-- What is to be shown. -/
def shown (w : BarsWish) : InsetTypes := .ofBars w.status w.navigation

/-- What is to be hidden. -/
def hidden (w : BarsWish) : InsetTypes := .ofBars (!w.status) (!w.navigation)

end BarsWish

namespace Request

/-- What a request wishes for the bars, if it changes the wish. -/
def barsWish? : Request → Option BarsWish
  | .showOverlays overlays => some (.ofOverlays overlays)
  | .enterMode mode => some (.ofMode mode)
  | _ => none

/-- The request shows and hides bars. -/
def arranges : Request → Bool
  | .showOverlays _ => true
  | .enterMode _ => true
  | .restoreBars => true
  | _ => false

/-- The style that a request gives. -/
def style? : Request → Option BarsStyle
  | .styleBars style => some style
  | _ => none

/-- The last wish for the bars. -/
def lastWish (requests : List Request) : BarsWish :=
  (requests.filterMap barsWish?).getLast?.getD .edgeToEdge

/-- The styles that were given, in their order. -/
def styles (requests : List Request) : List BarsStyle := requests.filterMap style?

end Request

/-- What a setting of the bars may be. -/
inductive SettingValue
  | flag (value : Bool)
  | color (color : Color)
deriving DecidableEq

namespace SettingValue

end SettingValue

/-- A setting that a style may give. -/
inductive BarSetting
  /-- The status bar looks light. -/
  | statusIcons
  | statusColor
  | statusContrast
  /-- The navigation bar looks light. -/
  | navigationIcons
  | navigationColor
  /-- The color of the line above the navigation bar. -/
  | dividerColor
  | navigationContrast
deriving DecidableEq

namespace BarSetting

/-- The level from which on the platform has a setting. -/
def level : BarSetting → Nat
  | .statusIcons => 23
  | .statusColor => 23
  | .navigationIcons => 26
  | .navigationColor => 26
  | .dividerColor => 28
  | .statusContrast => 29
  | .navigationContrast => 29

/-- The key under which a setting is given. -/
def key : BarSetting → String
  | .statusIcons => "statusBarIconBrightness"
  | .statusColor => "statusBarColor"
  | .statusContrast => "systemStatusBarContrastEnforced"
  | .navigationIcons => "systemNavigationBarIconBrightness"
  | .navigationColor => "systemNavigationBarColor"
  | .dividerColor => "systemNavigationBarDividerColor"
  | .navigationContrast => "systemNavigationBarContrastEnforced"

/-- What a style gives for a setting. -/
def ofStyle? : BarSetting → BarsStyle → Option SettingValue
  | .statusIcons, style => style.statusIcons.map fun b => .flag (b == .dark)
  | .statusColor, style => style.statusColor.map .color
  | .statusContrast, style => style.statusContrast.map .flag
  | .navigationIcons, style => style.navigationIcons.map fun b => .flag (b == .dark)
  | .navigationColor, style => style.navigationColor.map .color
  | .dividerColor, style => style.dividerColor.map .color
  | .navigationContrast, style => style.navigationContrast.map .flag

/-- What a setting of a window is. -/
def ofWindow? : BarSetting → HostRecord → Option SettingValue
  | .statusIcons, r => r.lightStatusBar.map .flag
  | .statusColor, r => r.statusColor.map .color
  | .statusContrast, r => r.statusContrast.map .flag
  | .navigationIcons, r => r.lightNavigationBar.map .flag
  | .navigationColor, r => r.navigationColor.map .color
  | .dividerColor, r => r.dividerColor.map .color
  | .navigationContrast, r => r.navigationContrast.map .flag

end BarSetting

/-- A plugin that listens, from its start, and what happens to it. -/
structure PluginRun where
  /-- The level of the platform. -/
  level : Nat
  events : List PluginEvent

namespace PluginRun

variable (run : PluginRun)

/-- The plugin in the end. -/
def plugin : Plugin := Trace.final Plugin.step (.start run.level) run.events

/-- All that the plugin does. -/
def effects : List Effect :=
  (Trace.run Plugin.step (.start run.level) run.events).flatMap fun x => x.2.1

/-- What the plugin was asked for, in order. -/
def requests : List Request := run.events.filterMap PluginEvent.request?

/-- What became of the window. -/
def window : HostRecord := .ofEffects run.effects

end PluginRun

end HostBridge
