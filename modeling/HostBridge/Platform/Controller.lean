import HostBridge.Platform.Request

/-!
# Carrying out requests

The controller remembers what the application has asked for last: a mode or
the bars that it wants to see, and a style for them. Whenever one of the former
is asked for again, the style is applied again after it.

* `Controller.perform` carries out a request: the controller afterwards, the
  effects in their order, and the answer.
-/

namespace HostBridge

/-- The flag of a window that draws behind the system bars. -/
def drawsBarBackgrounds : UInt32 := 0x80000000

/-- The flags of a window whose system bars are translucent. -/
def translucentBars : UInt32 := 0x04000000 ||| 0x08000000

/-- What is remembered between requests. -/
structure Controller where
  /-- What the platform allows. -/
  capabilities : Capabilities
  /-- The mode or the bars that were asked for last. -/
  bars : BarsRequest
  /-- The style that was asked for last. -/
  style : Option BarsStyle
deriving DecidableEq

namespace Controller

/-- A controller before any request. -/
def start (level : Nat) : Controller := ⟨.ofLevel level, .initial, none⟩

/-- The call that sets one setting, if it is given and the platform allows it. -/
def setting {α : Type} (allowed : Bool) (value : Option α) (call : α → HostCall) : List HostCall :=
  if allowed then (value.map call).toList else []

/-- The calls that apply a style. -/
def styleCalls (caps : Capabilities) (s : BarsStyle) : List HostCall :=
  (if caps.legacyBarFlags then [.addFlags drawsBarBackgrounds, .clearFlags translucentBars]
    else []) ++
  setting caps.statusBarStyle s.statusIcons (fun b => .lightStatusBar (b == .dark)) ++
  setting caps.statusBarStyle s.statusColor .statusColor ++
  setting caps.barContrast s.statusContrast .statusContrast ++
  setting caps.navigationBarStyle s.navigationIcons (fun b => .lightNavigationBar (b == .dark)) ++
  setting caps.navigationBarStyle s.navigationColor .navigationColor ++
  setting caps.dividerColor s.dividerColor .dividerColor ++
  setting caps.barContrast s.navigationContrast .navigationContrast

/-- The calls that show and hide the bars. The application keeps clear of the
    bars by itself. -/
def layoutCalls (l : BarsLayout) : List HostCall :=
  [.decorFits false, .showInsets l.shown, .hideInsets l.hidden, .barsBehavior l.behavior]

/-- Applies a style: the controller afterwards, which remembers the style, and the
    calls. -/
def applyStyle (c : Controller) (style : BarsStyle) : Controller × List HostCall :=
  ({ c with style := some style }, styleCalls c.capabilities style)

/-- Brings the bars into the state that was asked for last: the controller afterwards,
    and the calls. The style is applied after the layout, as if it was asked for again. -/
def refresh (c : Controller) : Controller × List HostCall :=
  match c.style with
  | none => (c, layoutCalls c.bars.layout)
  | some style =>
    let (next, calls) := c.applyStyle style
    (next, layoutCalls c.bars.layout ++ calls)

/-- The feedback for a kind, if the platform has it. -/
def hapticConstant? (caps : Capabilities) : Haptic → Option HapticConstant
  | .standard => some .longPress
  | .lightImpact => some .virtualKey
  | .mediumImpact => some .keyboardTap
  | .heavyImpact => if caps.heavyImpact then some .contextClick else none
  | .selectionClick => if caps.selectionClick then some .clockTick else none

/-- Leaves the application, unless the delegate does so: the back button if
    somebody waits for it, the end of the application otherwise. -/
def leave (env : Surroundings) : List Effect :=
  let fallback := Effect.host (if env.backDispatcher then .backPressed else .finish)
  -- the delegate comes first, and is the last to be asked if it agrees
  match env.delegate with
  | none => [fallback]
  | some true => [.askDelegate]
  | some false => [.askDelegate, fallback]

/-- The text of the first item of a clip. What is found under an address is
    opened first, to see that it can be read. -/
def itemText (env : Surroundings) : Option ClipItem → List Effect × Option String
  | some (.text text) => ([], some text)
  | some (.uri uri text) =>
    match env.openUri uri Mime.anyText with
    | .ok () => ([.openUri uri Mime.anyText], some text)
    | .error e => (.openUri uri Mime.anyText :: e.warning?.toList.map .warn, none)
  | some .other => ([], none)
  | none => ([], none)

/-- The text on the clipboard. -/
def clipboardText (env : Surroundings) : List Effect × Option String :=
  if env.hasClip then
    match env.clip with
    | .error e => (.readClip :: e.warning?.toList.map .warn, none)
    | .ok none => ([.readClip], none)
    | .ok (some clip) =>
      let (effects, text) := itemText env clip.items.head?
      (.readClip :: effects, text)
  else ([], none)

/-- The clipboard holds text. Its content is not looked at, since the user is
    told of every look. -/
def clipboardHasText (env : Surroundings) : Bool :=
  env.hasClip && (env.clipTypes.map (Clip.hasType · Mime.anyText)).getD false

/-- Carries out a request. -/
def perform (env : Surroundings) (c : Controller) :
    Request → Controller × List Effect × Value
  | .playSound sound => (c, if sound = .click then [.host .playClick] else [], .null)
  | .vibrate haptic =>
    let calls := ((hapticConstant? c.capabilities haptic).map HostCall.haptic).toList
    (c, calls.map .host, .null)
  | .orient orientations =>
    (c, [.host (.requestOrientation (.forRequest orientations))], .null)
  | .describe switcher =>
    let description := TaskDescription.ofSwitcher? c.capabilities.taskDescription switcher
    (c, (description.map HostCall.describeTask).toList.map .host, .null)
  | .showOverlays overlays =>
    let (c, calls) := { c with bars := .ofOverlays overlays : Controller }.refresh
    (c, calls.map .host, .null)
  | .enterMode mode =>
    let (c, calls) := { c with bars := .mode mode : Controller }.refresh
    (c, calls.map .host, .null)
  | .watchBars => (c, [.host .listenInsets], .null)
  | .restoreBars =>
    let (c, calls) := c.refresh
    (c, calls.map .host, .null)
  | .styleBars style =>
    let (c, calls) := c.applyStyle style
    (c, calls.map .host, .null)
  | .leave => (c, leave env, .null)
  | .readClipboard _ =>
    let (effects, text) := clipboardText env
    (c, effects, (text.map fun text => ClipText.write ⟨text⟩).getD .null)
  | .writeClipboard text => (c, [.writeClip (.plain "text" text)], .null)
  | .probeClipboard => (c, [], ClipPresence.write ⟨clipboardHasText env⟩)

end Controller

end HostBridge
