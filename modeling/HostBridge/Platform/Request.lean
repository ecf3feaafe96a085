import HostBridge.Platform.Host

/-!
# Requests to the platform

The thirteen methods that an application may call, with their arguments read.
A call that is no request has no effect at all: reading comes first.

* `Request.ofCall?` reads a call.
-/

namespace HostBridge

/-- What an application asks of the platform. -/
inductive Request
  | playSound (sound : Sound)
  | vibrate (haptic : Haptic)
  | orient (orientations : List Orientation)
  | describe (switcher : Switcher)
  | showOverlays (overlays : List Overlay)
  | enterMode (mode : BarsMode)
  /-- Reports the visibility of the bars from now on. -/
  | watchBars
  | restoreBars
  | styleBars (style : BarsStyle)
  | leave
  | readClipboard (format : Option ClipFormat)
  | writeClipboard (text : String)
  | probeClipboard
deriving DecidableEq

namespace Request

/-- A request with an argument that `read` reads. -/
def reading {α : Type} (read : Reader α) (make : α → Request) (args : Value) :
    Except CallError Request :=
  match args.as read with
  | .ok a => .ok (make a)
  | .error e => .error (.value e)

/-- The request of a call. -/
def ofCall? (call : MethodCall) : Except CallError Request :=
  match call.method with
  | "SystemSound.play" => reading Sound.read .playSound call.args
  | "HapticFeedback.vibrate" =>
    if call.args.isNull then .ok (.vibrate .standard)
    else reading Haptic.choice.read .vibrate call.args
  | "SystemChrome.setPreferredOrientations" =>
    reading (Reader.list Orientation.choice.read) .orient call.args
  | "SystemChrome.setApplicationSwitcherDescription" => reading Switcher.read .describe call.args
  | "SystemChrome.setEnabledSystemUIOverlays" =>
    reading (Reader.list Overlay.choice.read) .showOverlays call.args
  | "SystemChrome.setEnabledSystemUIMode" => reading BarsMode.choice.read .enterMode call.args
  | "SystemChrome.setSystemUIChangeListener" => .ok .watchBars
  | "SystemChrome.restoreSystemUIOverlays" => .ok .restoreBars
  | "SystemChrome.setSystemUIOverlayStyle" => reading BarsStyle.record.read .styleBars call.args
  | "SystemNavigator.pop" => .ok .leave
  | "Clipboard.getData" =>
    if call.args.isNull then .ok (.readClipboard none)
    else reading ClipFormat.choice.read (fun format => .readClipboard (some format)) call.args
  | "Clipboard.setData" => reading ClipText.record.read (fun t => .writeClipboard t.text) call.args
  | "Clipboard.hasStrings" => .ok .probeClipboard
  | _ => .error .notImplemented

end Request

end HostBridge
