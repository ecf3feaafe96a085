import HostBridge.Channel
import HostBridge.Platform.Controller
import HostBridge.TaskQueue
import HostBridge.Window.Insets

/-!
# The platform plugin

The plugin answers the method calls of an application on one channel and tells
the application when the system bars appear or disappear.

* `Plugin.receive` deals with one incoming message.
* `Plugin.invoke` calls a method of the application on the channel.
* Once the application has asked for it, the window reports its insets. Each
  report posts a notice, a task for a later turn of the loop
  (`Session.deliver`). A notice that is run calls a method of the application,
  as long as there is a plugin (`Session.notify`).
-/

namespace HostBridge

/-- The plugin. -/
structure Plugin where
  /-- What is remembered between requests. -/
  controller : Controller
  /-- The plugin still listens to its channel. -/
  attached : Bool
deriving DecidableEq

namespace Plugin

/-- The name of the plugin. -/
def name : String := "flutter_plugins::platform"

/-- The channel of the plugin. -/
def channel : String := "flutter/platform"

/-- A plugin that listens to its channel. -/
def start (level : Nat) : Plugin := ⟨.start level, true⟩

/-- Stops listening to the channel. -/
def destroy (p : Plugin) : Plugin := { p with attached := false }

/-- Deals with a call: the controller afterwards, the effects, and the
    outcome. -/
def handle (env : Surroundings) (c : Controller) (call : MethodCall) :
    (Controller × List Effect) × Except CallError Value :=
  match Request.ofCall? call with
  | .ok request =>
    let (c, effects, value) := c.perform env request
    ((c, effects), .ok value)
  | .error e => ((c, []), .error e)

/-- Deals with an incoming message: the plugin afterwards, the effects in their
    order, and the reply. -/
def receive (env : Surroundings) (p : Plugin) (message : Bytes) :
    Plugin × List Effect × Bytes :=
  let handler := if p.attached then some (handle env p.controller) else none
  let receipt := HostBridge.receive handler message
  let (controller, effects) := receipt.handled.getD (p.controller, [])
  let logs := receipt.failure.toList.map fun e => Effect.fail (failureText channel e)
  ({ p with controller }, effects ++ logs, receipt.reply)

/-- Calls a method of the application on the channel of the plugin. -/
def invoke (method : String) (args : Value) : ChannelEffect :=
  (Channel.start channel : Channel Controller).invoke method (.ok args.viaJson)

/-- Brings the bars into the state that was asked for last: the plugin afterwards, and
    the effects. -/
def refresh (p : Plugin) : Plugin × List Effect :=
  let (controller, calls) := p.controller.refresh
  ({ p with controller }, calls.map .host)

end Plugin

/-- The plugin among what outlives it. -/
structure Session where
  /-- The plugin, until it is dropped. -/
  plugin : Option Plugin
  /-- The window reports its insets. -/
  listening : Bool
  /-- The notices that wait to be sent: whether both bars are visible. -/
  notices : TaskQueue Bool

namespace Session

/-- A session with a new plugin. -/
def start (level : Nat) : Session := ⟨some (.start level), false, .empty⟩

/-- The method by which the application learns of the visibility of the bars. -/
def noticeMethod : String := "SystemChrome.systemUIChange"

/-- Both bars are visible. -/
def barsVisible (insets : WindowInsets) : Bool := insets.isVisible .bars

/-- The window reports insets at a point in time. -/
def deliver (s : Session) (now : Int) (insets : WindowInsets) : Session :=
  if s.listening then { s with notices := s.notices.post now (barsVisible insets) } else s

/-- What the channel does with a notice. -/
def notice (visible : Bool) : ChannelEffect := Plugin.invoke noticeMethod (.list [.bool visible])

/-- What becomes of a notice, if there is still a plugin to send it. -/
def notify (s : Session) (visible : Bool) : Option ChannelEffect :=
  s.plugin.map fun _ => notice visible

/-- What an effect means for the session: the window starts to report. -/
def note (s : Session) : Effect → Session
  | .host .listenInsets => { s with listening := true }
  | _ => s

/-- An incoming message, if there is a plugin to deal with it: the session
    afterwards, the effects, and the reply. -/
def receive (env : Surroundings) (s : Session) (message : Bytes) :
    Option (Session × List Effect × Bytes) :=
  s.plugin.map fun p =>
    let (p, effects, reply) := p.receive env message
    (effects.foldl note { s with plugin := some p }, effects, reply)

/-- The bars are brought into the state that was asked for last, if there is a plugin:
    the session afterwards, and the effects. -/
def refresh (s : Session) : Option (Session × List Effect) :=
  s.plugin.map fun p =>
    let (p, effects) := p.refresh
    (effects.foldl note { s with plugin := some p }, effects)

/-- The plugin stops listening to its channel. -/
def destroy (s : Session) : Session := { s with plugin := s.plugin.map Plugin.destroy }

/-- The plugin is dropped. The notices wait on. -/
def drop (s : Session) : Session := { s with plugin := none }

end Session

end HostBridge
