import HostBridge.Platform.Plugin
import HostBridge.Trace

/-!
# The life of the plugin

What happens to a plugin, one event after the other.

* `Plugin.step`: messages come in at a plugin, and its owner has the bars brought
  into the state that was asked for last. The surroundings may answer differently
  every time.
* `Session.step`: besides that the plugin stops listening and is dropped, the
  window reports insets, and the loop has turns in which notices are sent.
-/

namespace HostBridge

namespace Request

/-- The request that a message holds, if it holds one. -/
def ofMessage? (message : Bytes) : Option Request :=
  (MethodCall.decode? message).bind fun call => (ofCall? call).toOption

end Request

/-- What happens to a plugin. -/
inductive PluginEvent
  /-- A message comes in, in these surroundings. -/
  | message (env : Surroundings) (message : Bytes)
  /-- The bars are to be brought into the state that was asked for last. -/
  | refresh

namespace PluginEvent

/-- The request that an event makes, if it makes one. A refresh needs no
    message. -/
def request? : PluginEvent → Option Request
  | .message _ bytes => Request.ofMessage? bytes
  | .refresh => some .restoreBars

end PluginEvent

namespace Plugin

/-- The plugin after an event, its effects, and its reply to a message. -/
def step (p : Plugin) : PluginEvent → Plugin × List Effect × Option Bytes
  | .message env message =>
    let (p, effects, reply) := p.receive env message
    (p, effects, some reply)
  | .refresh =>
    let (p, effects) := p.refresh
    (p, effects, none)

end Plugin

/-- What happens to a session. -/
inductive SessionEvent
  /-- Something happens to the plugin, if there still is one. -/
  | plugin (event : PluginEvent)
  /-- The plugin stops listening to its channel. -/
  | destroy
  /-- The plugin is dropped. -/
  | drop
  /-- The window reports insets at a point in time. -/
  | insets (now : Int) (insets : WindowInsets)
  /-- A turn of the loop at a point in time. -/
  | frame (now : Int)

/-- What is seen of an event in a session. -/
structure SessionOutcome where
  /-- What the plugin does to its surroundings. -/
  effects : List Effect := []
  /-- What is sent to the application, on which channel. -/
  sent : List ChannelEffect := []
  /-- The reply to a message. -/
  reply : Option Bytes := none

namespace Session

/-- A turn of the loop: the session afterwards, and what is sent. -/
def frame (s : Session) (now : Int) : Session × List ChannelEffect :=
  (TaskQueue.execute (fun x : Session × List ChannelEffect => x.1.notices)
    (fun q x => ({ x.1 with notices := q }, x.2))
    (fun visible x => (x.1, x.2 ++ (x.1.notify visible).toList)) now (s, [])).1

theorem foldl_notify (s : Session) (due : List Bool) (sent : List ChannelEffect) :
    due.foldl (fun x visible => (x.1, x.2 ++ (x.1.notify visible).toList)) (s, sent) =
      (s, sent ++ due.flatMap fun visible => (s.notify visible).toList) := by
  induction due generalizing sent with
  | nil => simp
  | cons visible due ih => rw [List.foldl_cons, ih, List.flatMap_cons, List.append_assoc]

/-- A turn of the loop takes the notices that are due, and sends them. -/
theorem frame_eq (s : Session) (now : Int) : s.frame now =
    ({ s with notices := (s.notices.takeDue now).2 },
      (s.notices.takeDue now).1.flatMap fun visible => (s.notify visible).toList) :=
  foldl_notify { s with notices := (s.notices.takeDue now).2 } _ []

/-- The session after an event, and what is seen of it. -/
def step (s : Session) : SessionEvent → Session × SessionOutcome
  | .plugin (.message env message) =>
    match s.receive env message with
    | some (s, effects, reply) => (s, ⟨effects, [], some reply⟩)
    | none => (s, {})
  | .plugin .refresh =>
    match s.refresh with
    | some (s, effects) => (s, { effects })
    | none => (s, {})
  | .destroy => (s.destroy, {})
  | .drop => (s.drop, {})
  | .insets now insets => (s.deliver now insets, {})
  | .frame now =>
    let (s, sent) := s.frame now
    (s, { sent })

end Session

end HostBridge
