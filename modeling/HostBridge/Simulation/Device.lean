import HostBridge.Platform.Plugin

/-!
# A device in memory

Surroundings of the platform plugin that keep everything in memory: a clipboard
that stores what is written to it, a delegate and a back button that answer as
they are told, and an application that may react to every message it gets.

All notices are posted at the time `Device.clock`; a frame runs before or after
it.
-/

namespace HostBridge

namespace Simulation

/-- What the application does when it gets a message: it may make the window
    report insets, and then send a message itself. -/
structure Reaction where
  insets : Option WindowInsets
  message : Option Bytes

/-- The surroundings of the plugin, and the plugin among them. -/
structure Device where
  /-- The plugin and what outlives it. -/
  session : Session
  /-- What the delegate answers, if there is one. -/
  delegate : Option Bool := none
  /-- Somebody waits for the back button. -/
  backDispatcher : Bool := false
  /-- The content of the clipboard. -/
  clip : Option Clip := none
  /-- What the clipboard says about having content, if it does not go by its
      content. -/
  claimsClip : Option Bool := none
  /-- The clipboard does not tell the types of its content. -/
  hidesTypes : Bool := false
  /-- The error of reading the clipboard. -/
  clipError : Option ClipError := none
  /-- The error of opening an address. -/
  uriError : Option ClipError := none
  /-- How the application reacts to messages. -/
  reaction : Reaction := ⟨none, none⟩

/-- What is seen of a session. -/
inductive DeviceEvent
  /-- The plugin acts. -/
  | effect (effect : Effect)
  /-- A message is sent to the application. -/
  | sent (channel : String) (message : Bytes)
  /-- The application gets a reply to the message by which it reacted. -/
  | reacted (reply : Bytes)

/-- What is seen of what the channel of the plugin does. -/
def DeviceEvent.ofChannel : ChannelEffect → List DeviceEvent
  | .sent channel message => [.sent channel message]
  | .logged text => [.effect (.fail text)]
  | .called _ _ => []

namespace Device

/-- The time of all notices. -/
def clock : Int := 1

/-- What the plugin may learn. -/
def surroundings (d : Device) : Surroundings where
  delegate := d.delegate
  backDispatcher := d.backDispatcher
  hasClip := d.claimsClip.getD d.clip.isSome
  clip :=
    match d.clipError with
    | some e => .error e
    | none => .ok d.clip
  clipTypes := if d.hidesTypes then none else d.clip.map (·.types)
  openUri _ _ :=
    match d.uriError with
    | some e => .error e
    | none => .ok ()

/-- What an effect does to the device. -/
def apply (d : Device) : Effect → Device
  | .writeClip clip => { d with clip := some clip }
  | _ => d

/-- A message of the application comes in, if there is a plugin. -/
def receive (d : Device) (message : Bytes) : Option (Device × List DeviceEvent × Bytes) :=
  (d.session.receive d.surroundings message).map fun (session, effects, reply) =>
    (effects.foldl apply { d with session }, effects.map .effect, reply)

/-- The window reports insets. -/
def deliver (d : Device) (insets : WindowInsets) : Device :=
  { d with session := d.session.deliver clock insets }

/-- The application reacts to a message. -/
def react (d : Device) : Device × List DeviceEvent :=
  let d :=
    match d.reaction.insets with
    | some insets => d.deliver insets
    | none => d
  match d.reaction.message.bind d.receive with
  | some (d, events, reply) => (d, events ++ [.reacted reply])
  | none => (d, [])

/-- Carries out what the channel of the plugin does. The application may react to a
    message. -/
def carry (d : Device) (call : ChannelEffect) : Device × List DeviceEvent :=
  match call with
  | .sent _ _ =>
    let (d, events) := d.react
    (d, DeviceEvent.ofChannel call ++ events)
  | _ => (d, DeviceEvent.ofChannel call)

/-- Sends the notice of a visibility, if there is a plugin. -/
def notify (visible : Bool) (s : Device × List DeviceEvent) : Device × List DeviceEvent :=
  match s.1.session.notify visible with
  | some call =>
    let (d, events) := s.1.carry call
    (d, s.2 ++ events)
  | none => s

/-- A turn of the loop at a point in time: the device, what was seen, and
    whether a notice is still waiting. -/
def frame (d : Device) (now : Int) : Device × List DeviceEvent × Bool :=
  let (s, next) := TaskQueue.execute (fun s => s.1.session.notices)
    (fun q s => ({ s.1 with session := { s.1.session with notices := q } }, s.2))
    notify now (d, [])
  (s.1, s.2, next.isSome)

/-- The plugin calls a method of the application, if there is a plugin. -/
def invoke (d : Device) (method : String) (args : Value) : Option (Device × List DeviceEvent) :=
  d.session.plugin.map fun _ => d.carry (Plugin.invoke method args)

/-- The plugin brings the bars into the state that was asked for last, if there
    is a plugin. -/
def refresh (d : Device) : Option (Device × List DeviceEvent) :=
  d.session.refresh.map fun (session, effects) => ({ d with session }, effects.map .effect)

/-- The device whose delegate, if there is one, answers `value`. -/
def answerDelegate (d : Device) (value : Bool) : Device :=
  { d with delegate := d.delegate.map fun _ => value }

end Device

/-- A step of a session with a device. -/
inductive DeviceStep
  /-- A message of the application comes in. -/
  | message (message : Bytes)
  /-- The bars are brought into the state that was asked for last. -/
  | refresh
  /-- The plugin stops listening. -/
  | destroy
  /-- The plugin is asked for its name and its channel. -/
  | name
  /-- The plugin calls a method of the application. -/
  | invoke (method : String) (args : Value)
  /-- The plugin is dropped. -/
  | drop
  /-- The window reports insets. -/
  | insets (insets : WindowInsets)
  /-- A turn of the loop after all notices were posted. -/
  | frame
  /-- A turn of the loop before any notice was posted. -/
  | framePast
  /-- Somebody waits for the back button, or no more. -/
  | back (value : Bool)
  /-- What the delegate answers. -/
  | delegate (value : Bool)
  /-- What is on the clipboard, and what the clipboard tells of it. -/
  | clip (clip : Option Clip) (claims : Option Bool) (hidesTypes : Bool)
  /-- The error of reading the clipboard. -/
  | clipError (e : Option ClipError)
  /-- The error of opening an address. -/
  | uriError (e : Option ClipError)
  /-- How the application reacts to messages. -/
  | react (reaction : Reaction)

/-- The answer to a step. -/
inductive DeviceAnswer
  | nothing
  /-- There is no plugin any more. -/
  | dropped
  /-- The reply to a message. -/
  | reply (reply : Bytes)
  /-- The name of the plugin and its channel. -/
  | names (plugin channel : String)
  /-- Whether anybody listened, or whether a notice is still waiting. -/
  | truth (value : Bool)

namespace Device

/-- The answer of a step that needs the plugin. -/
def orDropped (d : Device) (result : Option (Device × List DeviceEvent × DeviceAnswer)) :
    Device × List DeviceEvent × DeviceAnswer :=
  result.getD (d, [], .dropped)

/-- The device after a step, what was seen, and the answer. -/
def step (d : Device) : DeviceStep → Device × List DeviceEvent × DeviceAnswer
  | .message message =>
    d.orDropped ((d.receive message).map fun (d, events, reply) => (d, events, .reply reply))
  | .refresh => d.orDropped (d.refresh.map fun (d, events) => (d, events, .nothing))
  | .destroy =>
    d.orDropped (d.session.plugin.map fun _ =>
      ({ d with session := d.session.destroy }, [], .nothing))
  | .name =>
    d.orDropped (d.session.plugin.map fun _ => (d, [], .names Plugin.name Plugin.channel))
  | .invoke method args =>
    d.orDropped ((d.invoke method args).map fun (d, events) => (d, events, .nothing))
  | .drop => ({ d with session := d.session.drop }, [], .nothing)
  | .insets insets => (d.deliver insets, [], .truth d.session.listening)
  | .frame =>
    let (d, events, waiting) := d.frame (clock + 1)
    (d, events, .truth waiting)
  | .framePast =>
    let (d, events, waiting) := d.frame (clock - 1)
    (d, events, .truth waiting)
  | .back value => ({ d with backDispatcher := value }, [], .nothing)
  | .delegate value => (d.answerDelegate value, [], .nothing)
  | .clip clip claims hidesTypes =>
    ({ d with clip, claimsClip := claims, hidesTypes }, [], .nothing)
  | .clipError e => ({ d with clipError := e }, [], .nothing)
  | .uriError e => ({ d with uriError := e }, [], .nothing)
  | .react reaction => ({ d with reaction }, [], .nothing)

end Device

end Simulation

end HostBridge
