import HostBridge.Channel
import HostBridge.Platform.Feedback
import HostBridge.Trace
import HostBridge.Value.Offer

/-!
# A scripted handler on a channel

A channel whose handlers answer a few methods by a fixed rule: they return
their argument, fail in one way or another, or give commands to the channel.
One handler at most is kept alive.
-/

namespace HostBridge

namespace Simulation

/-- How a scripted handler conducts itself. It has no state. -/
def scripted (_ : Unit) (call : MethodCall) : Conduct Unit :=
  match call.method with
  | "echo" => ⟨.ok call.args, (), []⟩
  | "null" => ⟨.ok .null, (), []⟩
  | "key" => ⟨.ok ((call.args.get? "key").getD .null), (), []⟩
  | "unspecified" => ⟨.error .unspecified, (), []⟩
  | "wrong_type" => ⟨.error (.value .wrongType), (), []⟩
  | "value_error" => ⟨.error (.value (.custom (call.args.text?.getD "none"))), (), []⟩
  | "detach" => ⟨.ok (.bool true), (), [.attach none]⟩
  | "notify" => ⟨.ok (.bool true), (), [.invoke "notified" (.ok call.args.viaJson)]⟩
  | _ => ⟨.error .notImplemented, (), []⟩

/-- A channel with scripted handlers. -/
structure ScriptedChannel where
  /-- The channel. -/
  channel : Channel Unit
  /-- The handler that is kept alive. -/
  kept : Option HandlerId := none
  /-- The next handler. -/
  next : HandlerId := 0

/-- A step of a session with a channel. -/
inductive ChannelStep
  /-- Keeps a new handler alive, in place of the last one, and attaches it. -/
  | attachNew
  /-- Drops the handler that is kept alive. -/
  | dropKept
  /-- Detaches the handler. -/
  | detach
  /-- Attaches the handler that is kept alive, if there is one. -/
  | reattach
  /-- A message comes in. -/
  | message (message : Bytes)
  /-- A call with a value goes out. -/
  | invoke (method : String) (args : Value)
  /-- A call with an integer goes out. -/
  | invokeInteger (method : String) (n : Int)
  /-- A call with the sound of a name goes out. -/
  | invokeSound (method name : String)

namespace ScriptedChannel

/-- What a step means for the life of the channel. -/
def events (s : ScriptedChannel) : ChannelStep → List (ChannelEvent Unit)
  | .attachNew =>
    (s.kept.map ChannelEvent.drop).toList ++
      [.create s.next (), .command (.attach (some s.next))]
  | .dropKept => (s.kept.map ChannelEvent.drop).toList
  | .detach => [.command (.attach none)]
  | .reattach => [.command (.attach s.kept)]
  | .message message => [.message message]
  | .invoke method args => [.command (.invoke method (.ok args.viaJson))]
  | .invokeInteger method n => [.command (.invoke method (Value.ofInteger n))]
  | .invokeSound method name =>
    [.command (.invoke method (Sound.choice.write (Sound.ofName name)))]

/-- Which handler is kept alive after a step. -/
def keep (s : ScriptedChannel) : ChannelStep → ScriptedChannel
  | .attachNew => { s with kept := some s.next, next := s.next + 1 }
  | .dropKept => { s with kept := none }
  | _ => s

/-- The session after a step, what the channel did, and its reply. -/
def step (s : ScriptedChannel) (t : ChannelStep) :
    ScriptedChannel × List ChannelEffect × Option Bytes :=
  let outcomes := Trace.run (Channel.step scripted) s.channel (s.events t)
  let channel := Trace.final (Channel.step scripted) s.channel (s.events t)
  ({ s.keep t with channel }, outcomes.flatMap (·.2.1), outcomes.findSome? (·.2.2))

end ScriptedChannel

end Simulation

end HostBridge
