import HostBridge.Channel

/-!
# The history of a channel

A history lists what has happened to the handlers of a channel, in order. It tells where
a message goes and what it meets there, without a look at the channel:

* `History.attached?`: the handler that was attached last;
* `History.state?`: the state of a handler, from the time it came alive and the calls it
  has answered since;
* `History.call?`: the call that an event makes.

`History.ofEvents` is the history that events make.
-/

namespace HostBridge

/-- What happens to the handlers of a channel. -/
inductive HandlerDeed (σ : Type)
  /-- A handler comes alive. -/
  | created (handler : HandlerId) (state : σ)
  /-- A handler is dropped. -/
  | dropped (handler : HandlerId)
  /-- A handler is attached, or the one that is attached is detached. -/
  | attached (handler : Option HandlerId)
  /-- A handler answers a call. -/
  | answered (handler : HandlerId) (call : MethodCall)

namespace HandlerDeed

variable {σ : Type}

/-- The handler that is attached, or none if one is detached. -/
def attachment? : HandlerDeed σ → Option (Option HandlerId)
  | .attached handler => some handler
  | _ => none

/-- What becomes of the state of a handler, which it has as long as it is alive. -/
def stateAfter (behave : σ → MethodCall → Conduct σ) (id : HandlerId) (state : Option σ) :
    HandlerDeed σ → Option σ
  | .created handler fresh => if handler = id then some fresh else state
  | .dropped handler => if handler = id then none else state
  | .attached _ => state
  | .answered handler call =>
    if handler = id then state.map fun before => (behave before call).state else state

end HandlerDeed

namespace ChannelCommand

/-- What a command means for the handlers. -/
def deed? {σ : Type} : ChannelCommand → Option (HandlerDeed σ)
  | .attach handler => some (.attached handler)
  | .invoke _ _ => none

/-- What the channel with this name does at a command. -/
def effect? (name : String) : ChannelCommand → Option ChannelEffect
  | .attach _ => none
  | .invoke method (.ok args) => some (.sent name (MethodCall.encode ⟨method, args⟩))
  | .invoke method (.error e) => some (.logged (encodingFailureText method e))

end ChannelCommand

/-- The handler that is called, and the call. -/
def ChannelEffect.call? : ChannelEffect → Option (HandlerId × MethodCall)
  | .called handler call => some (handler, call)
  | _ => none

namespace History

variable {σ : Type}

/-- The handler that was attached last, unless it was detached. -/
def attached? (past : List (HandlerDeed σ)) : Option HandlerId :=
  (past.filterMap HandlerDeed.attachment?).getLast?.join

variable (behave : σ → MethodCall → Conduct σ)

/-- The state of a handler, if it is alive. -/
def state? (past : List (HandlerDeed σ)) (id : HandlerId) : Option σ :=
  past.foldl (HandlerDeed.stateAfter behave id) none

/-- The handler that was attached last, if it is alive, and its state. -/
def handler? (past : List (HandlerDeed σ)) : Option (HandlerId × σ) :=
  (attached? past).bind fun id => (state? behave past id).map (id, ·)

/-- The call that an event makes: a message that holds one makes it at the handler that
    was attached last and is alive. -/
def call? (past : List (HandlerDeed σ)) : ChannelEvent σ → Option (HandlerId × σ × MethodCall)
  | .message message => (MethodCall.decode? message).bind fun call =>
    (handler? behave past).map fun (id, state) => (id, state, call)
  | _ => none

/-- What happens in an event. -/
def deeds (past : List (HandlerDeed σ)) (event : ChannelEvent σ) : List (HandlerDeed σ) :=
  match event with
  | .create id state => [.created id state]
  | .drop id => [.dropped id]
  | .command command => command.deed?.toList
  | .message _ =>
    match call? behave past event with
    | some (id, state, call) =>
      .answered id call :: (behave state call).commands.filterMap ChannelCommand.deed?
    | none => []

/-- What has happened after some events. -/
def ofEvents (events : List (ChannelEvent σ)) : List (HandlerDeed σ) :=
  events.foldl (fun past event => past ++ deeds behave past event) []

end History

end HostBridge
