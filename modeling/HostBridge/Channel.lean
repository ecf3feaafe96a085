import HostBridge.Error

/-!
# Method channels

A channel carries method calls in both directions under a name. A call that
comes in goes to the handler that is attached, as long as somebody keeps the
handler alive, and what the handler makes of it is sent back as the reply.

* `receive` is what a channel makes of one incoming message, given its live
  handler. A message that is no call is answered with an unspecified error, a
  call without handler with the empty reply. Errors of the handler are logged,
  except that it does not implement the method.
* `Channel.step` follows a channel through its life: handlers come alive, are
  attached, replaced, detached and dropped, messages come in and calls go out.
  While a handler answers, it may give commands to its own channel.
-/

namespace HostBridge

/-- How a channel deals with an incoming message. -/
structure Receipt (β : Type) where
  /-- The reply. -/
  reply : Bytes
  /-- What the handler did, if it was called. -/
  handled : Option β
  /-- The error to be logged. -/
  failure : Option CallError

/-- The error of an outcome, if it is worth a log record. -/
def failureOf : Except CallError Value → Option CallError
  | .ok _ => none
  | .error .notImplemented => none
  | .error e => some e

/-- Deals with an incoming message. `handler` is the live handler that is
    attached: what it does with a call, and the outcome. -/
def receive {β : Type} (handler : Option (MethodCall → β × Except CallError Value))
    (message : Bytes) : Receipt β :=
  match MethodCall.decode? message with
  | none => ⟨CallError.unspecified.toResult.encode, none, none⟩
  | some call =>
    match handler with
    | none => ⟨CallResult.notImplemented.encode, none, none⟩
    | some handle =>
      let (done, outcome) := handle call
      ⟨(CallResult.ofOutcome outcome).encode, some done, failureOf outcome⟩

/-- The log record of a call that failed. -/
def failureText (channel : String) (e : CallError) : String :=
  "Method call on channel " ++ channel ++ " failed: " ++ e.message

/-- The log record of a call that could not be written. -/
def encodingFailureText (method : String) (e : ValueError) : String :=
  "Failed to encode args of " ++ method ++ ": " ++ e.message

/-- What tells one handler from another. -/
abbrev HandlerId := Nat

/-- What a channel does to its surroundings. -/
inductive ChannelEffect
  /-- A handler is called. -/
  | called (handler : HandlerId) (call : MethodCall)
  /-- A message is sent. -/
  | sent (channel : String) (message : Bytes)
  /-- An error is logged. -/
  | logged (text : String)

/-- What a handler may ask of its channel. -/
inductive ChannelCommand
  /-- Attaches a handler, or detaches the one that is attached. -/
  | attach (handler : Option HandlerId)
  /-- Calls a method of the other side. The argument may be one that cannot be
      written. -/
  | invoke (method : String) (args : Except ValueError Value)

/-- What a handler does when it is called. -/
structure Conduct (σ : Type) where
  /-- How the call ends. -/
  outcome : Except CallError Value
  /-- The state of the handler afterwards. -/
  state : σ
  /-- What the handler asks of its channel meanwhile, in order. -/
  commands : List ChannelCommand

/-- A channel and the handlers that are alive. -/
structure Channel (σ : Type) where
  /-- The name under which messages are sent. -/
  name : String
  /-- The handler attached last, alive or not. -/
  attached : Option HandlerId
  /-- The handlers that are alive, with their states. -/
  alive : List (HandlerId × σ)

/-- What happens in the life of a channel. -/
inductive ChannelEvent (σ : Type)
  /-- A handler comes alive. -/
  | create (handler : HandlerId) (state : σ)
  /-- A handler is dropped. -/
  | drop (handler : HandlerId)
  /-- Somebody gives a command to the channel. -/
  | command (command : ChannelCommand)
  /-- A message comes in. -/
  | message (message : Bytes)

namespace Channel

variable {σ : Type}

/-- A channel without handlers. -/
def start (name : String) : Channel σ := ⟨name, none, []⟩

/-- The live handler that is attached. -/
def handler? (c : Channel σ) : Option (HandlerId × σ) := do
  let id ← c.attached
  let state ← c.alive.lookup id
  return (id, state)

/-- Sends the call of a method, or logs why it cannot be written. -/
def invoke (c : Channel σ) (method : String) (args : Except ValueError Value) : ChannelEffect :=
  match args with
  | .ok args => .sent c.name (MethodCall.encode ⟨method, args⟩)
  | .error e => .logged (encodingFailureText method e)

/-- Obeys one command. -/
def obey (c : Channel σ) : ChannelCommand → Channel σ × List ChannelEffect
  | .attach handler => ({ c with attached := handler }, [])
  | .invoke method args => (c, [c.invoke method args])

/-- Obeys commands in their order. -/
def obeyAll (c : Channel σ) : List ChannelCommand → Channel σ × List ChannelEffect
  | [] => (c, [])
  | command :: rest =>
    let (c, effects) := c.obey command
    let (c, more) := c.obeyAll rest
    (c, effects ++ more)

/-- Gives a live handler a new state. -/
def update (c : Channel σ) (id : HandlerId) (state : σ) : Channel σ :=
  { c with alive := c.alive.map fun h => if h.1 = id then (id, state) else h }

/-- Deals with an incoming message. Handlers conduct themselves as `behave`
    says. -/
def receive (behave : σ → MethodCall → Conduct σ) (c : Channel σ) (message : Bytes) :
    Channel σ × List ChannelEffect × Bytes :=
  let handler := c.handler?.map fun (id, state) => fun call =>
    let conduct := behave state call
    ((id, call, conduct), conduct.outcome)
  let receipt := HostBridge.receive handler message
  -- what the handler does comes before the record that it failed
  let (c, effects) :=
    match receipt.handled with
    | none => (c, [])
    | some (id, call, conduct) =>
      let (c, effects) := (c.update id conduct.state).obeyAll conduct.commands
      (c, ChannelEffect.called id call :: effects)
  let logs := receipt.failure.toList.map fun e => ChannelEffect.logged (failureText c.name e)
  (c, effects ++ logs, receipt.reply)

/-- The channel after an event, what it did, and its reply to a message. -/
def step (behave : σ → MethodCall → Conduct σ) (c : Channel σ) :
    ChannelEvent σ → Channel σ × List ChannelEffect × Option Bytes
  | .create id state => ({ c with alive := (id, state) :: c.alive.filter (·.1 ≠ id) }, [], none)
  | .drop id => ({ c with alive := c.alive.filter (·.1 ≠ id) }, [], none)
  | .command command =>
    let (c, effects) := c.obey command
    (c, effects, none)
  | .message message =>
    let (c, effects, reply) := c.receive behave message
    (c, effects, some reply)

end Channel

end HostBridge
