import HostBridge.Window.Insets

/-!
# Keeping a view in step with the keyboard

When the keyboard starts to move, the insets of its final place are delivered
at once. A view that applied them would jump ahead of the keyboard. The
coordinator keeps this first delivery back, gives the view interim insets for
every frame of the animation, and dispatches the final insets when the
animation has ended.

It is *idle*, *capturing* (an animation was announced, and the next delivery is
its final state) or *deferring* (the final state is saved). Animations that
touch none of the deferred kinds are not watched. A deferral that stays open
for the time of the watchdog is closed before anything else happens.

* `Coordinator.expire` is the check of the watchdog that comes before every
  event; `Coordinator.respond` is what an event does after it.
* `Coordinator.step` puts the two together.

What the view itself makes of insets is a parameter.
-/

namespace HostBridge

/-- A point in time. The unit is arbitrary: a coordinator only compares the time that
    has passed with the time of its watchdog. -/
abbrev Instant := Int

/-- What a coordinator is set up with. -/
structure DeferralConfig where
  /-- The kinds of insets whose animations are watched. -/
  deferred : InsetTypes := .keyboard
  /-- How long a deferral may stay open, if that is limited, in the unit of `Instant`.
      The default and the text of a warning (`durationText`) take this unit to be a
      millisecond. -/
  watchdog : Option Nat := some 2000
deriving DecidableEq

/-- How far a deferral has come. -/
inductive DeferralPhase
  | idle
  /-- An animation was announced at `since`. -/
  | capturing (since : Instant)
  /-- The final insets of the animation announced at `since` are saved. -/
  | deferring (since : Instant)
deriving DecidableEq

namespace DeferralPhase

/-- When the animation was announced. -/
def since? : DeferralPhase → Option Instant
  | .idle => none
  | .capturing since => some since
  | .deferring since => some since

end DeferralPhase

/-- What happens to a view. -/
inductive InsetEvent
  /-- Insets are delivered. -/
  | deliver (insets : WindowInsets)
  /-- An animation is announced. -/
  | prepare (types : InsetTypes)
  /-- A frame of the animations that are running. -/
  | progress (insets : WindowInsets) (running : List InsetTypes)
  /-- An animation has ended. -/
  | finish (types : InsetTypes)
  /-- Nothing; only the watchdog is asked. -/
  | poll

/-- What a coordinator does to its surroundings. -/
inductive DeferralEffect
  /-- The view handles insets itself. -/
  | apply (insets : WindowInsets)
  /-- The view and its children get insets as if they were delivered now. -/
  | dispatch (insets : WindowInsets)
  /-- A warning that the animation did not end in time. -/
  | overdue (watchdog : Nat)
  /-- The events of the view come to the coordinator from now on, or no more. -/
  | listen (on : Bool)
deriving DecidableEq

/-- What a coordinator answers to an event. -/
inductive DeferralAnswer
  | nothing
  /-- The insets to pass on. -/
  | insets (insets : WindowInsets)
  /-- Whether the watchdog closed a deferral. -/
  | expired (closed : Bool)
deriving DecidableEq

/-- The coordinator of one view. -/
structure Coordinator where
  /-- What it is set up with. -/
  config : DeferralConfig
  /-- How far it has come. -/
  phase : DeferralPhase
  /-- The insets that are kept back. -/
  saved : Option WindowInsets
deriving DecidableEq

namespace Coordinator

/-- A coordinator before anything has happened. -/
def start (config : DeferralConfig) : Coordinator := ⟨config, .idle, none⟩

/-- Routes the events of the view to the coordinator, or stops it. -/
def listen (on : Bool) : List DeferralEffect := [.listen on]

/-- The animation touches a deferred kind. -/
def isWatched (c : Coordinator) (types : InsetTypes) : Bool :=
  types.intersects c.config.deferred

/-- Closes the deferral and dispatches what was kept back. -/
def flush (c : Coordinator) : Coordinator × List DeferralEffect :=
  ({ c with phase := .idle, saved := none }, (c.saved.map .dispatch).toList)

/-- The time that has run out at `now`, if the deferral is open for too long.
    Time that seems to run backwards counts as no time. -/
def overdue? (c : Coordinator) (now : Instant) : Option Nat := do
  let since ← c.phase.since?
  let watchdog ← c.config.watchdog
  if watchdog ≤ (now - since).toNat then some watchdog else none

/-- Closes a deferral that is open for too long. -/
def expire (c : Coordinator) (now : Instant) : Coordinator × List DeferralEffect :=
  match c.overdue? now with
  | some watchdog => (c.flush.1, .overdue watchdog :: c.flush.2)
  | none => (c, [])

/-- What the view shows during an animation: the saved insets, but for the
    deferred kinds only the bottom that the animation has reached. -/
def interim (c : Coordinator) (saved current : WindowInsets) : WindowInsets :=
  saved.edit [.insets c.config.deferred ⟨0, 0, 0, (current.insetsOf c.config.deferred).bottom⟩]

/-- What an event does once the watchdog has been asked. `view` is what the view
    returns when it handles insets itself. -/
def respond (view : WindowInsets → WindowInsets) (c : Coordinator) (now : Instant) :
    InsetEvent → Coordinator × List DeferralEffect × DeferralAnswer
  | .deliver insets =>
    match c.phase with
    | .idle => (c, [.apply insets], .insets (view insets))
    | .capturing since =>
      ({ c with phase := .deferring since, saved := some insets }, [], .insets .handled)
    | .deferring _ => (c, [], .insets .handled)
  | .prepare types =>
    (if c.isWatched types then { c with phase := .capturing now } else c, [], .nothing)
  | .progress insets running =>
    -- the view is asked directly: coming through the coordinator, interim insets would be
    -- taken for the final ones
    match c.phase, c.saved with
    | .deferring _, some saved =>
      (c, if running.any c.isWatched then [.apply (c.interim saved insets)] else [], .insets insets)
    | _, _ => (c, [], .insets insets)
  | .finish types =>
    if c.phase ≠ .idle ∧ c.isWatched types then (c.flush.1, c.flush.2, .nothing)
    else (c, [], .nothing)
  | .poll => (c, [], .expired false)

/-- What an event at `now` does. -/
def step (view : WindowInsets → WindowInsets) (c : Coordinator) (now : Instant)
    (event : InsetEvent) : Coordinator × List DeferralEffect × DeferralAnswer :=
  let (expired, effects) := c.expire now
  let (next, more, answer) := expired.respond view now event
  -- a poll is told about the check itself
  let answer :=
    match event with
    | .poll => .expired (c.overdue? now).isSome
    | _ => answer
  (next, effects ++ more, answer)

end Coordinator

/-- A duration in words, with the largest unit of seconds and milliseconds that
    it reaches. -/
def durationText (milliseconds : Nat) : String :=
  if milliseconds = 0 then "0ns"
  else if milliseconds < 1000 then Nat.repr milliseconds ++ "ms"
  else
    let rest := milliseconds % 1000
    let digits := [rest / 100, rest / 10 % 10, rest % 10]
    let kept := (digits.reverse.dropWhile (· == 0)).reverse
    let fraction := if kept.isEmpty then "" else "." ++ String.join (kept.map Nat.repr)
    Nat.repr (milliseconds / 1000) ++ fraction ++ "s"

namespace DeferralEffect

/-- The warning that an animation did not end in time. -/
def overdueText (watchdog : Nat) : String :=
  "inset animation did not end within " ++ durationText watchdog ++
    ", releasing deferred insets"

end DeferralEffect

end HostBridge
