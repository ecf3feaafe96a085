import HostBridge.Trace
import HostBridge.Window.Deferral

/-!
# A view with a state of its own

What a view makes of insets may depend on all that has been done to it before.
An `InsetView` has a state that every call may change, and answers from that
state.

* `InsetView.step` is an event at a coordinator and its view. The watchdog comes
  first: what it dispatches has changed the view before the event asks it.
* `ViewRun` is a whole run, with `ViewRun.calls`, all that the view is called
  with.
-/

namespace HostBridge

namespace DeferralEffect

/-- The effect is a call of the view. -/
def isCall : DeferralEffect → Bool
  | .overdue _ => false
  | _ => true

/-- The calls of the view in a row of effects, in order. -/
def calls (effects : List DeferralEffect) : List DeferralEffect := effects.filter isCall

end DeferralEffect

/-- A view with a state of type `σ`. -/
structure InsetView (σ : Type) where
  /-- What the view returns when it handles insets itself, and its state
      afterwards. -/
  handle : σ → WindowInsets → WindowInsets × σ
  /-- The state of the view after insets were dispatched to it and its
      children. -/
  dispatch : σ → WindowInsets → σ
  /-- The state of the view after its events were routed to the coordinator, or
      no more. -/
  listen : σ → Bool → σ

/-- A coordinator and the state of its view. -/
structure Attended (σ : Type) where
  coordinator : Coordinator
  view : σ

namespace InsetView

variable {σ : Type} (v : InsetView σ)

/-- The state of the view after one effect of the coordinator. -/
def feel (s : σ) : DeferralEffect → σ
  | .apply insets => (v.handle s insets).2
  | .dispatch insets => v.dispatch s insets
  | .listen on => v.listen s on
  | .overdue _ => s

/-- The state of the view after a row of effects. -/
def feelAll (s : σ) (effects : List DeferralEffect) : σ := effects.foldl v.feel s

/-- What an event does to a coordinator and its view: both afterwards, the
    effects, and the answer. -/
def step (x : Attended σ) (e : Instant × InsetEvent) :
    Attended σ × List DeferralEffect × DeferralAnswer :=
  let asked := v.feelAll x.view (x.coordinator.expire e.1).2
  let (coordinator, effects, answer) :=
    x.coordinator.step (fun insets => (v.handle asked insets).1) e.1 e.2
  (⟨coordinator, v.feelAll x.view effects⟩, effects, answer)

/-- The coordinator and the view once the watchdog has been asked. -/
def check (x : Attended σ) (now : Instant) : Attended σ :=
  ⟨(x.coordinator.expire now).1, v.feelAll x.view (x.coordinator.expire now).2⟩

/-- What an event does of its own, once the watchdog has been asked. -/
def act (x : Attended σ) (e : Instant × InsetEvent) :
    Attended σ × List DeferralEffect × DeferralAnswer :=
  let (coordinator, effects, answer) :=
    x.coordinator.respond (fun insets => (v.handle x.view insets).1) e.1 e.2
  (⟨coordinator, v.feelAll x.view effects⟩, effects, answer)

variable {v}

@[simp] theorem feelAll_append (s : σ) (effects more : List DeferralEffect) :
    v.feelAll s (effects ++ more) = v.feelAll (v.feelAll s effects) more :=
  List.foldl_append

/-- A step is the check of the watchdog and then what the event does. -/
theorem step_fst (x : Attended σ) (e : Instant × InsetEvent) :
    (v.step x e).1 = (v.act (v.check x e.1) e).1 := by
  simp only [step, Coordinator.step, act, check, feelAll_append]

theorem step_effects (x : Attended σ) (e : Instant × InsetEvent) :
    (v.step x e).2.1 = (x.coordinator.expire e.1).2 ++ (v.act (v.check x e.1) e).2.1 :=
  rfl

/-- A poll is told about the check, and everything else is answered by the
    event. -/
theorem step_answer (x : Attended σ) {e : Instant × InsetEvent} (h : e.2 ≠ .poll) :
    (v.step x e).2.2 = (v.act (v.check x e.1) e).2.2 := by
  obtain ⟨now, event⟩ := e
  cases event with
  | poll => exact absurd rfl h
  | _ => rfl

end InsetView

/-- A run of a coordinator and a view with a state: the events come one after
    the other, each with the time at which it comes. -/
structure ViewRun (σ : Type) where
  /-- The view. -/
  view : InsetView σ
  /-- The state of the view at the start. -/
  first : σ
  /-- What the coordinator is set up with. -/
  config : DeferralConfig
  /-- The events. Their times are arbitrary and may go back. -/
  events : List (Instant × InsetEvent)

namespace ViewRun

variable {σ : Type} (r : ViewRun σ)

/-- The coordinator and the view at the start. -/
def start : Attended σ := ⟨.start r.config, r.first⟩

/-- What comes of the events, one by one. -/
def outcomes : List (Attended σ × List DeferralEffect × DeferralAnswer) :=
  Trace.run r.view.step r.start r.events

/-- The coordinator and the view before the event at position `i`, or after all
    events. -/
def state (i : Nat) : Attended σ := Trace.final r.view.step r.start (r.events.take i)

/-- All calls of the view, in order. -/
def calls : List DeferralEffect := DeferralEffect.calls (r.outcomes.flatMap (·.2.1))

end ViewRun

end HostBridge
