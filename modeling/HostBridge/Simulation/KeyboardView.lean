import HostBridge.Window.InsetView

/-!
# A view under a coordinator

A view whose own handling of insets either passes them on as they are or deals
with them altogether, and the coordinator of its insets.
-/

namespace HostBridge

namespace Simulation

/-- A view with its coordinator. -/
structure KeyboardView where
  /-- The coordinator of the view. -/
  coordinator : Coordinator
  /-- The view deals with all insets that it handles. -/
  consumes : Bool := false

/-- What happens to a view in a session. -/
inductive ViewStep
  /-- The coordinator is installed or removed. -/
  | listen (on : Bool)
  /-- The view deals with insets from now on, or no more. -/
  | consume (value : Bool)
  /-- Something happens at a point in time. -/
  | event (now : Instant) (event : InsetEvent)

namespace KeyboardView

/-- What the view makes of insets. It has no state that its calls could change. -/
def view (v : KeyboardView) : InsetView Unit where
  handle _ insets := (if v.consumes then .handled else insets, ())
  dispatch _ _ := ()
  listen _ _ := ()

/-- The view after a step, what was done to it, and the answer. -/
def step (v : KeyboardView) : ViewStep → KeyboardView × List DeferralEffect × DeferralAnswer
  | .listen on => (v, Coordinator.listen on, .nothing)
  | .consume value => ({ v with consumes := value }, [], .nothing)
  | .event now event =>
    let (next, effects, answer) := v.view.step ⟨v.coordinator, ()⟩ (now, event)
    ({ v with coordinator := next.coordinator }, effects, answer)

end KeyboardView

end Simulation

end HostBridge
