import HostBridge.Proofs.Deferral.Moves
import HostBridge.Window.InsetView

/-!
# Runs of a coordinator

A run of a coordinator and a view is read position by position: what is seen of
the event at a position (`ViewRun.Has`), and the step that leads from there to
the next position (`ViewRun.Has.step`). What the view makes of insets is all that
a step takes from the view.

* `ViewRun.coordinator_induction`: what holds of the coordinator at the start and
  is kept by every step holds throughout.
* `ViewRun.AnnouncedAt` and `ViewRun.ClosedAt`: where a watched animation is
  announced, and where an open deferral is closed.
-/

namespace HostBridge

namespace Coordinator

/-- A step at `now` to `next` takes the coordinator from an open deferral to the
    idle phase: by the watchdog, or by its event. -/
def Closes (c : Coordinator) (now : Instant) (next : Coordinator) : Prop :=
  c.phase ≠ .idle ∧ ((c.expire now).1.phase = .idle ∨ next.phase = .idle)

end Coordinator

/-- Whatever the view makes of insets, the coordinator makes one step. -/
theorem InsetView.exists_step {σ : Type} (v : InsetView σ) (x : Attended σ)
    (e : Instant × InsetEvent) :
    ∃ view, Coordinator.Step view x.coordinator e.1 e.2 (v.step x e).1.coordinator
      (v.step x e).2.1 (v.step x e).2.2 :=
  ⟨_, Coordinator.step_step _ x.coordinator e.1 e.2⟩

namespace ViewRun

open Coordinator

variable {σ : Type} (r : ViewRun σ)

/-- The event at position `i` comes at `now`, and has these effects and this
    answer. -/
structure Has (i : Nat) (now : Instant) (event : InsetEvent) (effects : List DeferralEffect)
    (answer : DeferralAnswer) : Prop where
  event : r.events[i]? = some (now, event)
  outcome : ∃ x, r.outcomes[i]? = some (x, effects, answer)

/-- At position `i` a watched animation is announced. -/
def AnnouncedAt (i : Nat) : Prop :=
  ∃ now types, r.events[i]? = some (now, .prepare types) ∧ types.intersects r.config.deferred = true

/-- At position `i` an open deferral is closed: by the watchdog, or by the
    event. -/
def ClosedAt (i : Nat) : Prop :=
  ∃ now event, r.events[i]? = some (now, event) ∧
    (r.state i).coordinator.Closes now (r.state (i + 1)).coordinator

variable {r} {i : Nat} {now : Instant} {event : InsetEvent} {effects : List DeferralEffect}
  {answer : DeferralAnswer}

/-! ## Positions -/

theorem state_succ {e : Instant × InsetEvent} (h : r.events[i]? = some e) :
    r.state (i + 1) = (r.view.step (r.state i) e).1 := by
  rw [state, List.take_add_one, h, Trace.final_append]
  rfl

/-- What is seen at position `i` is the step that leads to position `i + 1`. -/
theorem Has.step_eq (h : r.Has i now event effects answer) :
    r.view.step (r.state i) (now, event) = (r.state (i + 1), effects, answer) := by
  obtain ⟨he, x, hx⟩ := h
  rw [outcomes, Trace.getElem?_run, he] at hx
  have hstep : r.view.step (r.state i) (now, event) = (x, effects, answer) := Option.some.inj hx
  rw [state_succ he, hstep]

/-- There the coordinator makes one step. -/
theorem Has.step (h : r.Has i now event effects answer) :
    ∃ view, Step view (r.state i).coordinator now event (r.state (i + 1)).coordinator effects
      answer := by
  have hstep := r.view.exists_step (r.state i) (now, event)
  rwa [h.step_eq] at hstep

theorem Has.lt_length (h : r.Has i now event effects answer) : i < r.events.length :=
  (List.getElem?_eq_some_iff.1 h.event).1

theorem exists_has (h : r.events[i]? = some (now, event)) :
    ∃ effects answer, r.Has i now event effects answer :=
  ⟨_, _, h, _, by rw [outcomes, Trace.getElem?_run, h]; rfl⟩

/-- There is an event at every position before the end. -/
theorem exists_has_of_lt (h : i < r.events.length) :
    ∃ now event effects answer, r.Has i now event effects answer :=
  ⟨_, _, exists_has (List.getElem?_eq_getElem h)⟩

/-! ## Throughout a run -/

/-- What holds of the coordinator at the start and is kept by every step holds
    throughout. -/
theorem coordinator_induction {P : Coordinator → Prop} (r : ViewRun σ)
    (hstart : P (Coordinator.start r.config))
    (hstep : ∀ {view : WindowInsets → WindowInsets} {c next : Coordinator} {now : Instant}
      {event : InsetEvent} {effects : List DeferralEffect} {answer : DeferralAnswer},
      (now, event) ∈ r.events → P c → Step view c now event next effects answer → P next)
    (i : Nat) : P (r.state i).coordinator :=
  Trace.final_induction r.view.step hstart fun x e he hx =>
    have ⟨_, h⟩ := r.view.exists_step x e
    hstep (List.mem_of_mem_take he) hx h

/-- The setup stays. -/
theorem config_state (r : ViewRun σ) (i : Nat) : (r.state i).coordinator.config = r.config :=
  r.coordinator_induction (P := fun c => c.config = r.config) rfl
    (fun _ hc h => h.config_eq.trans hc) i

end ViewRun

end HostBridge
