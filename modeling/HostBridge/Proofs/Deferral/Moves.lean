import HostBridge.Window.Deferral

/-!
# The moves of a coordinator

Before every event the watchdog is asked, and may close the deferral; then the
event makes one `Move`. The constructors of `Move` are all there is: each one
names the phase it starts from, the coordinator it leads to, what it does to
the surroundings, and its answer.

* `move_respond`: an event makes a move, and no other than its own;
* `step_step`: a step is the check of the watchdog followed by the move, `Step`.

What is kept back is given out by dispatches only, so `dispatched` sees what
comes of a snapshot.
-/

namespace HostBridge

namespace DeferralEffect

/-- The insets that an effect dispatches. -/
def dispatched? : DeferralEffect → Option WindowInsets
  | .dispatch insets => some insets
  | _ => none

/-- What a row of effects dispatches, in order. -/
def dispatched (effects : List DeferralEffect) : List WindowInsets :=
  effects.filterMap dispatched?

@[simp] theorem dispatched_nil : dispatched [] = [] := rfl

@[simp] theorem dispatched_apply (insets : WindowInsets) (effects : List DeferralEffect) :
    dispatched (.apply insets :: effects) = dispatched effects := rfl

@[simp] theorem dispatched_overdue (watchdog : Nat) (effects : List DeferralEffect) :
    dispatched (.overdue watchdog :: effects) = dispatched effects := rfl

@[simp] theorem dispatched_append (effects more : List DeferralEffect) :
    dispatched (effects ++ more) = dispatched effects ++ dispatched more :=
  List.filterMap_append

@[simp] theorem dispatched_map_toList (saved : Option WindowInsets) :
    dispatched (saved.map .dispatch).toList = saved.toList := by
  cases saved <;> rfl

end DeferralEffect

namespace Coordinator

open DeferralEffect

/-! ## The check of the watchdog -/

/-- A coordinator whose deferral has been closed. -/
def closed (c : Coordinator) : Coordinator := { c with phase := .idle, saved := none }

/-- Only an open deferral can be overdue. -/
theorem phase_ne_idle_of_overdue {c : Coordinator} {now : Instant} {watchdog : Nat}
    (h : c.overdue? now = some watchdog) : c.phase ≠ .idle := by
  intro hidle
  rw [overdue?, hidle] at h
  exact absurd h (by simp [DeferralPhase.since?])

theorem expire_of_quiet {c : Coordinator} {now : Instant} (h : c.overdue? now = none) :
    c.expire now = (c, []) := by
  rw [expire, h]

theorem expire_of_overdue {c : Coordinator} {now : Instant} {watchdog : Nat}
    (h : c.overdue? now = some watchdog) :
    c.expire now = (c.closed, .overdue watchdog :: (c.saved.map .dispatch).toList) := by
  rw [expire, h]
  rfl

theorem expire_of_idle {c : Coordinator} (h : c.phase = .idle) (now : Instant) :
    c.expire now = (c, []) := by
  refine expire_of_quiet ?_
  rw [overdue?, h]
  rfl

/-- The check leaves the setup alone. -/
@[simp] theorem config_expire (c : Coordinator) (now : Instant) :
    (c.expire now).1.config = c.config := by
  rw [expire]
  split <;> rfl

/-! ## Moves -/

/-- What an event at `now` does once the watchdog has been asked: the coordinator
    after it, what is done to the surroundings, and the answer. -/
inductive Move (view : WindowInsets → WindowInsets) (c : Coordinator) (now : Instant) :
    InsetEvent → Coordinator → List DeferralEffect → DeferralAnswer → Prop
  /-- Nothing is deferred: the view handles the insets. -/
  | pass {insets : WindowInsets} : c.phase = .idle →
      Move view c now (.deliver insets) c [.apply insets] (.insets (view insets))
  /-- The final insets of the announced animation are saved. -/
  | capture {insets : WindowInsets} {since : Instant} : c.phase = .capturing since →
      Move view c now (.deliver insets) { c with phase := .deferring since, saved := some insets }
        [] (.insets .handled)
  /-- Insets that come while others are kept back are dropped. -/
  | drop {insets : WindowInsets} {since : Instant} : c.phase = .deferring since →
      Move view c now (.deliver insets) c [] (.insets .handled)
  /-- A watched animation is announced. -/
  | announce {types : InsetTypes} : c.isWatched types = true →
      Move view c now (.prepare types) { c with phase := .capturing now } [] .nothing
  /-- An animation is announced that is not watched. -/
  | ignore {types : InsetTypes} : c.isWatched types = false →
      Move view c now (.prepare types) c [] .nothing
  /-- The view gets the interim insets of a frame. -/
  | frame {insets saved : WindowInsets} {running : List InsetTypes} {since : Instant} :
      c.phase = .deferring since → c.saved = some saved → running.any c.isWatched = true →
      Move view c now (.progress insets running) c [.apply (c.interim saved insets)]
        (.insets insets)
  /-- A frame that is none of the view's business. -/
  | skip {insets : WindowInsets} {running : List InsetTypes} :
      ((∃ since, c.phase = .deferring since) → c.saved ≠ none → running.any c.isWatched = false) →
      Move view c now (.progress insets running) c [] (.insets insets)
  /-- The end of a watched animation closes the deferral. -/
  | close {types : InsetTypes} : c.phase ≠ .idle → c.isWatched types = true →
      Move view c now (.finish types) c.closed (c.saved.map .dispatch).toList .nothing
  /-- The end of an animation that holds nothing back. -/
  | stay {types : InsetTypes} : (c.phase ≠ .idle → c.isWatched types = false) →
      Move view c now (.finish types) c [] .nothing
  /-- A poll does nothing of its own. -/
  | poll : Move view c now .poll c [] (.expired false)

/-- An event makes a move. -/
theorem move_respond (view : WindowInsets → WindowInsets) (c : Coordinator) (now : Instant)
    (event : InsetEvent) :
    Move view c now event (c.respond view now event).1 (c.respond view now event).2.1
      (c.respond view now event).2.2 := by
  cases event with
  | deliver insets =>
    rw [respond]
    cases hphase : c.phase with
    | idle => exact .pass hphase
    | capturing since => exact .capture hphase
    | deferring since => exact .drop hphase
  | prepare types =>
    rw [respond]
    cases hwatched : c.isWatched types with
    | true => exact .announce hwatched
    | false => exact .ignore hwatched
  | progress insets running =>
    rw [respond]
    split
    · next since saved hphase hsaved =>
      cases hany : running.any c.isWatched with
      | true => exact .frame hphase hsaved hany
      | false => exact .skip fun _ _ => hany
    · next hnot =>
      refine .skip fun ⟨since, hphase⟩ hsaved => ?_
      obtain ⟨saved, hsome⟩ := Option.ne_none_iff_exists'.1 hsaved
      exact absurd hsome (hnot since saved hphase)
  | finish types =>
    rw [respond]
    split
    · next h => exact .close h.1 h.2
    · next h =>
      refine .stay fun hphase => ?_
      cases hwatched : c.isWatched types with
      | true => exact absurd ⟨hphase, hwatched⟩ h
      | false => rfl
  | poll => exact .poll

/-! ## Steps -/

/-- What a step from `c` does: the coordinator after it, what is done to the
    surroundings, and the answer. -/
inductive Step (view : WindowInsets → WindowInsets) (c : Coordinator) (now : Instant)
    (event : InsetEvent) : Coordinator → List DeferralEffect → DeferralAnswer → Prop
  /-- The watchdog finds nothing to do, and the event makes its move. -/
  | quiet {next : Coordinator} {effects : List DeferralEffect} {answer : DeferralAnswer} :
      c.overdue? now = none → Move view c now event next effects answer →
      Step view c now event next effects answer
  /-- The watchdog closes an open deferral, and the event makes its move from
      there. A poll is told so. -/
  | overdue {next : Coordinator} {effects : List DeferralEffect} {answer : DeferralAnswer}
      {watchdog : Nat} :
      c.overdue? now = some watchdog → c.phase ≠ .idle →
      Move view c.closed now event next effects answer →
      Step view c now event next
        (.overdue watchdog :: (c.saved.map .dispatch).toList ++ effects)
        (match event with | .poll => .expired true | _ => answer)

/-- A step does what `Step` says. -/
theorem step_step (view : WindowInsets → WindowInsets) (c : Coordinator) (now : Instant)
    (event : InsetEvent) :
    Step view c now event (c.step view now event).1 (c.step view now event).2.1
      (c.step view now event).2.2 := by
  cases h : c.overdue? now with
  | none =>
    have hmove := move_respond view c now event
    refine .quiet h ?_
    simp only [step, expire_of_quiet h, h]
    cases event with
    | poll => exact .poll
    | _ => exact hmove
  | some watchdog =>
    have hstep := Step.overdue h (phase_ne_idle_of_overdue h)
      (move_respond view c.closed now event)
    simp only [step, expire_of_overdue h, h]
    cases event with
    | poll => exact hstep
    | _ => exact hstep

variable {view : WindowInsets → WindowInsets} {c next : Coordinator} {now : Instant}
  {event : InsetEvent} {effects : List DeferralEffect} {answer : DeferralAnswer}

/-- A move leaves the setup alone. -/
theorem Move.config_eq (h : Move view c now event next effects answer) :
    next.config = c.config := by
  cases h <;> rfl

/-- A step leaves the setup alone. -/
theorem Step.config_eq (h : Step view c now event next effects answer) :
    next.config = c.config := by
  cases h with
  | quiet _ hmove => exact hmove.config_eq
  | overdue _ _ hmove => exact hmove.config_eq

end Coordinator

end HostBridge
