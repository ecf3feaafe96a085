import HostBridge.Proofs.Deferral.Handling
import HostBridge.Proofs.Window.Edits

/-!
# The frames of an animation

While a snapshot is kept back, the view is shown interim insets for every frame of a
watched animation: the saved ones, but the deferred kinds take space at the bottom
only, as much as the frame says (`Coordinator.insetsOf_interim`). The snapshot itself
is left alone, and so is everything else but for the watchdog
(`Coordinator.step_progress`).

`InsetView.dispatched_frames` puts frames together: any number of them leaves the
coordinator as it was and dispatches nothing, or the watchdog has closed the deferral
and dispatched what was saved. So what is dispatched in the end is what was saved
(`InsetView.dispatched_after_frames`).
-/

namespace HostBridge

open DeferralEffect

namespace InsetEvent

/-- The event is a frame of an animation. -/
inductive IsFrame : InsetEvent → Prop
  | progress (insets : WindowInsets) (running : List InsetTypes) :
      IsFrame (.progress insets running)

end InsetEvent

namespace Coordinator

variable {view : WindowInsets → WindowInsets} {c next : Coordinator} {now : Instant}
  {current saved : WindowInsets} {running : List InsetTypes} {effects : List DeferralEffect}
  {answer : DeferralAnswer}

/-! ## Interim insets -/

/-- Interim insets are to be passed on, even if the saved ones were not. -/
theorem consumed_interim (c : Coordinator) (saved current : WindowInsets) :
    (c.interim saved current).consumed = false :=
  WindowInsets.consumed_edit saved _

/-- What is visible is the same as in the saved insets. -/
theorem isVisible_interim (c : Coordinator) (saved current : WindowInsets) (types : InsetTypes) :
    (c.interim saved current).isVisible types = saved.isVisible types :=
  rfl

/-- Kinds that are not deferred take the space that was saved. -/
theorem insetsOf_interim_of_disjoint (saved current : WindowInsets) {types : InsetTypes}
    (h : c.config.deferred.intersects types = false) :
    (c.interim saved current).insetsOf types = saved.insetsOf types :=
  WindowInsets.insetsOf_edit_of_disjoint saved [] _ h

/-- Space at the bottom is no negative space. -/
theorem union_bottom {b : Int32} (h : 0 ≤ b.toInt) :
    Insets.none.union ⟨0, 0, 0, b⟩ = ⟨0, 0, 0, b⟩ := by
  refine Insets.ext_space fun edge => ?_
  rw [Insets.space_union, Insets.space_none]
  cases edge with
  | bottom => exact max_eq_right h
  | _ => rfl

/-- Deferred kinds take space at the bottom only, as much as the frame says. -/
theorem insetsOf_interim (saved current : WindowInsets) {types : InsetTypes}
    (hknown : c.config.deferred.IsKnown) (hne : types ≠ .empty)
    (h : c.config.deferred.contains types = true) :
    (c.interim saved current).insetsOf types =
      ⟨0, 0, 0, (current.insetsOf c.config.deferred).bottom⟩ := by
  have hbottom := (current.isGreatest_insetsOf c.config.deferred .bottom).2 (.inl rfl)
  rw [← union_bottom hbottom]
  exact WindowInsets.insetsOf_edit_of_contains saved [] _ (hknown.of_contains h) hne h

/-! ## One frame -/

/-- A frame is answered by its own insets, and nothing changes. -/
theorem Move.of_progress
    (h : Move view c now (.progress current running) next effects answer) :
    next = c ∧ dispatched effects = [] ∧ answer = .insets current := by
  cases h with
  | frame _ _ _ => exact ⟨rfl, rfl, rfl⟩
  | skip _ => exact ⟨rfl, rfl, rfl⟩

/-- But for the watchdog, a frame changes nothing and dispatches nothing. -/
theorem step_progress (view : WindowInsets → WindowInsets) (c : Coordinator) (now : Instant)
    (current : WindowInsets) (running : List InsetTypes) :
    (c.step view now (.progress current running)).1 = (c.expire now).1 ∧
      dispatched (c.step view now (.progress current running)).2.1 =
        dispatched (c.expire now).2 ∧
      (c.step view now (.progress current running)).2.2 = .insets current := by
  obtain ⟨hnext, hnone, hanswer⟩ :=
    (move_respond view (c.expire now).1 now (.progress current running)).of_progress
  refine ⟨hnext, ?_, hanswer⟩
  simp only [step, dispatched_append, hnone, List.append_nil]

/-- A watched frame shows the view interim insets. -/
theorem step_progress_of_quiet {since : Instant} (hphase : c.phase = .deferring since)
    (hsaved : c.saved = some saved) (hquiet : c.overdue? now = none)
    (hwatched : running.any c.isWatched = true) :
    c.step view now (.progress current running) =
      (c, [.apply (c.interim saved current)], .insets current) := by
  simp only [step, expire_of_quiet hquiet, respond, hphase, hsaved, hwatched, if_true,
    List.nil_append]

/-- A frame that comes too late shows the view nothing. -/
theorem step_progress_of_overdue {watchdog : Nat} (hsaved : c.saved = some saved)
    (hover : c.overdue? now = some watchdog) :
    c.step view now (.progress current running) =
      (c.closed, [.overdue watchdog, .dispatch saved], .insets current) := by
  simp only [step, expire_of_overdue hover, respond, hsaved, closed]
  rfl

end Coordinator

/-! ## Any number of frames -/

namespace InsetView

open Coordinator

variable {σ : Type} {v : InsetView σ} {x : Attended σ} {events : List (Instant × InsetEvent)}

/-- What is dispatched by a row of events. -/
def dispatchedBy (v : InsetView σ) (x : Attended σ) (events : List (Instant × InsetEvent)) :
    List WindowInsets :=
  dispatched ((Trace.run v.step x events).flatMap (·.2.1))

theorem dispatchedBy_cons (e : Instant × InsetEvent) :
    v.dispatchedBy x (e :: events) =
      dispatched (v.step x e).2.1 ++ v.dispatchedBy (v.step x e).1 events := by
  rw [dispatchedBy, Trace.run, List.flatMap_cons, dispatched_append, dispatchedBy]

theorem dispatchedBy_append (more : List (Instant × InsetEvent)) :
    v.dispatchedBy x (events ++ more) =
      v.dispatchedBy x events ++ v.dispatchedBy (Trace.final v.step x events) more := by
  rw [dispatchedBy, Trace.run_append, List.flatMap_append, dispatched_append, dispatchedBy,
    dispatchedBy]

/-- But for the watchdog, a frame leaves the coordinator alone. -/
theorem step_frame {e : Instant × InsetEvent} (h : e.2.IsFrame) :
    (v.step x e).1.coordinator = (x.coordinator.expire e.1).1 ∧
      dispatched (v.step x e).2.1 = dispatched (x.coordinator.expire e.1).2 := by
  obtain ⟨now, event⟩ := e
  obtain ⟨current, running⟩ := h
  obtain ⟨hcoordinator, hdispatched, -⟩ := Coordinator.step_progress
    (fun insets => (v.handle (v.feelAll x.view (x.coordinator.expire now).2) insets).1)
    x.coordinator now current running
  exact ⟨hcoordinator, hdispatched⟩

/-- Frames leave the coordinator as it was and dispatch nothing, unless one of them is
    overdue: then the deferral has been closed, and what was saved was dispatched. -/
theorem dispatched_frames (h : ∀ e ∈ events, e.2.IsFrame) :
    (Trace.final v.step x events).coordinator = x.coordinator ∧ v.dispatchedBy x events = [] ∨
      (∃ e ∈ events, (x.coordinator.overdue? e.1).isSome) ∧
        (Trace.final v.step x events).coordinator = x.coordinator.closed ∧
        v.dispatchedBy x events = x.coordinator.saved.toList := by
  induction events generalizing x with
  | nil => exact .inl ⟨rfl, rfl⟩
  | cons e events ih =>
    obtain ⟨hframe, hevents⟩ := List.forall_mem_cons.1 h
    obtain ⟨hcoordinator, hdispatched⟩ := step_frame (v := v) (x := x) hframe
    rw [Trace.final_cons, dispatchedBy_cons, hdispatched]
    cases hover : x.coordinator.overdue? e.1 with
    | none =>
      rw [expire_of_quiet hover] at hcoordinator ⊢
      have hsame : (v.step x e).1.coordinator = x.coordinator := hcoordinator
      rw [dispatched_nil, List.nil_append, ← hsame]
      refine (ih hevents).imp_right ?_
      rintro ⟨⟨e', he', hlate⟩, hrest⟩
      exact ⟨⟨e', List.mem_cons_of_mem _ he', hlate⟩, hrest⟩
    | some watchdog =>
      rw [expire_of_overdue hover] at hcoordinator ⊢
      rw [dispatched_overdue, dispatched_map_toList]
      refine .inr ⟨⟨e, List.mem_cons_self, by rw [hover]; rfl⟩, ?_⟩
      -- a closed deferral is not closed again
      have hrest : (Trace.final v.step (v.step x e).1 events).coordinator = x.coordinator.closed ∧
          v.dispatchedBy (v.step x e).1 events = [] := by
        rcases ih hevents with ⟨hfinal, hnone⟩ | ⟨-, hfinal, hnone⟩
        · exact ⟨hfinal.trans hcoordinator, hnone⟩
        · rw [hcoordinator] at hfinal hnone
          exact ⟨hfinal, hnone⟩
      rw [hrest.1, hrest.2, List.append_nil]
      exact ⟨rfl, rfl⟩

theorem dispatchedBy_singleton (e : Instant × InsetEvent) :
    v.dispatchedBy x [e] = dispatched (v.step x e).2.1 := by
  rw [dispatchedBy_cons]
  exact List.append_nil _

/-- An event dispatches what is saved, or nothing. -/
theorem dispatchedBy_event (x : Attended σ) (e : Instant × InsetEvent) :
    v.dispatchedBy x [e] = [] ∨ v.dispatchedBy x [e] = x.coordinator.saved.toList := by
  have hstep := step_step
    (fun insets => (v.handle (v.feelAll x.view (x.coordinator.expire e.1).2) insets).1)
    x.coordinator e.1 e.2
  rw [dispatchedBy_singleton]
  by_cases hnone : dispatched (v.step x e).2.1 = []
  · exact .inl hnone
  · exact .inr (hstep.dispatched_of_closes (hstep.closes_of_dispatched hnone))

/-- Where nothing is saved, nothing is dispatched. -/
theorem dispatchedBy_of_saved_none {x : Attended σ} (h : x.coordinator.saved = none)
    (e : Instant × InsetEvent) : v.dispatchedBy x [e] = [] := by
  have hevent := dispatchedBy_event (v := v) x e
  rw [h] at hevent
  exact hevent.elim id id

/-- What follows frames dispatches what was saved before them, or nothing. -/
theorem dispatched_after_frames (h : ∀ e ∈ events, e.2.IsFrame) (e : Instant × InsetEvent) :
    v.dispatchedBy x (events ++ [e]) = [] ∨
      v.dispatchedBy x (events ++ [e]) = x.coordinator.saved.toList := by
  rw [dispatchedBy_append]
  rcases dispatched_frames h with ⟨hfinal, hnone⟩ | ⟨-, hfinal, hsaved⟩
  · rw [hnone, List.nil_append, ← hfinal]
    exact dispatchedBy_event _ e
  · -- a closed deferral has nothing left to dispatch
    rw [hsaved, dispatchedBy_of_saved_none (by rw [hfinal]; rfl), List.append_nil]
    exact .inr rfl

/-- The end of a watched animation closes an open deferral. -/
theorem step_finish {now : Instant} {types : InsetTypes} (hopen : x.coordinator.phase ≠ .idle)
    (hwatched : x.coordinator.isWatched types = true) :
    (v.step x (now, .finish types)).1.coordinator = x.coordinator.closed ∧
      dispatched (v.step x (now, .finish types)).2.1 = x.coordinator.saved.toList := by
  cases hover : x.coordinator.overdue? now with
  | none =>
    simp only [step, Coordinator.step, expire_of_quiet hover, respond]
    rw [if_pos ⟨hopen, hwatched⟩]
    exact ⟨rfl, dispatched_map_toList _⟩
  | some watchdog =>
    simp only [step, Coordinator.step, expire_of_overdue hover, respond]
    rw [if_neg fun h => h.1 rfl]
    simp

/-- After frames, the end of a watched animation makes sure that what was saved has been
    dispatched, once. -/
theorem dispatched_frames_finish (h : ∀ e ∈ events, e.2.IsFrame) {now : Instant}
    {types : InsetTypes} (hopen : x.coordinator.phase ≠ .idle)
    (hwatched : x.coordinator.isWatched types = true) :
    v.dispatchedBy x (events ++ [(now, .finish types)]) = x.coordinator.saved.toList := by
  rw [dispatchedBy_append]
  rcases dispatched_frames (v := v) h with ⟨hfinal, hnone⟩ | ⟨-, hfinal, hsaved⟩
  · rw [← hfinal] at hopen hwatched ⊢
    rw [hnone, List.nil_append, dispatchedBy_singleton]
    exact (step_finish hopen hwatched).2
  · rw [hsaved, dispatchedBy_of_saved_none (by rw [hfinal]; rfl), List.append_nil]

/-- The frames of an animation:

    * while a snapshot is kept back, a watched frame shows the view insets to be passed
      on. Kinds that are not deferred take the space that was saved, deferred ones as
      much space at the bottom as the greatest of zero and what the frame says of a
      deferred kind, and none elsewhere, and what is visible is what was;
    * in every state a frame is answered by its own insets, and nothing else changes but
      what the watchdog changes;
    * a frame that comes too late has the snapshot dispatched and shows nothing;
    * after any number of frames the coordinator is as it was and nothing was
      dispatched, unless a frame came too late. Then the snapshot was dispatched and the
      deferral is closed;
    * what comes next dispatches the snapshot or nothing, and the end of a watched
      animation sees to it that the snapshot has been dispatched, once. -/
theorem interim_frames :
    (∀ (view : WindowInsets → WindowInsets) (c : Coordinator) now since saved current running,
      c.config.deferred.IsKnown → c.phase = .deferring since → c.saved = some saved →
      c.overdue? now = none → (∃ types ∈ running, c.isWatched types = true) →
      ∃ i b, c.step view now (.progress current running) = (c, [.apply i], .insets current) ∧
        i.consumed = false ∧
        (∀ types, c.config.deferred.intersects types = false →
          i.insetsOf types = saved.insetsOf types) ∧
        (∀ types, types ≠ .empty → c.config.deferred.contains types = true →
          i.insetsOf types = ⟨0, 0, 0, b⟩) ∧
        IsGreatest {n | n = 0 ∨ ∃ key ∈ c.config.deferred.keys, ∃ x,
          current.insets.get? key = some x ∧ x.bottom.toInt = n} b.toInt ∧
        ∀ types, i.isVisible types = saved.isVisible types) ∧
    (∀ (view : WindowInsets → WindowInsets) (c : Coordinator) now current running,
      (c.step view now (.progress current running)).1 = (c.expire now).1 ∧
        dispatched (c.step view now (.progress current running)).2.1 =
          dispatched (c.expire now).2 ∧
        (c.step view now (.progress current running)).2.2 = .insets current) ∧
    (∀ (view : WindowInsets → WindowInsets) (c : Coordinator) now watchdog saved current running,
      c.saved = some saved → c.overdue? now = some watchdog →
      c.step view now (.progress current running) =
        (c.closed, [.overdue watchdog, .dispatch saved], .insets current)) ∧
    ∀ (σ : Type) (v : InsetView σ) (x : Attended σ) events saved,
      x.coordinator.saved = some saved → (∀ e ∈ events, e.2.IsFrame) →
      ((Trace.final v.step x events).coordinator = x.coordinator ∧ v.dispatchedBy x events = [] ∨
        (∃ e ∈ events, (x.coordinator.overdue? e.1).isSome) ∧
          (Trace.final v.step x events).coordinator = x.coordinator.closed ∧
          v.dispatchedBy x events = [saved]) ∧
      (∀ e, v.dispatchedBy x (events ++ [e]) = [] ∨ v.dispatchedBy x (events ++ [e]) = [saved]) ∧
      ∀ now types, x.coordinator.phase ≠ .idle → x.coordinator.isWatched types = true →
        v.dispatchedBy x (events ++ [(now, .finish types)]) = [saved] := by
  refine ⟨?_, step_progress, ?_, ?_⟩
  · intro view c now since saved current running hknown hphase hsaved hquiet hwatched
    refine ⟨c.interim saved current, (current.insetsOf c.config.deferred).bottom, ?_,
      c.consumed_interim saved current, ?_, ?_, current.isGreatest_insetsOf _ .bottom,
      c.isVisible_interim saved current⟩
    · exact step_progress_of_quiet hphase hsaved hquiet (List.any_eq_true.2 hwatched)
    · intro types h
      exact insetsOf_interim_of_disjoint saved current h
    · intro types hne h
      exact insetsOf_interim saved current hknown hne h
  · intro view c now watchdog saved current running hsaved hover
    exact step_progress_of_overdue hsaved hover
  · intro σ v x events saved hsaved h
    have htoList : x.coordinator.saved.toList = [saved] := by rw [hsaved]; rfl
    rw [← htoList]
    exact ⟨dispatched_frames h, dispatched_after_frames h,
      fun now types hopen hwatched => dispatched_frames_finish h hopen hwatched⟩

/-- Two kinds are deferred, and one of them is animated. What was saved was not to be
    passed on. -/
theorem interim_frames_two_kinds :
    let shown := WindowInsets.empty.edit [.insets ⟨11⟩ ⟨1, 2, 3, 4⟩, .visible ⟨8⟩ true]
    let saved : WindowInsets := { shown with consumed := true }
    let current := WindowInsets.empty.edit [.insets ⟨1⟩ ⟨0, 24, 0, -5⟩, .insets ⟨8⟩ ⟨0, 0, 0, 300⟩]
    let c : Coordinator := ⟨{ deferred := ⟨9⟩ }, .deferring 0, some saved⟩
    let v : InsetView Unit := ⟨fun _ insets => (insets, ()), fun _ _ => (), fun _ _ => ()⟩
    let frame : InsetEvent := .progress current [⟨8⟩]
    (∃ i b, c.step id 100 frame = (c, [.apply i], .insets current) ∧
      i.insetsOf ⟨2⟩ = ⟨1, 2, 3, 4⟩ ∧ i.insetsOf ⟨8⟩ = ⟨0, 0, 0, b⟩) ∧
    c.step id 2000 frame = (c.closed, [.overdue 2000, .dispatch saved], .insets current) ∧
    v.dispatchedBy ⟨c, ()⟩ [(100, frame), (200, frame), (300, .finish ⟨8⟩)] = [saved] := by
  intro shown saved current c v frame
  obtain ⟨hinterim, -, hlate, hframes⟩ := interim_frames
  obtain ⟨i, b, hstep, -, hother, hpart, -, -⟩ := hinterim id c 100 0 saved current [⟨8⟩]
    (by decide) rfl rfl rfl ⟨⟨8⟩, by decide, by decide⟩
  have hall : ∀ e ∈ [((100 : Instant), frame), (200, frame)], e.2.IsFrame := by
    simp [frame, InsetEvent.IsFrame.progress]
  have hkept : i.insetsOf ⟨2⟩ = ⟨1, 2, 3, 4⟩ := (hother ⟨2⟩ (by decide)).trans (by decide)
  refine ⟨⟨i, b, hstep, hkept, hpart ⟨8⟩ (by decide) (by decide)⟩,
    hlate id c 2000 2000 saved current _ rfl rfl, ?_⟩
  exact (hframes Unit v ⟨c, ()⟩ _ saved rfl hall).2.2 300 ⟨8⟩ (by decide) (by decide)

end InsetView

end HostBridge
