import HostBridge.Proofs.Deferral.Handling

/-!
# How long a deferral stays open

A deferral counts its time from the announcement of its animation, the latest
one that is watched. Every event asks the watchdog before it does anything else,
so that after an event a deferral has been open for less than the time of the
watchdog. There is one exception: a watchdog of no time at all, which the next
event finds to have run out already.

* `Coordinator.overdue?_eq_some_iff`: what it is for a deferral to be overdue;
* `Coordinator.Step.since`: only the announcement of a watched animation sets the
  time from which a deferral counts;
* `ViewRun.latestAnnouncement`: over a run that time is the one of the latest
  announcement;
* `ViewRun.watchdog_bounds_deferral`: what the watchdog does in a whole run.
-/

namespace HostBridge

namespace DeferralEffect

/-- The time that a warning says has run out. -/
def warned? : DeferralEffect → Option Nat
  | .overdue watchdog => some watchdog
  | _ => none

/-- The warnings in a row of effects, in order. -/
def warned (effects : List DeferralEffect) : List Nat := effects.filterMap warned?

/-- A flush warns of nothing. -/
theorem warned_overdue_flush (watchdog : Nat) (saved : Option WindowInsets) :
    warned (.overdue watchdog :: (saved.map .dispatch).toList) = [watchdog] := by
  cases saved <;> rfl

end DeferralEffect

namespace Coordinator

variable {view : WindowInsets → WindowInsets} {c next : Coordinator} {now time : Instant}
  {event : InsetEvent} {effects : List DeferralEffect} {answer : DeferralAnswer}

/-- A deferral is overdue if it has been open for the time of the watchdog. -/
theorem overdue?_eq_some_iff {watchdog : Nat} : c.overdue? now = some watchdog ↔
    c.config.watchdog = some watchdog ∧
      ∃ since, c.phase.since? = some since ∧ watchdog ≤ (now - since).toNat := by
  simp only [overdue?, Option.bind_eq_bind, Option.bind_eq_some_iff, Option.ite_none_right_eq_some]
  constructor
  · rintro ⟨since, hsince, limit, hlimit, hle, hwatchdog⟩
    obtain rfl := Option.some.inj hwatchdog
    exact ⟨hlimit, since, hsince, hle⟩
  · rintro ⟨hlimit, since, hsince, hle⟩
    exact ⟨since, hsince, watchdog, hlimit, hle, rfl⟩

/-- Without a watchdog nothing is overdue. -/
theorem overdue?_of_unlimited (h : c.config.watchdog = none) (now : Instant) :
    c.overdue? now = none := by
  refine Option.eq_none_iff_forall_ne_some.2 fun watchdog hover => ?_
  exact absurd (h.symm.trans (overdue?_eq_some_iff.1 hover).1) (by simp)

/-- After a move a deferral counts from now, if a watched animation was announced,
    and otherwise from when it did before. -/
theorem Move.since (h : Move view c now event next effects answer)
    (htime : next.phase.since? = some time) :
    (∃ types, event = .prepare types ∧ c.isWatched types = true ∧ time = now) ∨
      (∀ types, event = .prepare types → c.isWatched types = false) ∧
        c.phase.since? = some time := by
  cases h with
  | announce hwatched => exact .inl ⟨_, rfl, hwatched, (Option.some.inj htime).symm⟩
  | ignore hignored => exact .inr ⟨fun _ h => InsetEvent.prepare.inj h ▸ hignored, htime⟩
  | capture hphase => exact .inr ⟨by simp, by rw [hphase]; exact htime⟩
  | close _ _ => exact absurd htime (by simp [closed, DeferralPhase.since?])
  | _ => exact .inr ⟨by simp, htime⟩

/-- After a step a deferral counts from now, if a watched animation was announced.
    Otherwise it counts from when it did before, and is not overdue. -/
theorem Step.since (h : Step view c now event next effects answer)
    (htime : next.phase.since? = some time) :
    (∃ types, event = .prepare types ∧ c.isWatched types = true ∧ time = now) ∨
      (∀ types, event = .prepare types → c.isWatched types = false) ∧
        c.phase.since? = some time ∧ c.overdue? now = none := by
  cases h with
  | quiet hquiet hmove =>
    rcases hmove.since htime with hannounced | ⟨hnot, hbefore⟩
    · exact .inl hannounced
    · exact .inr ⟨hnot, hbefore, hquiet⟩
  | overdue _ _ hmove =>
    -- the watchdog has closed the deferral: what is open now was announced now
    rcases hmove.since htime with hannounced | ⟨_, hclosed⟩
    · exact .inl hannounced
    · exact absurd hclosed (by simp [closed, DeferralPhase.since?])

/-- After a step a deferral has been open for less than the time of the watchdog,
    unless there is no time at all and an animation was announced. -/
theorem Step.elapsed_lt {watchdog : Nat} (h : Step view c now event next effects answer)
    (hwatchdog : c.config.watchdog = some watchdog) (htime : next.phase.since? = some time)
    (hzero : watchdog = 0 → ∀ types, event ≠ .prepare types) : (now - time).toNat < watchdog := by
  rcases h.since htime with ⟨types, hprepare, _, rfl⟩ | ⟨_, hbefore, hquiet⟩
  · have hpos : watchdog ≠ 0 := fun h => hzero h types hprepare
    rw [Int.sub_self, Int.toNat_zero]
    exact Nat.pos_of_ne_zero hpos
  · refine Nat.lt_of_not_le fun hle => ?_
    have hover := overdue?_eq_some_iff.2 ⟨hwatchdog, time, hbefore, hle⟩
    exact absurd (hquiet.symm.trans hover) (by simp)

/-- A deferral that is not overdue is closed by the end of a watched animation
    only. -/
theorem Step.finish_of_closes (h : Step view c now event next effects answer)
    (hquiet : c.overdue? now = none) (hcloses : c.Closes now next) :
    ∃ types, event = .finish types ∧ c.isWatched types = true := by
  obtain ⟨hopen, hidle⟩ := hcloses
  replace hidle := hidle.resolve_left (by rwa [expire_of_quiet hquiet])
  cases h with
  | quiet _ hmove =>
    cases hmove with
    | close _ hwatched => exact ⟨_, rfl, hwatched⟩
    | capture _ => exact absurd hidle (by simp)
    | announce _ => exact absurd hidle (by simp)
    | _ => exact absurd hidle hopen
  | overdue hover _ _ => exact absurd (hquiet.symm.trans hover) (by simp)

end Coordinator

namespace ViewRun

open Coordinator DeferralEffect

variable {σ : Type} (r : ViewRun σ)

/-- The latest announcement of a watched animation before position `i` came at
    `since`. -/
def LatestAnnouncement (i : Nat) (since : Instant) : Prop :=
  ∃ p types, p < i ∧ r.events[p]? = some (since, .prepare types) ∧
    types.intersects r.config.deferred = true ∧ ∀ q, p < q → q < i → ¬r.AnnouncedAt q

variable {r} {i : Nat} {now time : Instant} {event : InsetEvent} {effects : List DeferralEffect}
  {answer : DeferralAnswer}

/-- A deferral counts its time from the latest announcement. -/
theorem latestAnnouncement (hi : i ≤ r.events.length)
    (htime : (r.state i).coordinator.phase.since? = some time) : r.LatestAnnouncement i time := by
  induction i with
  | zero => exact absurd htime (by simp [state, start, Coordinator.start, DeferralPhase.since?])
  | succ i ih =>
    obtain ⟨now, event, effects, answer, h⟩ := exists_has_of_lt hi
    obtain ⟨_, hstep⟩ := h.step
    rcases hstep.since htime with ⟨types, rfl, hwatched, rfl⟩ | ⟨hnot, hbefore, _⟩
    · -- announced just now
      rw [isWatched, config_state] at hwatched
      exact ⟨i, types, Nat.lt_succ_self i, h.event, hwatched, fun q hiq hq => by omega⟩
    · -- announced before, and there is no announcement at `i`
      obtain ⟨p, types, hp, hevent, hwatched, hlatest⟩ := ih (Nat.le_of_lt hi) hbefore
      refine ⟨p, types, Nat.lt_succ_of_lt hp, hevent, hwatched, fun q hpq hq => ?_⟩
      rcases Nat.lt_succ_iff_lt_or_eq.1 hq with hq | rfl
      · exact hlatest q hpq hq
      · rintro ⟨now', types', he', hwatched'⟩
        have hother := hnot types' (congrArg Prod.snd (Option.some.inj (h.event.symm.trans he')))
        rw [isWatched, config_state, hwatched'] at hother
        exact absurd hother (by simp)

theorem overdue?_state_iff {watchdog : Nat} :
    (r.state i).coordinator.overdue? now = some watchdog ↔
      r.config.watchdog = some watchdog ∧ ∃ since,
        (r.state i).coordinator.phase.since? = some since ∧ watchdog ≤ (now - since).toNat := by
  rw [overdue?_eq_some_iff, config_state]

/-- An overdue deferral is closed, and what was kept back is dispatched, before the
    event does anything of its own. -/
theorem Has.of_overdue {watchdog : Nat} (h : r.Has i now event effects answer)
    (hover : (r.state i).coordinator.overdue? now = some watchdog) :
    let flush := .overdue watchdog :: ((r.state i).coordinator.saved.map .dispatch).toList
    let flushed : Attended σ :=
      ⟨(r.state i).coordinator.closed, r.view.feelAll (r.state i).view flush⟩
    effects = flush ++ (r.view.act flushed (now, event)).2.1 ∧
      r.state (i + 1) = (r.view.act flushed (now, event)).1 ∧
      (event ≠ .poll → answer = (r.view.act flushed (now, event)).2.2) := by
  intro flush flushed
  have hexpire := expire_of_overdue hover
  have hcheck : r.view.check (r.state i) now = flushed := by rw [InsetView.check, hexpire]
  have hstate := InsetView.step_fst (v := r.view) (r.state i) (now, event)
  have heffects := InsetView.step_effects (v := r.view) (r.state i) (now, event)
  rw [hcheck, h.step_eq] at hstate heffects
  rw [hexpire] at heffects
  refine ⟨heffects, hstate, fun hpoll => ?_⟩
  have hanswer := InsetView.step_answer (v := r.view) (r.state i) (e := (now, event)) hpoll
  rwa [hcheck, h.step_eq] at hanswer

/-- A poll closes an overdue deferral, warns once, and says so. -/
theorem Has.poll_of_overdue {watchdog : Nat} (h : r.Has i now .poll effects answer)
    (hover : (r.state i).coordinator.overdue? now = some watchdog) :
    answer = .expired true ∧ (r.state (i + 1)).coordinator.phase = .idle ∧
      warned effects = [watchdog] := by
  obtain ⟨heffects, hstate, _⟩ := h.of_overdue hover
  have hanswer : (r.view.step (r.state i) (now, .poll)).2.2 = .expired true := by
    simp only [InsetView.step, Coordinator.step, hover, Option.isSome_some]
  rw [h.step_eq] at hanswer
  refine ⟨hanswer, by rw [hstate]; rfl, ?_⟩
  rw [heffects]
  exact (congrArg warned (List.append_nil _)).trans (warned_overdue_flush watchdog _)

/-- A poll that finds nothing overdue does nothing. -/
theorem Has.poll_of_quiet (h : r.Has i now .poll effects answer)
    (hquiet : (r.state i).coordinator.overdue? now = none) :
    answer = .expired false ∧ effects = [] ∧ r.state (i + 1) = r.state i := by
  have hstep : r.view.step (r.state i) (now, .poll) = (r.state i, [], .expired false) := by
    simp only [InsetView.step, Coordinator.step, expire_of_quiet hquiet, hquiet]
    rfl
  obtain ⟨hstate, heffects, hanswer⟩ :
      r.state (i + 1) = r.state i ∧ effects = [] ∧ answer = .expired false := by
    simpa only [Prod.mk.injEq] using h.step_eq.symm.trans hstep
  exact ⟨hanswer, heffects, hstate⟩

/-- What the watchdog does in a run, whatever the times of the events.

    * An open deferral counts its time from the latest announcement of a watched
      animation.
    * After an event an open deferral has been open for less than the time of the
      watchdog, except for an announcement if that is no time at all.
    * A poll says that a deferral was closed if and only if one was overdue; then
      nothing is deferred any more, and there is one warning. Otherwise a poll does
      nothing.
    * Any other event that finds a deferral overdue acts on its own only after this
      one is closed, and after what was kept back is dispatched.
    * Without a watchdog a deferral is closed by the end of a watched animation
      only. -/
theorem watchdog_bounds_deferral {σ : Type} (r : ViewRun σ) :
    (∀ i since, i ≤ r.events.length → (r.state i).coordinator.phase.since? = some since →
      r.LatestAnnouncement i since) ∧
    (∀ i now event watchdog since, r.events[i]? = some (now, event) →
      r.config.watchdog = some watchdog → (watchdog = 0 → ∀ types, event ≠ .prepare types) →
      (r.state (i + 1)).coordinator.phase.since? = some since →
      (now - since).toNat < watchdog) ∧
    (∀ i now effects answer, r.Has i now .poll effects answer →
      (answer = .expired true ↔ ∃ watchdog since, r.config.watchdog = some watchdog ∧
        (r.state i).coordinator.phase.since? = some since ∧ watchdog ≤ (now - since).toNat) ∧
      (answer = .expired true → (r.state (i + 1)).coordinator.phase = .idle ∧
        ∃ watchdog, r.config.watchdog = some watchdog ∧ warned effects = [watchdog]) ∧
      (answer ≠ .expired true →
        answer = .expired false ∧ effects = [] ∧ r.state (i + 1) = r.state i)) ∧
    (∀ i now event effects answer watchdog since, r.Has i now event effects answer →
      event ≠ .poll → r.config.watchdog = some watchdog →
      (r.state i).coordinator.phase.since? = some since → watchdog ≤ (now - since).toNat →
      let flush := .overdue watchdog :: ((r.state i).coordinator.saved.map .dispatch).toList
      let flushed : Attended σ :=
        ⟨(r.state i).coordinator.closed, r.view.feelAll (r.state i).view flush⟩
      effects = flush ++ (r.view.act flushed (now, event)).2.1 ∧
        r.state (i + 1) = (r.view.act flushed (now, event)).1 ∧
        answer = (r.view.act flushed (now, event)).2.2) ∧
    (r.config.watchdog = none → ∀ i, r.ClosedAt i →
      ∃ now types, r.events[i]? = some (now, .finish types) ∧
        types.intersects r.config.deferred = true) := by
  refine ⟨fun i since => latestAnnouncement, ?_, ?_, ?_, ?_⟩
  · intro i now event watchdog since he hwatchdog hzero hsince
    obtain ⟨_, _, h⟩ := exists_has he
    obtain ⟨_, hstep⟩ := h.step
    exact hstep.elapsed_lt (by rw [config_state, hwatchdog]) hsince hzero
  · intro i now effects answer h
    rcases hcheck : (r.state i).coordinator.overdue? now with _ | watchdog
    · obtain ⟨hanswer, heffects, hsame⟩ := h.poll_of_quiet hcheck
      refine ⟨iff_of_false (by simp [hanswer]) ?_, fun h => absurd h (by simp [hanswer]),
        fun _ => ⟨hanswer, heffects, hsame⟩⟩
      rintro ⟨watchdog, since, hwatchdog, hsince, hle⟩
      have hover := overdue?_state_iff.2 ⟨hwatchdog, since, hsince, hle⟩
      exact absurd (hcheck.symm.trans hover) (by simp)
    · obtain ⟨hanswer, hidle, hwarned⟩ := h.poll_of_overdue hcheck
      obtain ⟨hwatchdog, since, hsince, hle⟩ := overdue?_state_iff.1 hcheck
      exact ⟨iff_of_true hanswer ⟨watchdog, since, hwatchdog, hsince, hle⟩,
        fun _ => ⟨hidle, watchdog, hwatchdog, hwarned⟩, fun hnot => absurd hanswer hnot⟩
  · intro i now event effects answer watchdog since h hpoll hwatchdog hsince hle
    obtain ⟨heffects, hstate, hanswer⟩ :=
      h.of_overdue (overdue?_state_iff.2 ⟨hwatchdog, since, hsince, hle⟩)
    exact ⟨heffects, hstate, hanswer hpoll⟩
  · intro hnone i hclosed
    obtain ⟨now, event, he, hcloses⟩ := hclosed
    obtain ⟨_, _, h⟩ := exists_has he
    obtain ⟨_, hstep⟩ := h.step
    obtain ⟨types, rfl, hwatched⟩ :=
      hstep.finish_of_closes (overdue?_of_unlimited (by rw [config_state, hnone]) now) hcloses
    rw [isWatched, config_state] at hwatched
    exact ⟨now, types, he, hwatched⟩

/-- At the very end of its time a deferral is overdue: the frame comes too late, and
    the view sees the final insets before it could see interim ones. -/
example (v : InsetView Unit) (final frame : WindowInsets) :
    (ViewRun.mk v () { watchdog := some 500 } [(0, .prepare .keyboard), (1, .deliver final),
      (499, .poll), (500, .progress frame [.keyboard])]).calls = [.dispatch final] := by
  cbv

end ViewRun

end HostBridge
