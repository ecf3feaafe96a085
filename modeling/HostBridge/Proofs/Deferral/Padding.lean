import HostBridge.Proofs.Deferral.Moves
import HostBridge.Window.InsetView

/-!
# Polls and unwatched animations are not noticed

A host may ask the watchdog as often as it likes, and announce and end
animations that are not watched: nobody can tell from the view. Such an event
can do one thing only, close an overdue deferral; and time does not go back, so
the next event would have closed it, before doing anything of its own.

* `Coordinator.expire_expire`: to ask the watchdog twice is to ask it the second
  time only;
* `InsetView.Abreast` relates a coordinator and its view to others that have
  gone ahead by such events; `Abreast.silent` and `Abreast.step` say what an
  event does to this;
* `PaddedRun.padding_unobservable`: the same calls of the view, the same states
  and the same answers, whatever is put into a run before its last event.
-/

namespace HostBridge

namespace DeferralEffect

@[simp] theorem calls_nil : calls [] = [] := rfl

@[simp] theorem calls_append (effects more : List DeferralEffect) :
    calls (effects ++ more) = calls effects ++ calls more :=
  List.filter_append ..

end DeferralEffect

open DeferralEffect

namespace DeferralConfig

/-- An event that can do nothing but ask the watchdog: a poll, or an animation
    that is not watched. -/
inductive Silent (config : DeferralConfig) : InsetEvent → Prop
  | poll : config.Silent .poll
  | prepare {types : InsetTypes} (h : types.intersects config.deferred = false) :
      config.Silent (.prepare types)
  | finish {types : InsetTypes} (h : types.intersects config.deferred = false) :
      config.Silent (.finish types)

end DeferralConfig

namespace DeferralAnswer

/-- What is compared of an answer: everything but what a poll is told. -/
def seen? : DeferralAnswer → Option DeferralAnswer
  | .expired _ => none
  | answer => some answer

end DeferralAnswer

namespace Coordinator

variable {c : Coordinator} {now later : Instant}

/-- What is overdue stays overdue. -/
theorem overdue_mono {watchdog : Nat} (hle : now ≤ later) (h : c.overdue? now = some watchdog) :
    c.overdue? later = some watchdog := by
  simp only [overdue?, Option.bind_eq_bind, Option.bind_eq_some_iff, Option.ite_none_right_eq_some]
    at h ⊢
  obtain ⟨since, hsince, limit, hlimit, hopen, hwatchdog⟩ := h
  have helapsed : (now - since).toNat ≤ (later - since).toNat :=
    Int.toNat_le_toNat (Int.sub_le_sub_right hle since)
  exact ⟨since, hsince, limit, hlimit, Nat.le_trans hopen helapsed, hwatchdog⟩

/-- To ask the watchdog twice is to ask it the second time only. -/
theorem expire_expire (hle : now ≤ later) :
    ((c.expire now).1.expire later).1 = (c.expire later).1 ∧
      calls (c.expire now).2 ++ calls ((c.expire now).1.expire later).2 =
        calls (c.expire later).2 := by
  cases h : c.overdue? now with
  | none =>
    rw [expire_of_quiet h]
    exact ⟨rfl, rfl⟩
  | some watchdog =>
    rw [expire_of_overdue h, expire_of_overdue (overdue_mono hle h),
      expire_of_idle rfl]
    exact ⟨rfl, List.append_nil _⟩

/-- A silent event does nothing once the watchdog has been asked. -/
theorem respond_silent (view : WindowInsets → WindowInsets) (now : Instant) {event : InsetEvent}
    (h : c.config.Silent event) :
    (c.respond view now event).1 = c ∧ (c.respond view now event).2.1 = [] := by
  cases h with
  | poll => exact ⟨rfl, rfl⟩
  | prepare h => simp [respond, isWatched, h]
  | finish h => simp [respond, isWatched, h]

end Coordinator

namespace InsetView

variable {σ : Type} {v : InsetView σ}

/-- Only calls change a view. -/
theorem feelAll_calls (s : σ) (effects : List DeferralEffect) :
    v.feelAll s (calls effects) = v.feelAll s effects := by
  induction effects generalizing s with
  | nil => rfl
  | cons effect effects ih =>
    cases effect with
    | overdue watchdog => exact ih s
    | apply insets => exact ih _
    | dispatch insets => exact ih _
    | listen on => exact ih _

theorem step_seen (x : Attended σ) (e : Instant × InsetEvent) :
    (v.step x e).2.2.seen? = (v.act (v.check x e.1) e).2.2.seen? := by
  by_cases hpoll : e.2 = .poll
  · simp only [step, Coordinator.step, act, hpoll]
    rfl
  · rw [step_answer x hpoll]

/-- To check twice is to check the second time only. -/
theorem check_check {now later : Instant} (hle : now ≤ later) (x : Attended σ) :
    v.check (v.check x now) later = v.check x later := by
  obtain ⟨hcoordinator, hcalls⟩ := Coordinator.expire_expire (c := x.coordinator) hle
  simp only [check, hcoordinator, ← feelAll_append]
  rw [← feelAll_calls, calls_append, hcalls, feelAll_calls]

/-- From `t` on `y` differs from `x` only by calls of the view that the next
    check of the watchdog will make at `x` too. These are `ahead`. -/
structure Abreast (v : InsetView σ) (t : Instant) (ahead : List DeferralEffect)
    (x y : Attended σ) : Prop where
  check : ∀ now, t ≤ now → v.check y now = v.check x now
  calls : ∀ now, t ≤ now →
    ahead ++ DeferralEffect.calls (y.coordinator.expire now).2 =
      DeferralEffect.calls (x.coordinator.expire now).2

variable {t now : Instant} {event : InsetEvent} {ahead : List DeferralEffect} {x y : Attended σ}

theorem Abreast.refl (t : Instant) (x : Attended σ) : Abreast v t [] x x :=
  ⟨fun _ _ => rfl, fun _ _ => rfl⟩

/-- A silent event leaves the coordinator and the view as the watchdog does. -/
theorem step_silent (now : Instant) (h : y.coordinator.config.Silent event) :
    (v.step y (now, event)).1 = v.check y now ∧
      (v.step y (now, event)).2.1 = (y.coordinator.expire now).2 := by
  rw [← Coordinator.config_expire y.coordinator now] at h
  have hact : (v.act (v.check y now) (now, event)).1 = v.check y now ∧
      (v.act (v.check y now) (now, event)).2.1 = [] := by
    obtain ⟨hcoordinator, heffects⟩ := Coordinator.respond_silent
      (fun insets => (v.handle (v.check y now).view insets).1) now h
    simp only [act, check] at hcoordinator heffects ⊢
    rw [hcoordinator, heffects]
    exact ⟨rfl, rfl⟩
  rw [step_fst, step_effects, hact.1, hact.2, List.append_nil]
  exact ⟨rfl, rfl⟩

/-- A silent event at `y` alone only makes calls ahead. -/
theorem Abreast.silent (h : Abreast v t ahead x y) (ht : t ≤ now)
    (hsilent : y.coordinator.config.Silent event) :
    Abreast v now (ahead ++ DeferralEffect.calls (v.step y (now, event)).2.1) x
      (v.step y (now, event)).1 := by
  obtain ⟨hstep, heffects⟩ := step_silent (v := v) now hsilent
  rw [hstep, heffects]
  refine ⟨fun later hlater => ?_, fun later hlater => ?_⟩
  · rw [check_check hlater]
    exact h.check later (Int.le_trans ht hlater)
  · rw [List.append_assoc]
    exact (congrArg _ (Coordinator.expire_expire hlater).2).trans
      (h.calls later (Int.le_trans ht hlater))

/-- An event at both makes them the same, and tells the same. -/
theorem Abreast.step (h : Abreast v t ahead x y) (ht : t ≤ now) (event : InsetEvent) :
    (v.step y (now, event)).1 = (v.step x (now, event)).1 ∧
      (v.step y (now, event)).2.2.seen? = (v.step x (now, event)).2.2.seen? ∧
      ahead ++ DeferralEffect.calls (v.step y (now, event)).2.1 =
        DeferralEffect.calls (v.step x (now, event)).2.1 := by
  simp only [step_fst, step_seen, step_effects, calls_append, ← List.append_assoc, h.check now ht,
    h.calls now ht, and_self]

/-- No step changes the setup. -/
theorem config_step (x : Attended σ) (e : Instant × InsetEvent) :
    (v.step x e).1.coordinator.config = x.coordinator.config :=
  (Coordinator.step_step _ _ _ _).config_eq

end InsetView

/-! ## Padded runs -/

/-- An event of a run at its time, with a mark on those that were put in. -/
structure MarkedEvent where
  time : Instant
  event : InsetEvent
  /-- The event was put in. -/
  extra : Bool

namespace MarkedEvent

/-- All events. -/
def all (events : List MarkedEvent) : List (Instant × InsetEvent) :=
  events.map fun e => (e.time, e.event)

/-- The events that were there before. -/
def original (events : List MarkedEvent) : List MarkedEvent := events.filter (!·.extra)

/-- What belongs to the events that were there before. -/
def select {ο : Type} (events : List MarkedEvent) (outcomes : List ο) : List ο :=
  ((events.zip outcomes).filter (!·.1.extra)).map (·.2)

section

variable {ο : Type} {e : MarkedEvent} {events : List MarkedEvent}

@[simp] theorem all_cons : all (e :: events) = (e.time, e.event) :: all events := rfl

theorem original_cons_extra (h : e.extra = true) : original (e :: events) = original events :=
  List.filter_cons_of_neg (by simp [h])

theorem original_cons_kept (h : e.extra = false) :
    original (e :: events) = e :: original events :=
  List.filter_cons_of_pos (by simp [h])

theorem select_cons_extra (h : e.extra = true) (outcome : ο) (outcomes : List ο) :
    select (e :: events) (outcome :: outcomes) = select events outcomes := by
  simp [select, h]

theorem select_cons_kept (h : e.extra = false) (outcome : ο) (outcomes : List ο) :
    select (e :: events) (outcome :: outcomes) = outcome :: select events outcomes := by
  simp [select, h]

end

end MarkedEvent

/-- Silent events were put into the row at any places before its last event, and
    time does not go back. -/
structure Padded (config : DeferralConfig) (events : List MarkedEvent) : Prop where
  silent : ∀ e ∈ events, e.extra = true → config.Silent e.event
  ordered : events.Pairwise fun a b => a.time ≤ b.time
  last : ∀ e, events.getLast? = some e → e.extra = false

theorem Padded.tail {config : DeferralConfig} {e : MarkedEvent} {events : List MarkedEvent}
    (h : Padded config (e :: events)) : Padded config events where
  silent a ha := h.silent a (List.mem_cons_of_mem e ha)
  ordered := (List.pairwise_cons.1 h.ordered).2
  last a ha := h.last a (by rw [List.getLast?_cons, ha]; rfl)

/-- The run starts at some time. -/
theorem Padded.exists_le {config : DeferralConfig} {events : List MarkedEvent}
    (h : Padded config events) : ∃ t, ∀ e ∈ events, t ≤ e.time := by
  cases events with
  | nil => exact ⟨0, fun e he => absurd he List.not_mem_nil⟩
  | cons first events =>
    exact ⟨first.time, List.forall_mem_cons.2
      ⟨Int.le_refl _, (List.pairwise_cons.1 h.ordered).1⟩⟩

/-- A run with silent events put in. -/
structure PaddedRun (σ : Type) where
  /-- The view. -/
  view : InsetView σ
  /-- The state of the view at the start. -/
  first : σ
  /-- What the coordinator is set up with. -/
  config : DeferralConfig
  /-- The events, those that were put in included. -/
  events : List MarkedEvent
  padded : Padded config events

namespace PaddedRun

variable {σ : Type} (p : PaddedRun σ)

/-- The run with what was put in. -/
def whole : ViewRun σ := ⟨p.view, p.first, p.config, MarkedEvent.all p.events⟩

/-- The run as it was before. -/
def plain : ViewRun σ :=
  ⟨p.view, p.first, p.config, MarkedEvent.all (MarkedEvent.original p.events)⟩

/-- What is compared of an outcome: the coordinator and the view after it, and
    the answer, but not what a poll is told. -/
def seen (outcome : Attended σ × List DeferralEffect × DeferralAnswer) :
    Attended σ × Option DeferralAnswer :=
  (outcome.1, outcome.2.2.seen?)

end PaddedRun

open MarkedEvent PaddedRun in
/-- What was put in is not noticed from where both are abreast. -/
theorem Padded.run_eq {σ : Type} {v : InsetView σ} {config : DeferralConfig}
    {events : List MarkedEvent} (hpadded : Padded config events) {t : Instant}
    {ahead : List DeferralEffect} {x y : Attended σ} (h : v.Abreast t ahead x y)
    (hconfig : y.coordinator.config = config) (ht : ∀ e ∈ events, t ≤ e.time)
    (hahead : events = [] → ahead = []) :
    ahead ++ calls ((Trace.run v.step y (all events)).flatMap (·.2.1)) =
        calls ((Trace.run v.step x (all (original events))).flatMap (·.2.1)) ∧
      (select events (Trace.run v.step y (all events))).map seen =
        (Trace.run v.step x (all (original events))).map seen := by
  induction events generalizing t ahead x y with
  | nil =>
    obtain rfl := hahead rfl
    exact ⟨rfl, rfl⟩
  | cons e events ih =>
    have hlater : ∀ a ∈ events, e.time ≤ a.time := (List.pairwise_cons.1 hpadded.ordered).1
    have hconfig' := (InsetView.config_step (v := v) y (e.time, e.event)).trans hconfig
    cases hextra : e.extra with
    | true =>
      -- the coordinator of the whole run goes ahead, and there is another event to wait for
      have hsilent := hpadded.silent e List.mem_cons_self hextra
      have hnonempty : events ≠ [] := by
        rintro rfl
        exact absurd (hpadded.last e rfl) (by simp [hextra])
      obtain ⟨hcalls, hseen⟩ := ih hpadded.tail
        (h.silent (ht e List.mem_cons_self) (hconfig ▸ hsilent)) hconfig' hlater
        (fun hnil => absurd hnil hnonempty)
      rw [original_cons_extra hextra, all_cons, Trace.run, List.flatMap_cons, calls_append,
        ← List.append_assoc, select_cons_extra hextra]
      exact ⟨hcalls, hseen⟩
    | false =>
      -- both make the same step and are the same afterwards
      obtain ⟨hstate, htold, hcalls⟩ := h.step (ht e List.mem_cons_self) e.event
      obtain ⟨hrest, hseen⟩ := ih hpadded.tail
        (InsetView.Abreast.refl e.time (v.step y (e.time, e.event)).1) hconfig' hlater
        (fun _ => rfl)
      rw [original_cons_kept hextra, all_cons, all_cons, Trace.run, Trace.run, List.flatMap_cons,
        List.flatMap_cons, calls_append, calls_append, ← List.append_assoc, hcalls,
        select_cons_kept hextra, List.map_cons, List.map_cons, ← hstate, hseen]
      refine ⟨congrArg _ hrest, ?_⟩
      rw [seen, seen, hstate, htold]

namespace PaddedRun

open MarkedEvent

/-- Polls and unwatched animations that are put into a run before its last event
    are not noticed: the view gets the same calls, and after every event that was
    there before the coordinator and the view are in the same states, and the
    event has the same answer, but for what a poll is told. -/
theorem padding_unobservable {σ : Type} (p : PaddedRun σ) :
    p.whole.calls = p.plain.calls ∧
      (select p.events p.whole.outcomes).map seen = p.plain.outcomes.map seen := by
  obtain ⟨t, ht⟩ := p.padded.exists_le
  exact p.padded.run_eq (.refl t p.plain.start) rfl ht fun _ => rfl

/-- A view that remembers what was dispatched to it. A poll that comes when the deferral
    is overdue dispatches early what the next frame would have dispatched, and then an
    animation that is not watched ends: after the frame nothing of this is left to be
    seen. -/
theorem padding_unobservable_early_dispatch :
    let view : InsetView (List WindowInsets) :=
      ⟨fun s insets => (insets, s), fun s insets => s ++ [insets], fun s _ => s⟩
    let final : WindowInsets := ⟨.empty, .keyboard, false⟩
    let events : List MarkedEvent := [⟨0, .prepare .keyboard, false⟩, ⟨1, .deliver final, false⟩,
      ⟨2000, .poll, true⟩, ⟨2001, .finish .statusBars, true⟩,
      ⟨2002, .progress final [.keyboard], false⟩]
    (ViewRun.mk view [] {} (all (events.take 3))).calls = [.dispatch final] ∧
      ∃ p : PaddedRun (List WindowInsets), p.whole = ⟨view, [], {}, all events⟩ ∧
        p.plain = ⟨view, [], {}, all (original events)⟩ ∧ p.whole.calls = [.dispatch final] ∧
        (select events p.whole.outcomes).map (fun o => (seen o).1.view) = [[], [], [final]] := by
  intro view final events
  have hpadded : Padded {} events := by
    refine ⟨?_, ?_, ?_⟩
    · simpa [events] using ⟨.poll, .finish rfl⟩
    · simp [events]
    · simp [events]
  have hplain : (ViewRun.mk view [] {} (all (original events))).calls = [.dispatch final] := by
    decide +kernel
  have hviews : (ViewRun.mk view [] {} (all (original events))).outcomes.map
      (fun o => (seen o).1.view) = [[], [], [final]] := by
    decide +kernel
  let p : PaddedRun (List WindowInsets) := ⟨view, [], {}, events, hpadded⟩
  obtain ⟨hcalls, hseen⟩ := p.padding_unobservable
  have hstates := congrArg (List.map fun o => o.1.view) hseen
  rw [List.map_map, List.map_map] at hstates
  exact ⟨by decide +kernel, p, rfl, rfl, hcalls.trans hplain, hstates.trans hviews⟩

end PaddedRun

end HostBridge
