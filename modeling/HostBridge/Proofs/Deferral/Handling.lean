import HostBridge.Proofs.Deferral.Snapshots

/-!
# When the view handles insets itself

A view jumps if it handles the final insets of an animation before the animation
has got there. There are two causes for which a view is asked to handle insets
itself (`Coordinator.Shows`): insets are delivered while nothing is deferred, or
a watched animation has a frame while its final insets are kept back. The phase
that counts is the one after the event has asked the watchdog.

* `ViewRun.Has.mem_applied` and `ViewRun.Has.length_applied`: a step
  shows the view what has a cause, and that once;
* `ViewRun.phase_ne_idle`: from the announcement of a watched animation on the
  coordinator is not idle, as long as nothing closes the deferral;
* `ViewRun.view_never_jumps`: what follows for a whole run.
-/

namespace HostBridge

namespace DeferralEffect

/-- The insets that the view is asked to handle by an effect. -/
def applied? : DeferralEffect → Option WindowInsets
  | .apply insets => some insets
  | _ => none

/-- The insets that the view is asked to handle by a row of effects, in order. -/
def applied (effects : List DeferralEffect) : List WindowInsets := effects.filterMap applied?

@[simp] theorem applied_nil : applied [] = [] := rfl

@[simp] theorem applied_apply (insets : WindowInsets) : applied [.apply insets] = [insets] := rfl

@[simp] theorem applied_append (effects more : List DeferralEffect) :
    applied (effects ++ more) = applied effects ++ applied more :=
  List.filterMap_append

@[simp] theorem applied_map_toList (saved : Option WindowInsets) :
    applied (saved.map .dispatch).toList = [] := by
  cases saved <;> rfl

end DeferralEffect

namespace Coordinator

open DeferralEffect

/-- The causes for which the view is asked to handle insets itself, once the
    watchdog has been asked. -/
inductive Shows (c : Coordinator) : InsetEvent → WindowInsets → Prop
  /-- Insets are delivered while nothing is deferred. -/
  | delivered {insets : WindowInsets} : c.phase = .idle → c.Shows (.deliver insets) insets
  /-- A watched animation has a frame while its final insets are kept back. -/
  | frame {current saved : WindowInsets} {running : List InsetTypes} {types : InsetTypes}
      {since : Instant} : c.phase = .deferring since → types ∈ running →
      c.isWatched types = true → c.saved = some saved →
      c.Shows (.progress current running) (c.interim saved current)

variable {view : WindowInsets → WindowInsets} {c next : Coordinator} {now : Instant}
  {event : InsetEvent} {effects : List DeferralEffect} {answer : DeferralAnswer}

/-- A move shows the view what has a cause. -/
theorem Move.mem_applied (h : Move view c now event next effects answer) (insets : WindowInsets) :
    insets ∈ applied effects ↔ c.Shows event insets := by
  cases h with
  | pass hphase =>
    rw [applied_apply, List.mem_singleton]
    refine ⟨fun h => h ▸ .delivered hphase, fun h => ?_⟩
    cases h with
    | delivered _ => rfl
  | frame hphase hsaved hany =>
    rw [applied_apply, List.mem_singleton]
    obtain ⟨types, hmem, hwatched⟩ := List.any_eq_true.1 hany
    refine ⟨fun h => h ▸ .frame hphase hmem hwatched hsaved, fun h => ?_⟩
    cases h with
    | frame _ _ _ hsaved' => rw [Option.some.inj (hsaved.symm.trans hsaved')]
  | capture hphase =>
    refine ⟨fun h => absurd h List.not_mem_nil, fun h => ?_⟩
    cases h with
    | delivered hidle => exact absurd (hidle.symm.trans hphase) (by simp)
  | drop hphase =>
    refine ⟨fun h => absurd h List.not_mem_nil, fun h => ?_⟩
    cases h with
    | delivered hidle => exact absurd (hidle.symm.trans hphase) (by simp)
  | skip hnot =>
    refine ⟨fun h => absurd h List.not_mem_nil, fun h => ?_⟩
    cases h with
    | frame hphase hmem hwatched hsaved =>
      have hany := hnot ⟨_, hphase⟩ (by simp [hsaved])
      exact absurd (List.any_eq_true.2 ⟨_, hmem, hwatched⟩) (by simp [hany])
  | close _ _ =>
    rw [applied_map_toList]
    exact ⟨fun h => absurd h List.not_mem_nil, nofun⟩
  | _ => exact ⟨fun h => absurd h List.not_mem_nil, nofun⟩

/-- A move shows the view one thing at most. -/
theorem Move.length_applied (h : Move view c now event next effects answer) :
    (applied effects).length ≤ 1 := by
  cases h with
  | close _ _ => simp
  | _ => simp

/-- Insets that are delivered while nothing is deferred are handled and answered by
    the view. -/
theorem Move.deliver_idle {insets : WindowInsets}
    (h : Move view c now (.deliver insets) next effects answer) (hidle : c.phase = .idle) :
    effects = [.apply insets] ∧ answer = .insets (view insets) := by
  cases h with
  | pass _ => exact ⟨rfl, rfl⟩
  | capture hphase => exact absurd (hidle.symm.trans hphase) (by simp)
  | drop hphase => exact absurd (hidle.symm.trans hphase) (by simp)

/-- Insets that are delivered during a deferral do not reach the view. -/
theorem Move.deliver_open {insets : WindowInsets}
    (h : Move view c now (.deliver insets) next effects answer) (hopen : c.phase ≠ .idle) :
    effects = [] ∧ answer = .insets .handled := by
  cases h with
  | pass hidle => exact absurd hidle hopen
  | capture _ => exact ⟨rfl, rfl⟩
  | drop _ => exact ⟨rfl, rfl⟩

/-- Without the announcement of a watched animation an idle coordinator stays
    idle, and dispatches nothing. -/
theorem Move.idle_of_idle (h : Move view c now event next effects answer) (hidle : c.phase = .idle)
    (hnot : ∀ types, event = .prepare types → c.isWatched types = false) :
    next.phase = .idle ∧ dispatched effects = [] := by
  cases h with
  | capture hphase => exact absurd (hidle.symm.trans hphase) (by simp)
  | announce hwatched => exact absurd hwatched (by simp [hnot _ rfl])
  | close hopen _ => exact absurd hidle hopen
  | _ => exact ⟨hidle, rfl⟩

/-- The watchdog never asks the view to handle anything. -/
theorem applied_expire (c : Coordinator) (now : Instant) : applied (c.expire now).2 = [] := by
  rw [expire]
  split
  · exact applied_map_toList c.saved
  · rfl

/-- The watchdog does nothing, unless it closes the deferral. -/
theorem expire_of_open (h : (c.expire now).1.phase ≠ .idle) : (c.expire now).2 = [] := by
  cases hover : c.overdue? now with
  | none => rw [expire_of_quiet hover]
  | some watchdog =>
    rw [expire_of_overdue hover] at h
    exact absurd rfl h

theorem Settled.expire (hc : c.Settled) (now : Instant) : (c.expire now).1.Settled := by
  rw [Coordinator.expire]
  split
  · exact .closed c
  · exact hc

end Coordinator

namespace ViewRun

open Coordinator DeferralEffect

variable {σ : Type} (r : ViewRun σ)

/-- The coordinator and the view at position `i`, once the watchdog has been asked
    at `now`. -/
def checked (i : Nat) (now : Instant) : Attended σ := r.view.check (r.state i) now

variable {r} {i : Nat} {now : Instant} {event : InsetEvent} {effects : List DeferralEffect}
  {answer : DeferralAnswer}

/-- Once the watchdog has been asked, the event makes its move. -/
theorem Has.move (h : r.Has i now event effects answer) :
    ∃ own next told, effects = ((r.state i).coordinator.expire now).2 ++ own ∧
      Move (fun insets => (r.view.handle (r.checked i now).view insets).1)
        (r.checked i now).coordinator now event next own told ∧
      (event ≠ .poll → answer = told) ∧ (r.state (i + 1)).coordinator = next := by
  have hstep := h.step_eq
  refine ⟨_, _, _, ?_, move_respond _ _ now event, fun hpoll => ?_, ?_⟩
  · exact (congrArg (·.2.1) hstep).symm
  · exact (congrArg (·.2.2) hstep).symm.trans (InsetView.step_answer (r.state i) hpoll)
  · rw [state_succ h.event, InsetView.step_fst]
    rfl

/-- The view is asked to handle what has a cause. -/
theorem Has.mem_applied (h : r.Has i now event effects answer) (insets : WindowInsets) :
    insets ∈ applied effects ↔ (r.checked i now).coordinator.Shows event insets := by
  obtain ⟨own, next, told, rfl, hmove, _⟩ := h.move
  rw [applied_append, applied_expire, List.nil_append]
  exact hmove.mem_applied insets

theorem Has.length_applied (h : r.Has i now event effects answer) :
    (applied effects).length ≤ 1 := by
  obtain ⟨own, next, told, rfl, hmove, _⟩ := h.move
  rw [applied_append, applied_expire, List.nil_append]
  exact hmove.length_applied

theorem Has.deliver_idle {insets : WindowInsets} (h : r.Has i now (.deliver insets) effects answer)
    (hidle : (r.checked i now).coordinator.phase = .idle) :
    applied effects = [insets] ∧
      answer = .insets (r.view.handle (r.checked i now).view insets).1 := by
  obtain ⟨own, next, told, rfl, hmove, htold, _⟩ := h.move
  obtain ⟨rfl, rfl⟩ := hmove.deliver_idle hidle
  rw [applied_append, applied_expire]
  exact ⟨rfl, htold (by simp)⟩

theorem Has.deliver_open {insets : WindowInsets} (h : r.Has i now (.deliver insets) effects answer)
    (hopen : (r.checked i now).coordinator.phase ≠ .idle) :
    effects = [] ∧ answer = .insets .handled := by
  obtain ⟨own, next, told, rfl, hmove, htold, _⟩ := h.move
  obtain ⟨rfl, rfl⟩ := hmove.deliver_open hopen
  rw [List.append_nil]
  exact ⟨expire_of_open hopen, htold (by simp)⟩

theorem config_checked (r : ViewRun σ) (i : Nat) (now : Instant) :
    (r.checked i now).coordinator.config = r.config :=
  (config_expire _ now).trans (r.config_state i)

theorem AnnouncedAt.phase_succ {p : Nat} (h : r.AnnouncedAt p) :
    (r.state (p + 1)).coordinator.phase ≠ .idle := by
  obtain ⟨now, types, he, hwatched⟩ := h
  obtain ⟨effects, answer, hhas⟩ := exists_has he
  obtain ⟨own, next, told, _, hmove, _, rfl⟩ := hhas.move
  generalize (r.state (p + 1)).coordinator = next at hmove ⊢
  cases hmove with
  | announce _ => simp
  | ignore hignored =>
    rw [isWatched, config_checked, hwatched] at hignored
    exact absurd hignored (by simp)

/-- From the announcement of a watched animation on the coordinator is not idle, as
    long as nothing closes the deferral. -/
theorem phase_ne_idle {p : Nat} (hp : r.AnnouncedAt p) (hpi : p < i)
    (hi : i ≤ r.events.length) (hopen : ∀ k, p < k → k < i → ¬r.ClosedAt k) :
    (r.state i).coordinator.phase ≠ .idle := by
  induction hpi with
  | refl => exact hp.phase_succ
  | @step n hpn ih =>
    intro hidle
    have hbefore := ih (Nat.le_of_lt hi) fun k hpk hkn => hopen k hpk (Nat.lt_succ_of_lt hkn)
    exact hopen n hpn (Nat.lt_succ_self n)
      ⟨_, _, List.getElem?_eq_getElem hi, hbefore, .inr hidle⟩

theorem not_watched (hnever : ∀ p, ¬r.AnnouncedAt p) {c : Coordinator} (hc : c.config = r.config)
    (he : (now, event) ∈ r.events) (types : InsetTypes) (hprepare : event = .prepare types) :
    c.isWatched types = false := by
  obtain ⟨p, hp⟩ := List.getElem?_of_mem he
  subst hprepare
  rw [isWatched, hc]
  exact Bool.eq_false_iff.2 fun hwatched => hnever p ⟨now, types, hp, hwatched⟩

/-- A run without the announcement of a watched animation stays idle. -/
theorem phase_eq_idle (hnever : ∀ p, ¬r.AnnouncedAt p) (i : Nat) :
    (r.state i).coordinator.phase = .idle := by
  refine (r.coordinator_induction (P := fun c => c.phase = .idle ∧ c.config = r.config)
    ⟨rfl, rfl⟩ (fun {view c next now event effects answer} he hc h => ?_) i).1
  obtain ⟨hidle, hconfig⟩ := hc
  refine ⟨?_, h.config_eq.trans hconfig⟩
  cases h with
  | quiet _ hmove => exact (hmove.idle_of_idle hidle (not_watched hnever hconfig he)).1
  | overdue _ hopen _ => exact absurd hidle hopen

theorem checked_phase_eq_idle (hnever : ∀ p, ¬r.AnnouncedAt p) (i : Nat) (now : Instant) :
    (r.checked i now).coordinator.phase = .idle := by
  rw [checked, InsetView.check, expire_of_idle (phase_eq_idle hnever i)]
  exact phase_eq_idle hnever i

/-- A run without the announcement of a watched animation dispatches nothing. -/
theorem Has.dispatched_eq_nil (h : r.Has i now event effects answer)
    (hnever : ∀ p, ¬r.AnnouncedAt p) : dispatched effects = [] := by
  obtain ⟨own, next, told, rfl, hmove, _⟩ := h.move
  have hown := (hmove.idle_of_idle (checked_phase_eq_idle hnever i now)
    (not_watched hnever (r.config_checked i now) (List.mem_of_getElem? h.event))).2
  rw [expire_of_idle (phase_eq_idle hnever i), List.nil_append, hown]

/-- An open deferral that is not closed is open after the check. -/
theorem checked_phase_ne_idle (h : r.Has i now event effects answer)
    (hopen : (r.state i).coordinator.phase ≠ .idle) (hnot : ¬r.ClosedAt i) :
    (r.checked i now).coordinator.phase ≠ .idle :=
  fun hidle => hnot ⟨now, event, h.event, hopen, .inl hidle⟩

/-- During a deferral the view handles nothing but interim insets of frames. -/
theorem Has.progress_of_open (h : r.Has i now event effects answer)
    (hopen : (r.checked i now).coordinator.phase ≠ .idle) {insets : WindowInsets}
    (hmem : insets ∈ applied effects) : ∃ current running, event = .progress current running := by
  cases (h.mem_applied insets).1 hmem with
  | delivered hidle => exact absurd hidle hopen
  | frame _ _ _ _ => exact ⟨_, _, rfl⟩

/-- The view never jumps.

    * The view is asked to handle insets itself if and only if there is a cause
      (`Coordinator.Shows`), and once.
    * Insets that are delivered while nothing is deferred are answered by what the
      view makes of them.
    * Insets that are delivered during a deferral are dealt with, and do not reach
      the view in any way.
    * There are always insets to make the interim ones of.
    * From the announcement of a watched animation until the deferral is closed,
      what the view handles are interim insets of frames, and no insets that are
      delivered.
    * A run in which no watched animation is announced stays idle, hands all
      delivered insets to the view and dispatches nothing. -/
theorem view_never_jumps {σ : Type} (r : ViewRun σ) :
    (∀ i now event effects answer, r.Has i now event effects answer →
      (∀ insets, insets ∈ applied effects ↔
        (r.checked i now).coordinator.Shows event insets) ∧
      (applied effects).length ≤ 1) ∧
    (∀ i now insets effects answer, r.Has i now (.deliver insets) effects answer →
      (r.checked i now).coordinator.phase = .idle →
      applied effects = [insets] ∧
        answer = .insets (r.view.handle (r.checked i now).view insets).1) ∧
    (∀ i now insets effects answer, r.Has i now (.deliver insets) effects answer →
      (r.checked i now).coordinator.phase ≠ .idle →
      effects = [] ∧ answer = .insets .handled) ∧
    (∀ i now, (r.checked i now).coordinator.config = r.config ∧
      ∀ since, (r.checked i now).coordinator.phase = .deferring since →
        ∃ saved, (r.checked i now).coordinator.saved = some saved) ∧
    (∀ p i now event effects answer, r.AnnouncedAt p → p < i →
      (∀ k, p < k → k ≤ i → ¬r.ClosedAt k) → r.Has i now event effects answer →
      (∀ insets ∈ applied effects, ∃ current running, event = .progress current running) ∧
      ∀ insets, event = .deliver insets → effects = [] ∧ answer = .insets .handled) ∧
    ((∀ p, ¬r.AnnouncedAt p) → (∀ i, (r.state i).coordinator.phase = .idle) ∧
      ∀ i now event effects answer, r.Has i now event effects answer →
        dispatched effects = [] ∧ ∀ insets, event = .deliver insets →
          applied effects = [insets] ∧
            answer = .insets (r.view.handle (r.checked i now).view insets).1) := by
  refine ⟨fun i now event effects answer h => ⟨h.mem_applied, h.length_applied⟩,
    fun i now insets effects answer h => h.deliver_idle,
    fun i now insets effects answer h => h.deliver_open,
    fun i now => ⟨r.config_checked i now, fun since hphase => ?_⟩,
    fun p i now event effects answer hp hpi hclosed h => ?_,
    fun hnever => ⟨phase_eq_idle hnever, fun i now event effects answer h => ?_⟩⟩
  · exact Option.ne_none_iff_exists'.1 (((r.settled_state i).expire now).deferring since hphase)
  · have hopen := checked_phase_ne_idle h
      (phase_ne_idle hp hpi (Nat.le_of_lt h.lt_length) fun k hpk hki =>
        hclosed k hpk (Nat.le_of_lt hki)) (hclosed i hpi (Nat.le_refl i))
    refine ⟨fun insets => h.progress_of_open hopen, ?_⟩
    rintro insets rfl
    exact h.deliver_open hopen
  · refine ⟨h.dispatched_eq_nil hnever, ?_⟩
    rintro insets rfl
    exact h.deliver_idle (checked_phase_eq_idle hnever i now)

/-- While the keyboard moves the view sees interim insets only; the final ones are
    dispatched at the end. -/
example (v : InsetView Unit) (final frame : WindowInsets) :
    (ViewRun.mk v () {} [(0, .prepare .keyboard), (1, .deliver final),
      (2, .progress frame [.keyboard]), (3, .progress frame [.statusBars]),
      (4, .finish .keyboard)]).calls =
      [.apply ((Coordinator.start {}).interim final frame), .dispatch final] := by
  cbv

end ViewRun

end HostBridge
