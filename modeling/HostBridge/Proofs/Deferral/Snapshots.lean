import HostBridge.Proofs.Deferral.Runs

/-!
# What becomes of a saved snapshot

A run of a coordinator saves snapshots (`CapturedAt`) and gives them out
(`dispatchedAt`). A new watched animation may be announced while a snapshot is
still kept back, so a coordinator that is capturing may hold a snapshot or not;
it is only the idle and the deferring phase that decide it (`Settled`).

A step treats the snapshot in one of three ways (`Coordinator.Step.snapshot`):
it saves a new one and dispatches nothing, it gives the saved one out and holds
none, or it leaves the snapshot alone. Over a whole run:

* `ViewRun.held_at`: what is held was captured last, and nothing has been
  captured or dispatched since;
* `ViewRun.fate`: what is captured stays held, until it is dispatched or
  another capture takes its place;
* `ViewRun.snapshot_conservation`: no snapshot is lost, and none is given
  out twice.
-/

namespace HostBridge

namespace Coordinator

open DeferralEffect

/-! ## One step -/

/-- An idle coordinator holds nothing back, a deferring one does. -/
structure Settled (c : Coordinator) : Prop where
  idle : c.phase = .idle → c.saved = none
  deferring : ∀ since, c.phase = .deferring since → c.saved ≠ none

/-- The insets are saved by a step: they are delivered, and the coordinator is
    still capturing after the check of the watchdog. -/
def Captures (c : Coordinator) (now : Instant) (event : InsetEvent) (insets : WindowInsets) :
    Prop :=
  event = .deliver insets ∧ ∃ since, (c.expire now).1.phase = .capturing since

theorem settled_start (config : DeferralConfig) : (start config).Settled where
  idle _ := rfl
  deferring _ h := absurd h (by simp [start])

variable {view : WindowInsets → WindowInsets} {c next : Coordinator} {now : Instant}
  {event : InsetEvent} {effects : List DeferralEffect} {answer : DeferralAnswer}

theorem Settled.closed (c : Coordinator) : c.closed.Settled where
  idle _ := rfl
  deferring _ h := absurd h (by simp [Coordinator.closed])

theorem Settled.move (hc : c.Settled) (h : Move view c now event next effects answer) :
    next.Settled := by
  cases h with
  | capture _ => exact ⟨fun h => absurd h (by simp), fun _ _ => by simp⟩
  | announce _ => exact ⟨fun h => absurd h (by simp), fun _ h => absurd h (by simp)⟩
  | close _ _ => exact .closed c
  | _ => exact hc

/-- A step keeps a coordinator settled. -/
theorem Settled.step (hc : c.Settled) (h : Step view c now event next effects answer) :
    next.Settled := by
  cases h with
  | quiet _ hmove => exact hc.move hmove
  | overdue _ _ hmove => exact (Settled.closed c).move hmove

/-- A move from the closed coordinator neither saves anything nor dispatches. -/
theorem Move.of_closed (h : Move view c.closed now event next effects answer) :
    next.saved = none ∧ dispatched effects = [] := by
  cases h with
  | capture hphase => exact absurd hphase (by simp [Coordinator.closed])
  | frame hphase _ _ => exact absurd hphase (by simp [Coordinator.closed])
  | close hopen _ => exact absurd rfl hopen
  | _ => exact ⟨rfl, rfl⟩

theorem not_captures_of_closed {insets : WindowInsets} {watchdog : Nat}
    (h : c.overdue? now = some watchdog) : ¬c.Captures now event insets := by
  rintro ⟨_, since, hphase⟩
  rw [expire_of_overdue h] at hphase
  exact absurd hphase (by simp [Coordinator.closed])

/-- What a step does to the snapshot: it saves one and dispatches nothing, or it
    gives out what was saved and holds nothing, or it leaves the snapshot
    alone. -/
theorem Step.snapshot (h : Step view c now event next effects answer) :
    (∃ insets, c.Captures now event insets ∧ next.saved = some insets ∧ dispatched effects = []) ∨
      (∀ insets, ¬c.Captures now event insets) ∧
        ((next.saved = none ∧ dispatched effects = c.saved.toList) ∨
          (next.saved = c.saved ∧ dispatched effects = [])) := by
  cases h with
  | quiet hquiet hmove =>
    simp only [Captures, expire_of_quiet hquiet]
    cases hmove with
    | capture hphase => exact .inl ⟨_, ⟨rfl, _, hphase⟩, rfl, rfl⟩
    | close _ _ => exact .inr ⟨fun _ h => by simp at h, .inl ⟨rfl, dispatched_map_toList _⟩⟩
    | pass hphase => exact .inr ⟨fun _ h => by simp [hphase] at h, .inr ⟨rfl, rfl⟩⟩
    | drop hphase => exact .inr ⟨fun _ h => by simp [hphase] at h, .inr ⟨rfl, rfl⟩⟩
    | _ => exact .inr ⟨fun _ h => by simp at h, .inr ⟨rfl, rfl⟩⟩
  | overdue hover _ hmove =>
    obtain ⟨hsaved, hnone⟩ := hmove.of_closed
    exact .inr ⟨fun _ => not_captures_of_closed hover, .inl ⟨hsaved, by simp [hnone]⟩⟩

/-- After a capture the coordinator defers. -/
theorem Step.deferring_of_captures {insets : WindowInsets}
    (h : Step view c now event next effects answer) (hcap : c.Captures now event insets) :
    ∃ since, next.phase = .deferring since := by
  cases h with
  | quiet hquiet hmove =>
    obtain ⟨rfl, since, hphase⟩ := hcap
    rw [expire_of_quiet hquiet] at hphase
    cases hmove with
    | capture _ => exact ⟨_, rfl⟩
    | pass hidle => exact absurd (hidle.symm.trans hphase) (by simp)
    | drop hdeferring => exact absurd (hdeferring.symm.trans hphase) (by simp)
  | overdue hover _ _ => exact absurd hcap (not_captures_of_closed hover)

/-- A step that closes an open deferral gives out what was held back. -/
theorem Step.dispatched_of_closes (h : Step view c now event next effects answer)
    (hcloses : c.Closes now next) : dispatched effects = c.saved.toList := by
  obtain ⟨hopen, hidle⟩ := hcloses
  cases h with
  | quiet hquiet hmove =>
    replace hidle := hidle.resolve_left (by rwa [expire_of_quiet hquiet])
    cases hmove with
    | close _ _ => exact dispatched_map_toList _
    | capture _ => exact absurd hidle (by simp)
    | announce _ => exact absurd hidle (by simp)
    | _ => exact absurd hidle hopen
  | overdue _ _ hmove => simp [hmove.of_closed.2]

/-- Only a step that closes an open deferral dispatches anything. -/
theorem Step.closes_of_dispatched (h : Step view c now event next effects answer)
    (hne : dispatched effects ≠ []) : c.Closes now next := by
  cases h with
  | quiet _ hmove =>
    cases hmove with
    | close hopen _ => exact ⟨hopen, .inr rfl⟩
    | _ => exact absurd rfl hne
  | overdue hover hopen _ =>
    exact ⟨hopen, .inl (by rw [expire_of_overdue hover]; rfl)⟩

/-- Only the announcement of a watched animation makes a coordinator capture. -/
theorem Step.capturing {since : Instant} (h : Step view c now event next effects answer)
    (hphase : next.phase = .capturing since) :
    c.phase = .capturing since ∨ ∃ types, event = .prepare types ∧ c.isWatched types = true := by
  cases h with
  | quiet _ hmove =>
    cases hmove with
    | announce hwatched => exact .inr ⟨_, rfl, hwatched⟩
    | capture _ => exact absurd hphase (by simp)
    | close _ _ => exact absurd hphase (by simp [Coordinator.closed])
    | _ => exact .inl hphase
  | overdue _ _ hmove =>
    cases hmove with
    | announce hwatched => exact .inr ⟨_, rfl, hwatched⟩
    | _ => exact absurd hphase (by simp [Coordinator.closed])

end Coordinator

/-! ## Runs -/

namespace ViewRun

open Coordinator DeferralEffect

variable {σ : Type} (r : ViewRun σ)

/-- What is dispatched at position `i`, in order. -/
def dispatchedAt (i : Nat) : List WindowInsets :=
  match r.outcomes[i]? with
  | some (_, effects, _) => dispatched effects
  | none => []

/-- At position `i` the insets are captured. -/
def CapturedAt (i : Nat) (insets : WindowInsets) : Prop :=
  ∃ now event, r.events[i]? = some (now, event) ∧
    (r.state i).coordinator.Captures now event insets

/-- The capture of `insets` at position `i` is the latest one before `j`. -/
def LatestCapture (j i : Nat) (insets : WindowInsets) : Prop :=
  r.CapturedAt i insets ∧ i < j ∧ ∀ k, i < k → k < j → ∀ other, ¬r.CapturedAt k other

/-- Between the positions `i` and `j` no deferral is closed, and nothing is
    captured or dispatched. -/
def Quiet (i j : Nat) : Prop :=
  ∀ k, i < k → k < j →
    ¬r.ClosedAt k ∧ r.dispatchedAt k = [] ∧ ∀ insets, ¬r.CapturedAt k insets

/-- What was captured at position `i` gives way to another capture, after
    another announcement and before anything was given out. -/
def Overwritten (i : Nat) : Prop :=
  ∃ p k, i < p ∧ p < k ∧ r.AnnouncedAt p ∧ (∃ insets, r.CapturedAt k insets) ∧ r.Quiet i k

/-- What was captured at position `i` is still held when the run ends. -/
def HeldAtEnd (i : Nat) (insets : WindowInsets) : Prop :=
  (r.state r.events.length).coordinator.saved = some insets ∧ r.Quiet i r.events.length

variable {r} {i j : Nat} {now : Instant} {event : InsetEvent} {effects : List DeferralEffect}
  {answer : DeferralAnswer} {insets : WindowInsets}

/-! ### Positions -/

theorem Has.dispatchedAt (h : r.Has i now event effects answer) :
    r.dispatchedAt i = dispatched effects := by
  obtain ⟨_, x, hx⟩ := h
  rw [ViewRun.dispatchedAt, hx]

theorem dispatchedAt_eq_nil (h : r.events.length ≤ i) : r.dispatchedAt i = [] := by
  rw [dispatchedAt, outcomes, Trace.getElem?_run, List.getElem?_eq_none h, Option.map_none]

theorem Has.capturedAt_iff (h : r.Has i now event effects answer) :
    r.CapturedAt i insets ↔ (r.state i).coordinator.Captures now event insets := by
  refine ⟨fun ⟨now', event', he, hcap⟩ => ?_, fun hcap => ⟨now, event, h.event, hcap⟩⟩
  obtain ⟨rfl, rfl⟩ := Prod.mk.inj (Option.some.inj (h.event.symm.trans he))
  exact hcap

/-- Every coordinator of a run is settled. -/
theorem settled_state (r : ViewRun σ) (i : Nat) : (r.state i).coordinator.Settled :=
  r.coordinator_induction (settled_start r.config) (fun _ hc h => hc.step h) i

/-- What one position of a run does to the snapshot. -/
theorem snapshot_at (hi : i < r.events.length) :
    (∃ insets, r.CapturedAt i insets ∧ (r.state (i + 1)).coordinator.saved = some insets ∧
        r.dispatchedAt i = []) ∨
      (∀ insets, ¬r.CapturedAt i insets) ∧
        (((r.state (i + 1)).coordinator.saved = none ∧
            r.dispatchedAt i = (r.state i).coordinator.saved.toList) ∨
          ((r.state (i + 1)).coordinator.saved = (r.state i).coordinator.saved ∧
            r.dispatchedAt i = [])) := by
  obtain ⟨now, event, effects, answer, h⟩ := exists_has_of_lt hi
  obtain ⟨_, hstep⟩ := h.step
  simp only [h.dispatchedAt, h.capturedAt_iff]
  exact hstep.snapshot

/-! ### Captures -/

theorem CapturedAt.exists_has (h : r.CapturedAt i insets) :
    ∃ now event effects answer, r.Has i now event effects answer ∧
      (r.state i).coordinator.Captures now event insets := by
  obtain ⟨now, event, he, hcap⟩ := h
  obtain ⟨effects, answer, hhas⟩ := ViewRun.exists_has he
  exact ⟨now, event, effects, answer, hhas, hcap⟩

theorem CapturedAt.lt_length (h : r.CapturedAt i insets) : i < r.events.length := by
  obtain ⟨_, _, _, _, hhas, _⟩ := h.exists_has
  exact hhas.lt_length

theorem CapturedAt.unique {other : WindowInsets} (h : r.CapturedAt i insets)
    (h' : r.CapturedAt i other) : insets = other := by
  obtain ⟨_, _, _, _, hhas, hdeliver, _⟩ := h.exists_has
  obtain ⟨hdeliver', _⟩ := hhas.capturedAt_iff.1 h'
  exact InsetEvent.deliver.inj (hdeliver.symm.trans hdeliver')

/-- What is captured is held afterwards. -/
theorem CapturedAt.saved_succ (h : r.CapturedAt i insets) :
    (r.state (i + 1)).coordinator.saved = some insets ∧ r.dispatchedAt i = [] := by
  rcases snapshot_at h.lt_length with ⟨other, hcap, hsaved, hnone⟩ | ⟨hnot, _⟩
  · exact ⟨h.unique hcap ▸ hsaved, hnone⟩
  · exact absurd h (hnot insets)

theorem CapturedAt.phase (h : r.CapturedAt i insets) :
    ∃ since, (r.state i).coordinator.phase = .capturing since := by
  obtain ⟨now, event, _, _, since, hphase⟩ := h
  cases hover : (r.state i).coordinator.overdue? now with
  | none => exact ⟨since, by rwa [expire_of_quiet hover] at hphase⟩
  | some watchdog =>
    rw [expire_of_overdue hover] at hphase
    exact absurd hphase (by simp [closed])

theorem CapturedAt.phase_succ (h : r.CapturedAt i insets) :
    ∃ since, (r.state (i + 1)).coordinator.phase = .deferring since := by
  obtain ⟨_, _, _, _, hhas, hcap⟩ := h.exists_has
  obtain ⟨_, hstep⟩ := hhas.step
  exact hstep.deferring_of_captures hcap

/-- Two captures have the announcement of a watched animation between them. -/
theorem exists_announced (hi : r.CapturedAt i insets) {k : Nat} {other : WindowInsets}
    (hk : r.CapturedAt k other) (hik : i < k) : ∃ p, i < p ∧ p < k ∧ r.AnnouncedAt p := by
  suffices h : ∀ n, i < n → n ≤ r.events.length →
      (∃ since, (r.state n).coordinator.phase = .capturing since) →
      ∃ p, i < p ∧ p < n ∧ r.AnnouncedAt p from
    h k hik (Nat.le_of_lt hk.lt_length) hk.phase
  intro n hin
  induction hin with
  | refl =>
    rintro - ⟨since, hphase⟩
    obtain ⟨since', hphase'⟩ := hi.phase_succ
    exact absurd (hphase.symm.trans hphase') (by simp)
  | @step n hin ih =>
    rintro hn ⟨since, hphase⟩
    obtain ⟨now, event, effects, answer, h⟩ := exists_has_of_lt hn
    obtain ⟨_, hstep⟩ := h.step
    rcases hstep.capturing hphase with hbefore | ⟨types, rfl, hwatched⟩
    · obtain ⟨p, hip, hpn, hp⟩ := ih (Nat.le_of_lt hn) ⟨since, hbefore⟩
      exact ⟨p, hip, Nat.lt_succ_of_lt hpn, hp⟩
    · refine ⟨n, hin, Nat.lt_succ_self n, now, types, h.event, ?_⟩
      rwa [isWatched, config_state] at hwatched

/-! ### The fate of a snapshot -/

/-- What is held was captured last, and nothing has been dispatched since. -/
theorem held_at {n : Nat} (hn : n ≤ r.events.length)
    (h : (r.state n).coordinator.saved = some insets) :
    ∃ i, r.LatestCapture n i insets ∧ ∀ k, i ≤ k → k < n → r.dispatchedAt k = [] := by
  induction n with
  | zero => exact absurd h (by simp [state, start, Coordinator.start])
  | succ n ih =>
    rcases snapshot_at hn with ⟨other, hcap, hsaved, hnone⟩ | ⟨hnot, ⟨hsaved, _⟩ | ⟨hsaved, hnone⟩⟩
    · -- captured just now
      obtain rfl := Option.some.inj (hsaved.symm.trans h)
      refine ⟨n, ⟨hcap, Nat.lt_succ_self n, fun k hnk hk => ?_⟩, fun k hnk hk => ?_⟩
      · omega
      · rwa [show k = n by omega]
    · exact absurd (hsaved.symm.trans h) (by simp)
    · -- held since before
      obtain ⟨i, ⟨hcap, hin, hlatest⟩, hquiet⟩ := ih (Nat.le_of_lt hn) (hsaved ▸ h)
      refine ⟨i, ⟨hcap, Nat.lt_succ_of_lt hin, fun k hik hk => ?_⟩, fun k hik hk => ?_⟩
      · rcases Nat.lt_succ_iff_lt_or_eq.1 hk with hk | rfl
        · exact hlatest k hik hk
        · exact hnot
      · rcases Nat.lt_succ_iff_lt_or_eq.1 hk with hk | rfl
        · exact hquiet k hik hk
        · exact hnone

/-- What is dispatched is the latest capture, which nothing has given out
    before. -/
theorem latestCapture_of_dispatched (h : insets ∈ r.dispatchedAt j) :
    r.dispatchedAt j = [insets] ∧
      ∃ i, r.LatestCapture j i insets ∧ ∀ k, i ≤ k → k < j → r.dispatchedAt k = [] := by
  have hj : j < r.events.length := by
    refine Nat.lt_of_not_le fun hle => ?_
    rw [dispatchedAt_eq_nil hle] at h
    exact absurd h List.not_mem_nil
  rcases snapshot_at hj with ⟨_, _, _, hnone⟩ | ⟨_, ⟨_, hsaved⟩ | ⟨_, hnone⟩⟩
  · exact absurd h (by simp [hnone])
  · rw [hsaved, Option.mem_toList] at h
    rw [hsaved, h]
    exact ⟨rfl, held_at (Nat.le_of_lt hj) h⟩
  · exact absurd h (by simp [hnone])

/-- One position has only one latest capture before it. -/
theorem LatestCapture.unique {i' : Nat} {other : WindowInsets} (h : r.LatestCapture j i insets)
    (h' : r.LatestCapture j i' other) : i = i' := by
  obtain ⟨hcap, hij, hlatest⟩ := h
  obtain ⟨hcap', hij', hlatest'⟩ := h'
  rcases Nat.lt_trichotomy i i' with hlt | heq | hlt
  · exact absurd hcap' (hlatest i' hlt hij' other)
  · exact heq
  · exact absurd hcap (hlatest' i hlt hij insets)

/-- A closed deferral gives out what was held. -/
theorem ClosedAt.dispatchedAt (h : r.ClosedAt i) :
    r.dispatchedAt i = (r.state i).coordinator.saved.toList := by
  obtain ⟨now, event, he, hcloses⟩ := h
  obtain ⟨_, _, hhas⟩ := exists_has he
  obtain ⟨_, hstep⟩ := hhas.step
  rw [hhas.dispatchedAt]
  exact hstep.dispatched_of_closes hcloses

/-- Without closing a deferral nothing is given out. -/
theorem dispatchedAt_of_not_closedAt (h : ¬r.ClosedAt i) : r.dispatchedAt i = [] := by
  by_cases hi : i < r.events.length
  · obtain ⟨now, event, effects, answer, hhas⟩ := exists_has_of_lt hi
    obtain ⟨_, hstep⟩ := hhas.step
    rw [hhas.dispatchedAt]
    exact Decidable.byContradiction fun hne =>
      h ⟨now, event, hhas.event, hstep.closes_of_dispatched hne⟩
  · exact dispatchedAt_eq_nil (Nat.le_of_not_lt hi)

/-- What is captured stays held, unless it is dispatched or another capture takes
    its place. -/
theorem fate (h : r.CapturedAt i insets) {n : Nat} (hin : i < n) (hn : n ≤ r.events.length) :
    ((r.state n).coordinator.saved = some insets ∧ r.Quiet i n) ∨
      ∃ k, i < k ∧ k < n ∧ r.Quiet i k ∧
        (r.dispatchedAt k = [insets] ∨ ∃ other, r.CapturedAt k other) := by
  induction hin with
  | refl => exact .inl ⟨h.saved_succ.1, fun k hik hk => by omega⟩
  | @step n hin ih =>
    rcases ih (Nat.le_of_lt hn) with ⟨hheld, hquiet⟩ | ⟨k, hik, hkn, hrest⟩
    · rcases snapshot_at hn with ⟨other, hcap, _, _⟩ | ⟨hnot, ⟨_, hout⟩ | ⟨hsaved, hnone⟩⟩
      · exact .inr ⟨n, hin, Nat.lt_succ_self n, hquiet, .inr ⟨other, hcap⟩⟩
      · exact .inr ⟨n, hin, Nat.lt_succ_self n, hquiet, .inl (by rw [hout, hheld]; rfl)⟩
      · refine .inl ⟨hsaved.trans hheld, fun k hik hk => ?_⟩
        rcases Nat.lt_succ_iff_lt_or_eq.1 hk with hk | rfl
        · exact hquiet k hik hk
        · -- to close the deferral here would have given out the snapshot
          refine ⟨fun hclosed => ?_, hnone, hnot⟩
          have hout := hclosed.dispatchedAt
          rw [hnone, hheld] at hout
          exact absurd hout (by simp)
    · exact .inr ⟨k, hik, Nat.lt_succ_of_lt hkn, hrest⟩

/-- What was captured at position `i` is given out before `j'`, if it is the
    latest capture before an earlier position that gives something out. -/
theorem not_lt_of_latestCapture {j' : Nat} {other : WindowInsets} (hj : r.LatestCapture j i insets)
    (hj' : r.LatestCapture j' i other) (hne : r.dispatchedAt j ≠ [])
    (hne' : r.dispatchedAt j' ≠ []) : ¬j < j' := by
  intro hlt
  obtain ⟨given, hgiven⟩ := List.exists_mem_of_ne_nil _ hne'
  obtain ⟨_, i', hlatest, hquiet⟩ := latestCapture_of_dispatched hgiven
  obtain rfl := hj'.unique hlatest
  exact hne (hquiet j (Nat.le_of_lt hj.2.1) hlt)

/-- A capture that is never given out was overwritten or is held at the end. -/
theorem overwritten_or_heldAtEnd (hcap : r.CapturedAt i insets)
    (hnever : ∀ j, r.LatestCapture j i insets → insets ∉ r.dispatchedAt j) :
    r.Overwritten i ∨ r.HeldAtEnd i insets := by
  rcases fate hcap hcap.lt_length (Nat.le_refl _) with hheld | ⟨k, hik, _, hquiet, hout | hnext⟩
  · exact .inr hheld
  · exact absurd (hout ▸ List.mem_singleton_self insets)
      (hnever k ⟨hcap, hik, fun m him hmk => (hquiet m him hmk).2.2⟩)
  · obtain ⟨other, hother⟩ := hnext
    obtain ⟨p, hip, hpk, hp⟩ := exists_announced hcap hother hik
    exact .inl ⟨p, k, hip, hpk, hp, ⟨other, hother⟩, hquiet⟩

/-- No snapshot is lost and none is given out twice.

    An idle coordinator holds nothing and a deferring one holds a snapshot. What is
    dispatched was captured last and after the dispatch before, and no capture is
    dispatched at two positions. A capture that is never dispatched was overwritten
    or is held at the end. A position that closes a deferral dispatches what was
    held, once, and no other position dispatches anything. -/
theorem snapshot_conservation {σ : Type} (r : ViewRun σ) :
    (∀ i, ((r.state i).coordinator.phase = .idle → (r.state i).coordinator.saved = none) ∧
      ∀ since, (r.state i).coordinator.phase = .deferring since →
        ∃ insets, (r.state i).coordinator.saved = some insets) ∧
    (∀ j insets, insets ∈ r.dispatchedAt j → r.dispatchedAt j = [insets] ∧
      ∃ i, r.LatestCapture j i insets ∧ ∀ k, i ≤ k → k < j → r.dispatchedAt k = []) ∧
    (∀ i j j' insets other, r.LatestCapture j i insets → r.LatestCapture j' i other →
      r.dispatchedAt j ≠ [] → r.dispatchedAt j' ≠ [] → j = j') ∧
    (∀ i insets, r.CapturedAt i insets →
      (∀ j, r.LatestCapture j i insets → insets ∉ r.dispatchedAt j) →
      r.Overwritten i ∨ r.HeldAtEnd i insets) ∧
    (∀ i, (r.ClosedAt i → r.dispatchedAt i = (r.state i).coordinator.saved.toList) ∧
      (¬r.ClosedAt i → r.dispatchedAt i = [])) := by
  refine ⟨fun i => ?_, fun j insets h => latestCapture_of_dispatched h, ?_,
    fun i insets => overwritten_or_heldAtEnd,
    fun i => ⟨ClosedAt.dispatchedAt, dispatchedAt_of_not_closedAt⟩⟩
  · exact ⟨(r.settled_state i).idle, fun since h =>
      Option.ne_none_iff_exists'.1 ((r.settled_state i).deferring since h)⟩
  · intro i j j' insets other hj hj' hne hne'
    exact Nat.le_antisymm (Nat.le_of_not_lt (not_lt_of_latestCapture hj' hj hne' hne))
      (Nat.le_of_not_lt (not_lt_of_latestCapture hj hj' hne hne'))

/-- An animation announced while insets are kept back: they stay until others
    take their place, and only those are given out. -/
example (v : InsetView Unit) (first second : WindowInsets) :
    let r : ViewRun Unit := ⟨v, (), {}, [(0, .prepare .keyboard), (1, .deliver first),
      (2, .prepare .keyboard), (3, .deliver second), (4, .finish .keyboard)]⟩
    (r.state 3).coordinator = ⟨{}, .capturing 2, some first⟩ ∧ r.dispatchedAt 4 = [second] := by
  cbv

end ViewRun

end HostBridge
