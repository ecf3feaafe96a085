/-!
# Events one after the other

A system that deals with one event at a time is a function `step` from a state
and an event to the next state and what comes out of the event. `Trace.run` is
what comes of a row of events, one by one, and `Trace.final` is the state at the
end. `Trace.prune` leaves out the events that come to nothing.
-/

namespace HostBridge

namespace Trace

variable {σ ε ο : Type} (step : σ → ε → σ × ο)

/-- For each event in turn, the state after it and what came out of it. -/
def run (s : σ) : List ε → List (σ × ο)
  | [] => []
  | e :: events => step s e :: run (step s e).1 events

/-- The state after all events. -/
def final (s : σ) (events : List ε) : σ := events.foldl (fun s e => (step s e).1) s

@[simp] theorem final_nil (s : σ) : final step s [] = s := rfl

@[simp] theorem final_cons (s : σ) (e : ε) (events : List ε) :
    final step s (e :: events) = final step (step s e).1 events := rfl

@[simp] theorem final_append (s : σ) (events more : List ε) :
    final step s (events ++ more) = final step (final step s events) more :=
  List.foldl_append

@[simp] theorem run_append (s : σ) (events more : List ε) :
    run step s (events ++ more) = run step s events ++ run step (final step s events) more := by
  induction events generalizing s with
  | nil => rfl
  | cons e events ih => rw [List.cons_append, run, ih, run, List.cons_append, final_cons]

@[simp] theorem length_run (s : σ) (events : List ε) :
    (run step s events).length = events.length := by
  induction events generalizing s with
  | nil => rfl
  | cons e events ih => rw [run, List.length_cons, ih, List.length_cons]

/-- What comes of the event at a position is its step from the state after the
    events before it. -/
theorem getElem?_run (s : σ) (events : List ε) (i : Nat) :
    (run step s events)[i]? = events[i]?.map (step (final step s (events.take i))) := by
  induction events generalizing s i with
  | nil => rfl
  | cons e events ih =>
    cases i with
    | zero => rfl
    | succ i => exact ih (step s e).1 i

/-- Where events leave a state as it is, each of them comes to what it would come to
    first. -/
theorem run_of_fixed {s : σ} {events : List ε} (h : ∀ e ∈ events, (step s e).1 = s) :
    run step s events = events.map (step s) := by
  induction events with
  | nil => rfl
  | cons e events ih =>
    obtain ⟨he, hevents⟩ := List.forall_mem_cons.1 h
    rw [run, he, ih hevents, List.map_cons]

/-- What every step keeps holds at the end. -/
theorem final_induction {P : σ → Prop} {s : σ} {events : List ε} (hs : P s)
    (hstep : ∀ s, ∀ e ∈ events, P s → P (step s e).1) : P (final step s events) := by
  induction events generalizing s with
  | nil => exact hs
  | cons e events ih =>
    exact ih (hstep s e List.mem_cons_self hs)
      fun s a ha => hstep s a (List.mem_cons_of_mem e ha)

/-- The events without those whose outcome is `idle`. -/
def prune (idle : ο → Bool) (s : σ) : List ε → List ε
  | [] => []
  | e :: events =>
    if idle (step s e).2 then prune idle (step s e).1 events
    else e :: prune idle (step s e).1 events

/-- If idle events leave the state as it is, they can be left out: the others come to
    the same, and the state at the end is the same. -/
theorem run_prune {idle : ο → Bool} (h : ∀ s e, idle (step s e).2 = true → (step s e).1 = s)
    (s : σ) (events : List ε) :
    run step s (prune step idle s events) = (run step s events).filter (fun x => !idle x.2) ∧
      final step s (prune step idle s events) = final step s events := by
  induction events generalizing s with
  | nil => exact ⟨rfl, rfl⟩
  | cons e events ih =>
    obtain ⟨hrun, hfinal⟩ := ih (step s e).1
    rw [prune, run, final_cons]
    cases hidle : idle (step s e).2 with
    | true =>
      rw [if_pos rfl, List.filter_cons_of_neg (by simp [hidle])]
      rw [h s e hidle] at hrun hfinal ⊢
      exact ⟨hrun, hfinal⟩
    | false =>
      rw [if_neg Bool.false_ne_true, run, final_cons, List.filter_cons_of_pos (by simp [hidle])]
      exact ⟨congrArg _ hrun, hfinal⟩

end Trace

end HostBridge
