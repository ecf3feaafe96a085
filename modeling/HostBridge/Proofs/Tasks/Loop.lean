import HostBridge.Proofs.Tasks.Waiting
import HostBridge.TaskLoop

/-!
# First in, first out

Nothing is lost in a loop, nothing is done twice, and nothing overtakes. In the
middle of a turn there are three kinds of tasks that have been posted: those that
were run, those that are taken out of the queue to be run in this turn, and those
that wait in the queue. Put behind one another they are the tasks that were
posted, in the order of the postings (`TaskLoop.Accounts`). The invariant holds
as long as the numbers of the postings do not start again (`TaskLoop.Orderly`).

* `TaskLoop.Orderly.post`, `TaskLoop.Orderly.run`: a posting keeps it, and running
  the first of the tasks that were taken out keeps it for the others.
* `TaskLoop.Orderly.turn`: so does a whole turn.
* `TaskRun.posted_within_turn`: the account in the middle of a turn.
* `TaskRun.first_in_first_out`: the tasks that were run and those that wait are
  those that were posted.
-/

namespace HostBridge

namespace TaskLoop

variable {σ α : Type}

/-! ## The account of a loop -/

/-- While `due` is still to be run in this turn, exactly `waiting` waits in the
    queue, and together with what was run this is what was posted, in order. No
    waiting task was posted later than the clock reads now. -/
structure Accounts (clock : Clock) (due : List α) (waiting : List (Int × α))
    (l : TaskLoop σ α) : Prop where
  queued : l.queue.Queued (l.ran.length + due.length) waiting
  posted : l.ran ++ due ++ waiting.map (·.2) = l.posted
  past : ∀ w ∈ waiting, w.1 ≤ clock.read l.posted.length

/-- The account of a loop is in order, unless too many tasks were posted for their
    numbers. -/
def Orderly (clock : Clock) (due : List α) (l : TaskLoop σ α) : Prop :=
  l.posted.length < UInt64.size → ∃ waiting, l.Accounts clock due waiting

variable {clock : Clock} {due : List α} {waiting : List (Int × α)} {l : TaskLoop σ α}

theorem Accounts.length_posted (h : l.Accounts clock due waiting) :
    l.ran.length + due.length + waiting.length = l.posted.length := by
  rw [← h.posted, List.length_append, List.length_append, List.length_map]

theorem Accounts.post (h : l.Accounts clock due waiting) (hsize : l.posted.length < UInt64.size)
    (task : α) : (l.post clock task).Accounts clock due
      (waiting ++ [(clock.read l.posted.length, task)]) where
  queued := h.queued.post (by rwa [h.length_posted]) h.past task
  posted := by
    rw [List.map_append, ← List.append_assoc]
    exact congrArg (· ++ [task]) h.posted
  past := by
    have hlength : (l.post clock task).posted.length = l.posted.length + 1 := List.length_append
    -- what the clock read before, it has read by now
    have hmono := clock.mono (Nat.le_succ l.posted.length)
    intro w hw
    rw [hlength]
    rcases List.mem_append.1 hw with hw | hw
    · exact Int.le_trans (h.past w hw) hmono
    · rw [List.mem_singleton.1 hw]
      exact hmono

/-! ## One step -/

theorem orderly_start (state : σ) : (start state : TaskLoop σ α).Orderly clock [] :=
  fun _ => ⟨[], TaskQueue.queued_empty, rfl, fun _ hw => absurd hw List.not_mem_nil⟩

/-- The state plays no part. -/
theorem Orderly.change (h : l.Orderly clock due) (state : σ) :
    { l with state }.Orderly clock due := by
  intro hsize
  obtain ⟨waiting, ha⟩ := h hsize
  exact ⟨waiting, ha.queued, ha.posted, ha.past⟩

theorem Orderly.post (h : l.Orderly clock due) (task : α) :
    (l.post clock task).Orderly clock due := by
  intro hsize
  have hbefore : l.posted.length < UInt64.size := by
    refine Nat.lt_of_succ_lt ?_
    rwa [TaskLoop.post, List.length_append] at hsize
  obtain ⟨waiting, ha⟩ := h hbefore
  exact ⟨_, ha.post hbefore task⟩

theorem Orderly.posts (h : l.Orderly clock due) (tasks : List α) :
    (tasks.foldl (TaskLoop.post clock) l).Orderly clock due := by
  induction tasks generalizing l with
  | nil => exact h
  | cons task tasks ih => exact ih (h.post task)

variable {program : TaskProgram σ α}

/-- Running the first task that was taken out leaves the others to be run. -/
theorem Orderly.run {task : α} (h : l.Orderly program.clock (task :: due)) :
    (l.run program task).Orderly program.clock due := by
  have hran : { l with ran := l.ran ++ [task] }.Orderly program.clock due := by
    intro hsize
    obtain ⟨waiting, ha⟩ := h hsize
    refine ⟨waiting, ?_, ?_, ha.past⟩
    · change l.queue.Queued ((l.ran ++ [task]).length + due.length) waiting
      rw [List.length_append, Nat.add_right_comm]
      exact ha.queued
    · rw [← ha.posted, List.append_assoc l.ran [task] due]
      rfl
  exact (hran.change _).posts _

theorem Orderly.runs {done : List α} (h : l.Orderly program.clock (done ++ due)) :
    (done.foldl (fun l task => l.run program task) l).Orderly program.clock due := by
  induction done generalizing l with
  | nil => exact h
  | cons task done ih => exact ih h.run

/-- Between two turns the tasks that are due may be taken out. -/
theorem Orderly.takeDue (h : l.Orderly clock []) (now : Int) :
    { l with queue := (l.queue.takeDue now).2 }.Orderly clock (l.queue.takeDue now).1 := by
  intro hsize
  obtain ⟨waiting, ha⟩ := h hsize
  obtain ⟨hdue, hrest⟩ := ha.queued.takeDue now
  refine ⟨waiting.dropWhile (·.1 ≤ now), ?_, ?_, ?_⟩
  · rw [hdue, List.length_map]
    exact hrest
  · rw [← ha.posted, hdue, List.append_assoc, ← List.map_append, List.takeWhile_append_dropWhile,
      List.append_nil]
  · exact fun w hw => ha.past w ((List.dropWhile_sublist _).subset hw)

theorem Orderly.turn (h : l.Orderly program.clock []) (now : Int) :
    (l.turn program now).1.Orderly program.clock [] := by
  have hdue := h.takeDue now
  rw [← List.append_nil (l.queue.takeDue now).1] at hdue
  exact hdue.runs

/-- Whatever happens, the account of a loop stays in order. -/
theorem Orderly.step (h : l.Orderly program.clock []) (event : TaskLoopEvent σ α) :
    (l.step program event).1.Orderly program.clock [] := by
  cases event with
  | post task => exact h.post task
  | turn now => exact h.turn now
  | change state => exact h.change state

end TaskLoop

namespace TaskRun

open TaskLoop

variable {σ α : Type} (r : TaskRun σ α)

theorem orderly_loop : r.loop.Orderly r.program.clock [] :=
  Trace.final_induction _ (orderly_start r.state) fun _ event _ h => h.step event

/-- In the middle of a turn, when `done` has been run and `due` has not, what was run,
    what is still to be run and what waits is what was posted. -/
theorem posted_within_turn {now : Int} {done due : List α}
    (hturn : (r.loop.queue.takeDue now).1 = done ++ due) :
    let l := done.foldl (fun l task => l.run r.program task)
      { r.loop with queue := (r.loop.queue.takeDue now).2 }
    l.posted.length < UInt64.size →
      l.ran ++ due ++ l.queue.pending.map (·.task) = l.posted := by
  intro l hsize
  have hdue := r.orderly_loop.takeDue now
  rw [hturn] at hdue
  obtain ⟨waiting, ha⟩ := hdue.runs hsize
  rw [ha.queued.map_task]
  exact ha.posted

/-- The queue loses, repeats and reorders nothing. Until too many tasks are posted for
    their numbers:

    * the tasks that were run, and behind them those that wait, are the tasks that
      were posted, in the order of the postings;
    * the numbers of the waiting tasks follow one another, are different, and lie
      below that of the next posting;
    * so a posting adds a task and replaces none. -/
theorem first_in_first_out (hfew : r.loop.posted.length < UInt64.size) :
    r.loop.ran ++ r.loop.queue.pending.map (·.task) = r.loop.posted ∧
    r.loop.queue.pending.map (·.order) =
      (List.range' r.loop.ran.length r.loop.queue.pending.length).map UInt64.ofNat ∧
    r.loop.queue.pending.Pairwise (·.order < ·.order) ∧
    (∀ p ∈ r.loop.queue.pending, p.order < r.loop.queue.nextOrder) ∧
    ∀ time task, (r.loop.queue.post time task).pending.Perm
      (⟨time, r.loop.queue.nextOrder, task⟩ :: r.loop.queue.pending) := by
  obtain ⟨waiting, ha⟩ := r.orderly_loop hfew
  have hqueued := ha.queued
  have hlength := ha.length_posted
  rw [List.length_nil, Nat.add_zero] at hqueued hlength
  have hsize : r.loop.ran.length + waiting.length < UInt64.size := hlength ▸ hfew
  refine ⟨?_, hqueued.map_order, hqueued.pairwise_order hsize, hqueued.order_lt hsize, ?_⟩
  · rw [hqueued.map_task, ← ha.posted, List.append_nil]
  · intro time task
    rw [TaskQueue.post, hqueued.push_next hsize]
    exact Posted.insert_perm _ _

/-- Tasks that count down: a turn before all postings runs none, and the task that a task
    posts waits for the next turn. -/
theorem first_in_first_out_countdown :
    let r : TaskRun Unit Nat := {
      program := {
        clock := ⟨Nat.cast, Int.ofNat_le.2⟩
        act := fun n _ => ((), if n = 0 then [] else [n - 1]) }
      state := ()
      events := [.post 2, .turn (-1), .post 0, .turn 5, .turn 1] }
    r.loop.posted.length < UInt64.size ∧ r.loop.ran = [2, 0] ∧
      r.loop.ran ++ r.loop.queue.pending.map (·.task) = [2, 0, 1] := by
  intro r
  have hfew : r.loop.posted.length < UInt64.size := by decide
  obtain ⟨hposted, -⟩ := r.first_in_first_out hfew
  exact ⟨hfew, by decide, hposted.trans (by decide)⟩

end TaskRun

end HostBridge
