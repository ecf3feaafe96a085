import HostBridge.Proofs.Tasks.Turns
import HostBridge.Simulation.ScriptedTasks

/-!
# Scripted tasks on a queue

A script runs its queue by a stack of work, with a bound on the pieces of work. The
bound is large enough (`Simulation.drain_of_le`), and the stack computes what is said
here without it: to run a task is to take its steps, one after the other, as they are
taken from outside (`Simulation.perform`), and to run the queue is to execute the tasks
that are due (`Simulation.takeStep_eq_execute`). This goes for runs within runs too.

* `Simulation.workWeight_advance`: each piece of work leaves fewer pieces to do, from
  which comes induction on the work (`Simulation.work_induction`).
* `Simulation.finish_append`: work that stands behind other work waits for it.
* `Simulation.step_of_event`: where tasks do not run the queue, what happens to the
  script is what happens to the loop of a program.
-/

namespace HostBridge

namespace Simulation

variable {step : TaskStep}

/-! ## The weight of work -/

@[simp] theorem workWeight_append (work more : List Work) :
    workWeight (work ++ more) = workWeight work + workWeight more := by
  induction work with
  | nil => exact (Nat.zero_add _).symm
  | cons w work ih => rw [List.cons_append, workWeight, ih, workWeight, Nat.add_assoc]

theorem workWeight_perm {work more : List Work} (h : work.Perm more) :
    workWeight work = workWeight more := by
  induction h with
  | nil => rfl
  | cons w _ ih => rw [workWeight, ih, workWeight]
  | swap v w work => exact Nat.add_left_comm _ _ _
  | trans _ _ ih ih' => exact ih.trans ih'

theorem workWeight_le_of_sublist {work more : List Work} (h : work.Sublist more) :
    workWeight work ≤ workWeight more := by
  induction h with
  | slnil => exact Nat.le_refl _
  | cons w _ ih => exact Nat.le_trans ih (Nat.le_add_left _ _)
  | cons_cons w _ ih => exact Nat.add_le_add_left ih _

/-- What is put into a queue adds its own weight at most: where its number is taken,
    nothing is added. -/
theorem workWeight_push (p : Posted ScriptedTask) (pending : List (Posted ScriptedTask)) :
    workWeight (starts (TaskQueue.push p pending)) ≤
      (Work.start p.task).weight + workWeight (starts pending) := by
  rw [TaskQueue.push]
  split
  · exact Nat.le_of_eq (workWeight_perm ((Posted.insert_perm p pending).map _))
  · next r hfind =>
    obtain ⟨hr, as, bs, rfl, -⟩ := List.find?_eq_some_iff_append.1 hfind
    -- the task `r` keeps its place in the queue, among what is left by the filter
    have hrest : ((as ++ r :: bs).filter (·.order != p.order)).Sublist (as ++ bs) := by
      rw [List.filter_append, List.filter_cons_of_neg (by simpa using hr)]
      exact List.filter_sublist.append List.filter_sublist
    have hle := workWeight_le_of_sublist (hrest.map fun p => Work.start p.task)
    have hinsert := workWeight_perm ((Posted.insert_perm { p with task := r.task }
      ((as ++ r :: bs).filter (·.order != p.order))).map fun p => Work.start p.task)
    simp only [starts, List.map_append, workWeight_append, List.map_cons, workWeight]
      at hle hinsert ⊢
    omega

/-- The tasks that are due are taken out with their weight. -/
theorem workWeight_takeDue (q : ScriptQueue) (now : Int) :
    workWeight ((q.takeDue now).1.map .start) + workWeight (starts (q.takeDue now).2.pending) =
      workWeight (starts q.pending) := by
  rw [TaskQueue.takeDue, List.map_map, ← workWeight_append]
  exact congrArg workWeight (List.map_append.symm.trans
    (congrArg starts List.takeWhile_append_dropWhile))

/-- Each piece of work leaves fewer pieces to do. -/
theorem workWeight_advance (w : Work) (q : ScriptQueue) :
    workWeight (w.advance q).1 + workWeight (starts (w.advance q).2.1.pending) <
      w.weight + workWeight (starts q.pending) := by
  cases w with
  | start task =>
    simp only [Work.advance, workWeight, Work.weight]
    omega
  | report label step =>
    simp only [Work.advance, workWeight, Work.weight]
    omega
  | steps label row =>
    cases row with
    | nil =>
      simp only [Work.advance, workWeight, Work.weight]
      omega
    | cons step rest =>
      have hturn := workWeight_takeDue q step.runTime
      cases step with
      | post name row =>
        have hpush := workWeight_push ⟨clock, q.nextOrder, ⟨name, row⟩⟩ q.pending
        simp only [Work.advance, TaskQueue.post, workWeight, Work.weight, stepsWeight,
          TaskStep.weight] at hpush ⊢
        omega
      | pending =>
        simp only [Work.advance, workWeight, Work.weight, stepsWeight, TaskStep.weight]
        omega
      | run | runPast =>
        simp only [Work.advance, workWeight_append, workWeight, Work.weight, stepsWeight,
          TaskStep.weight]
        omega

/-! ## All the work -/

theorem drain_succ (fuel : Nat) (w : Work) (work : List Work) (q : ScriptQueue) :
    drain (fuel + 1) (w :: work) q =
      ((drain fuel ((w.advance q).1 ++ work) (w.advance q).2.1).1,
        (w.advance q).2.2 ++ (drain fuel ((w.advance q).1 ++ work) (w.advance q).2.1).2) :=
  rfl

/-- What holds without work, and of a piece of work if it holds of what that leaves to
    do, holds of all work. -/
theorem work_induction {P : List Work → ScriptQueue → Prop} (nil : ∀ q, P [] q)
    (cons : ∀ w work q, P ((w.advance q).1 ++ work) (w.advance q).2.1 → P (w :: work) q)
    (work : List Work) (q : ScriptQueue) : P work q := by
  suffices h : ∀ n work q, workWeight work + workWeight (starts q.pending) < n → P work q from
    h _ work q (Nat.lt_succ_self _)
  intro n
  induction n with
  | zero => exact fun _ _ h => absurd h (Nat.not_lt_zero _)
  | succ n ih =>
    intro work q hn
    cases work with
    | nil => exact nil q
    | cons w work =>
      refine cons w work q (ih _ _ ?_)
      have hlt := workWeight_advance w q
      rw [workWeight_append]
      rw [workWeight] at hn
      omega

/-- A bound that is not below the weight does not matter. -/
theorem drain_of_le (work : List Work) (q : ScriptQueue) {fuel : Nat}
    (h : workWeight work + workWeight (starts q.pending) ≤ fuel) :
    drain fuel work q = finish work q := by
  rw [finish]
  suffices hall : ∀ fuel limit, workWeight work + workWeight (starts q.pending) ≤ fuel →
      workWeight work + workWeight (starts q.pending) ≤ limit →
      drain fuel work q = drain limit work q from hall _ _ h (Nat.le_refl _)
  clear h
  induction work, q using work_induction with
  | nil q =>
    intro fuel limit _ _
    cases fuel <;> cases limit <;> rfl
  | cons w work q ih =>
    intro fuel limit hfuel hlimit
    have hlt := workWeight_advance w q
    rw [workWeight_append] at ih
    rw [workWeight] at hfuel hlimit
    obtain ⟨fuel, rfl⟩ := Nat.exists_eq_add_one.2 (show 0 < fuel by omega)
    obtain ⟨limit, rfl⟩ := Nat.exists_eq_add_one.2 (show 0 < limit by omega)
    rw [drain_succ, drain_succ, ih fuel limit (by omega) (by omega)]

@[simp] theorem finish_nil (q : ScriptQueue) : finish [] q = (q, []) := by
  rw [finish]
  cases workWeight [] + workWeight (starts q.pending) <;> rfl

/-- A piece of work is done, and then what it leaves to do. -/
theorem finish_cons (w : Work) (work : List Work) (q : ScriptQueue) : finish (w :: work) q =
    ((finish ((w.advance q).1 ++ work) (w.advance q).2.1).1,
      (w.advance q).2.2 ++ (finish ((w.advance q).1 ++ work) (w.advance q).2.1).2) := by
  have hlt := workWeight_advance w q
  rw [finish, workWeight]
  obtain ⟨fuel, hfuel⟩ := Nat.exists_eq_add_one.2
    (show 0 < w.weight + workWeight work + workWeight (starts q.pending) by omega)
  rw [hfuel, drain_succ, drain_of_le _ _ (by rw [workWeight_append]; omega)]

/-- Work that stands behind other work waits for it. -/
theorem finish_append (work more : List Work) (q : ScriptQueue) : finish (work ++ more) q =
    ((finish more (finish work q).1).1,
      (finish work q).2 ++ (finish more (finish work q).1).2) := by
  induction work, q using work_induction with
  | nil q => rw [List.nil_append, finish_nil]; rfl
  | cons w work q ih =>
    rw [List.cons_append, finish_cons, finish_cons, ← List.append_assoc, ih, List.append_assoc]

/-! ## Running tasks -/

/-- A task takes a step: it is the step that is taken from outside, with a note of its
    result. -/
def takeWithin (label : String) (s : ScriptQueue × List TaskEvent) (step : TaskStep) :
    ScriptQueue × List TaskEvent :=
  let (q, result, log) := takeStep s.1 step
  (q, s.2 ++ log ++ [.took label step result])

theorem takeWithin_eq (label : String) (q : ScriptQueue) (log : List TaskEvent) (step : TaskStep) :
    takeWithin label (q, log) step = ((takeStep q step).1,
      log ++ (takeStep q step).2.2 ++ [.took label step (takeStep q step).2.1]) :=
  rfl

/-- A task runs: it says so, and takes its steps. -/
def perform (task : ScriptedTask) (s : ScriptQueue × List TaskEvent) :
    ScriptQueue × List TaskEvent :=
  task.steps.foldl (takeWithin task.label) (s.1, s.2 ++ [.ran task.label])

/-- A step runs the queue. -/
inductive TaskStep.Runs : TaskStep → Prop
  | run : Runs .run
  | runPast : Runs .runPast

/-- The first of the steps of a task is taken, and then the others. -/
theorem finish_steps_cons (label : String) (step : TaskStep) (rest : List TaskStep)
    (q : ScriptQueue) : finish [.steps label (step :: rest)] q =
      ((finish [.steps label rest] (takeStep q step).1).1,
        (takeStep q step).2.2 ++ .took label step (takeStep q step).2.1 ::
          (finish [.steps label rest] (takeStep q step).1).2) := by
  rw [finish_cons]
  cases step with
  | post name row => rfl
  | pending => rfl
  | run | runPast =>
    simp only [Work.advance, List.append_nil, List.nil_append, takeStep]
    rw [finish_append, finish_cons (.report _ _)]
    simp only [Work.advance, List.nil_append, List.singleton_append]

/-- The steps of a task are taken one after the other. -/
theorem foldl_takeWithin (label : String) (row : List TaskStep) (q : ScriptQueue)
    (log : List TaskEvent) : row.foldl (takeWithin label) (q, log) =
      ((finish [.steps label row] q).1, log ++ (finish [.steps label row] q).2) := by
  induction row generalizing q log with
  | nil => simp [finish_cons, Work.advance]
  | cons step rest ih =>
    rw [List.foldl_cons, finish_steps_cons, takeWithin_eq, ih]
    simp only [List.append_assoc, List.singleton_append]

/-- The work of tasks that are run one after the other is to run them so. -/
theorem foldl_perform (due : List ScriptedTask) (q : ScriptQueue) (log : List TaskEvent) :
    due.foldl (fun s task => perform task s) (q, log) =
      ((finish (due.map .start) q).1, log ++ (finish (due.map .start) q).2) := by
  induction due generalizing q log with
  | nil => simp
  | cons task due ih =>
    have hstart : finish [.start task] q = ((finish [.steps task.label task.steps] q).1,
        .ran task.label :: (finish [.steps task.label task.steps] q).2) := finish_cons _ _ _
    have hdue : finish (.start task :: due.map .start) q =
        finish ([.start task] ++ due.map .start) q := rfl
    rw [List.foldl_cons, perform, foldl_takeWithin, ih, List.map_cons, hdue, finish_append, hstart]
    simp only [List.append_assoc, List.cons_append, List.nil_append]

/-- A step that runs the queue does the work of the tasks that are due. -/
theorem takeStep_of_runs (h : step.Runs) (q : ScriptQueue) : takeStep q step =
    let done := finish ((q.takeDue step.runTime).1.map .start) (q.takeDue step.runTime).2
    (done.1, some done.1.next?.isSome, done.2) := by
  cases h <;> rfl

/-- To run the queue is to execute the tasks that are due, each of which takes its steps
    as they are taken from outside; the step tells whether a task is still waiting. -/
theorem takeStep_eq_execute (h : step.Runs) (q : ScriptQueue) :
    let turn := TaskQueue.execute (fun s : ScriptQueue × List TaskEvent => s.1)
      (fun q s => (q, s.2)) perform step.runTime (q, [])
    takeStep q step = (turn.1.1, some turn.2.isSome, turn.1.2) := by
  rw [takeStep_of_runs h]
  simp only [TaskQueue.execute, foldl_perform, List.nil_append]

/-- A task that runs the queue while it runs: the task that it has posted overtakes the one
    that was taken out with it. -/
example :
    let q : ScriptQueue := (TaskQueue.empty.post clock ⟨"first", [.post "last" [], .run]⟩).post
      clock ⟨"second", []⟩
    (takeStep q .run).2.2 = [.ran "first", .took "first" (.post "last" []) none, .ran "last",
      .took "first" .run (some false), .ran "second"] := by
  cbv

/-! ## The loop of a program -/

/-- The task that a step posts. -/
def TaskStep.posted? : TaskStep → Option ScriptedTask
  | .post label steps => some ⟨label, steps⟩
  | _ => none

/-- The program of scripted tasks on what has been seen: a task sees what it would see on
    the queue of the loop, and posts the tasks of its steps. -/
def scriptProgram : TaskProgram (List TaskEvent) ScriptedTask where
  clock := ⟨fun _ => clock, fun _ => Int.le_refl clock⟩
  act task l := ((perform task (l.queue, l.state)).2, task.steps.filterMap TaskStep.posted?)

/-- What a step of a script means for the loop of the program. -/
def TaskStep.event? : TaskStep → Option (TaskLoopEvent (List TaskEvent) ScriptedTask)
  | .post label steps => some (.post ⟨label, steps⟩)
  | .pending => none
  | .run => some (.turn TaskStep.run.runTime)
  | .runPast => some (.turn TaskStep.runPast.runTime)

/-- No step of a task runs the queue. -/
def ScriptedTask.Plain (task : ScriptedTask) : Prop := ∀ step ∈ task.steps, ¬step.Runs

variable {task : ScriptedTask}

/-- The label of a task of which is seen that it runs. -/
def TaskEvent.ran? : TaskEvent → Option String
  | .ran label => some label
  | .took _ _ _ => none

/-- A step that does not run the queue only posts its task, if it has one. -/
theorem takeStep_of_not_runs (h : ¬step.Runs) (q : ScriptQueue) :
    (takeStep q step).1 = step.posted?.elim q (q.post clock) ∧ (takeStep q step).2.2 = [] := by
  cases step with
  | post label steps => exact ⟨rfl, rfl⟩
  | pending => exact ⟨rfl, rfl⟩
  | run => exact absurd .run h
  | runPast => exact absurd .runPast h

/-- Steps that do not run the queue post their tasks, in order, and run none. -/
theorem foldl_takeWithin_of_plain {row : List TaskStep} (h : ∀ step ∈ row, ¬step.Runs)
    (label : String) (q : ScriptQueue) (log : List TaskEvent) :
    (row.foldl (takeWithin label) (q, log)).1 =
        (row.filterMap TaskStep.posted?).foldl (fun q task => q.post clock task) q ∧
      (row.foldl (takeWithin label) (q, log)).2.filterMap TaskEvent.ran? =
        log.filterMap TaskEvent.ran? := by
  induction row generalizing q log with
  | nil => exact ⟨rfl, rfl⟩
  | cons step rest ih =>
    obtain ⟨hstep, hrest⟩ := List.forall_mem_cons.1 h
    obtain ⟨hqueue, hlog⟩ := takeStep_of_not_runs hstep q
    obtain ⟨hposted, hran⟩ := ih hrest (takeStep q step).1
      (log ++ [] ++ [.took label step (takeStep q step).2.1])
    rw [List.foldl_cons, takeWithin_eq, hlog, hposted, hran, hqueue]
    refine ⟨?_, by simp [TaskEvent.ran?]⟩
    cases hpost : step.posted? with
    | none => rw [List.filterMap_cons_none hpost]; rfl
    | some task => rw [List.filterMap_cons_some hpost]; rfl

/-- A task that does not run the queue posts the tasks of its steps, in order, and is the
    only one that runs. -/
theorem perform_of_plain (h : task.Plain) (q : ScriptQueue) (log : List TaskEvent) :
    (perform task (q, log)).1 =
        (task.steps.filterMap TaskStep.posted?).foldl (fun q task => q.post clock task) q ∧
      (perform task (q, log)).2.filterMap TaskEvent.ran? =
        log.filterMap TaskEvent.ran? ++ [task.label] := by
  obtain ⟨hqueue, hran⟩ := foldl_takeWithin_of_plain h task.label q (log ++ [.ran task.label])
  rw [List.filterMap_append] at hran
  exact ⟨hqueue, hran⟩

/-- Of tasks that do not run the queue is seen that they run, one after the other. -/
theorem ran_foldl_perform {due : List ScriptedTask} (h : ∀ task ∈ due, task.Plain)
    (s : ScriptQueue × List TaskEvent) :
    (due.foldl (fun s task => perform task s) s).2.filterMap TaskEvent.ran? =
      s.2.filterMap TaskEvent.ran? ++ due.map (·.label) := by
  induction due generalizing s with
  | nil => exact (List.append_nil _).symm
  | cons task due ih =>
    obtain ⟨htask, hdue⟩ := List.forall_mem_cons.1 h
    rw [List.foldl_cons, ih hdue, (perform_of_plain htask s.1 s.2).2, List.append_assoc]
    rfl

/-- Postings of the program change the queue only. -/
theorem foldl_post (tasks : List ScriptedTask) (l : TaskLoop (List TaskEvent) ScriptedTask) :
    (tasks.foldl (TaskLoop.post scriptProgram.clock) l).queue =
        tasks.foldl (fun q task => q.post clock task) l.queue ∧
      (tasks.foldl (TaskLoop.post scriptProgram.clock) l).state = l.state := by
  induction tasks generalizing l with
  | nil => exact ⟨rfl, rfl⟩
  | cons task tasks ih => exact ih (l.post scriptProgram.clock task)

/-- To run a task in the loop is to run it on the queue. -/
theorem run_of_plain (h : task.Plain) (l : TaskLoop (List TaskEvent) ScriptedTask) :
    ((l.run scriptProgram task).queue, (l.run scriptProgram task).state) =
      perform task (l.queue, l.state) := by
  obtain ⟨hqueue, hstate⟩ := foldl_post (task.steps.filterMap TaskStep.posted?)
    { l with ran := l.ran ++ [task], state := (perform task (l.queue, l.state)).2 }
  rw [← (perform_of_plain h l.queue l.state).1] at hqueue
  exact Prod.ext hqueue hstate

theorem runs_of_plain {due : List ScriptedTask} (h : ∀ task ∈ due, task.Plain)
    (l : TaskLoop (List TaskEvent) ScriptedTask) :
    let last := due.foldl (fun l task => l.run scriptProgram task) l
    (last.queue, last.state) = due.foldl (fun s task => perform task s) (l.queue, l.state) := by
  induction due generalizing l with
  | nil => rfl
  | cons task due ih =>
    obtain ⟨htask, hdue⟩ := List.forall_mem_cons.1 h
    rw [List.foldl_cons, List.foldl_cons, ← run_of_plain htask]
    exact ih hdue (l.run scriptProgram task)

/-- A turn of the loop runs the tasks that a step runs. -/
theorem turn_of_plain {l : TaskLoop (List TaskEvent) ScriptedTask}
    (hplain : ∀ p ∈ l.queue.pending, p.task.Plain) (h : step.Runs) :
    (l.turn scriptProgram step.runTime).1.queue = (takeStep l.queue step).1 ∧
      (l.turn scriptProgram step.runTime).1.state = l.state ++ (takeStep l.queue step).2.2 ∧
      some (l.turn scriptProgram step.runTime).2.isSome = (takeStep l.queue step).2.1 ∧
      (l.turn scriptProgram step.runTime).1.ran.map (·.label) =
        l.ran.map (·.label) ++ (takeStep l.queue step).2.2.filterMap TaskEvent.ran? := by
  have hdue : ∀ task ∈ (l.queue.takeDue step.runTime).1, task.Plain :=
    List.forall_mem_map.2 fun p hp => hplain p ((List.takeWhile_sublist _).subset hp)
  have hruns := runs_of_plain hdue { l with queue := (l.queue.takeDue step.runTime).2 }
  have hran := ran_foldl_perform hdue ((l.queue.takeDue step.runTime).2, [])
  rw [foldl_perform] at hruns hran
  obtain ⟨hqueue, hstate⟩ := Prod.mk.inj hruns
  rw [takeStep_of_runs h, TaskLoop.ran_turn, List.map_append]
  exact ⟨hqueue, hstate, congrArg (fun q => some (TaskQueue.next? q).isSome) hqueue,
    congrArg (_ ++ ·) hran.symm⟩

/-- What happens to a script whose waiting tasks do not run the queue is what happens to
    the loop of the program: the queue afterwards is the same, what is seen goes behind
    what was seen before, the tasks of which is seen that they run are those that are run,
    and a turn tells whether a task is still waiting. -/
theorem step_of_event {l : TaskLoop (List TaskEvent) ScriptedTask}
    (hplain : ∀ p ∈ l.queue.pending, p.task.Plain)
    {event : TaskLoopEvent (List TaskEvent) ScriptedTask} (h : step.event? = some event) :
    (l.step scriptProgram event).1.queue = (takeStep l.queue step).1 ∧
      (l.step scriptProgram event).1.state = l.state ++ (takeStep l.queue step).2.2 ∧
      (l.step scriptProgram event).1.ran.map (·.label) =
        l.ran.map (·.label) ++ (takeStep l.queue step).2.2.filterMap TaskEvent.ran? ∧
      (step.Runs → some (l.step scriptProgram event).2.isSome = (takeStep l.queue step).2.1) := by
  cases step with
  | post label steps =>
    obtain rfl := Option.some.inj h
    exact ⟨rfl, (List.append_nil _).symm, (List.append_nil _).symm, fun h => by cases h⟩
  | pending => exact absurd h (by simp [TaskStep.event?])
  | run =>
    obtain rfl := Option.some.inj h
    obtain ⟨hqueue, hstate, hnext, hran⟩ := turn_of_plain hplain .run
    exact ⟨hqueue, hstate, hran, fun _ => hnext⟩
  | runPast =>
    obtain rfl := Option.some.inj h
    obtain ⟨hqueue, hstate, hnext, hran⟩ := turn_of_plain hplain .runPast
    exact ⟨hqueue, hstate, hran, fun _ => hnext⟩

end Simulation

end HostBridge
