import HostBridge.TaskQueue

/-!
# Scripted tasks

A task queue under the control of a script. Tasks are scripts themselves: they
say that they run and then take their own steps, which may post further tasks
and even run the queue again from within.

All postings bear the time `clock`. Steps that run the queue do so at a later
time, when every task is due, or at an earlier one, when none is.

The steps that a task takes are kept on a stack of `Work`, so that a run within
a run is finished before the outer one goes on. No step is taken twice: the
pieces of work that the waiting tasks come to, with those of the tasks that they
post, bound a run (`Work.weight`).
-/

namespace HostBridge

namespace Simulation

/-- A step of a script. -/
inductive TaskStep
  /-- Posts a task with a label and steps of its own. -/
  | post (label : String) (steps : List TaskStep)
  /-- Runs the queue after all postings. -/
  | run
  /-- Runs the queue before all postings. -/
  | runPast
  /-- Asks whether tasks are waiting. -/
  | pending
deriving Inhabited

/-- A task: a label, and the steps that it takes. -/
structure ScriptedTask where
  label : String
  steps : List TaskStep
deriving Inhabited

/-- What is seen of a run. -/
inductive TaskEvent
  /-- A task runs. -/
  | ran (label : String)
  /-- A task has taken a step, with this result. -/
  | took (label : String) (step : TaskStep) (result : Option Bool)

/-- What is still to be done in a run. -/
inductive Work
  /-- Starts a task. -/
  | start (task : ScriptedTask)
  /-- Takes the steps of a running task. -/
  | steps (label : String) (steps : List TaskStep)
  /-- Reports the end of a run that a task has started. -/
  | report (label : String) (step : TaskStep)

/-- A queue of scripted tasks. -/
abbrev ScriptQueue := TaskQueue ScriptedTask

/-- The time of all postings. -/
def clock : Int := 1

/-- The time at which a step runs the queue. -/
def TaskStep.runTime : TaskStep → Int
  | .runPast => clock - 1
  | _ => clock + 1

mutual

/-- The pieces of work that a step comes to, with those of the task that it
    posts. -/
def TaskStep.weight : TaskStep → Nat
  | .post _ steps => 3 + stepsWeight steps
  | .pending => 1
  | .run | .runPast => 2
termination_by structural s => s

/-- The pieces of work that a row of steps comes to. -/
def stepsWeight : List TaskStep → Nat
  | [] => 0
  | s :: rest => s.weight + stepsWeight rest
termination_by structural l => l

end

/-- The pieces of work that one piece comes to. -/
def Work.weight : Work → Nat
  | .start task => 2 + stepsWeight task.steps
  | .steps _ row => 1 + stepsWeight row
  | .report _ _ => 1

/-- The pieces of work that a stack comes to. -/
def workWeight : List Work → Nat
  | [] => 0
  | w :: work => w.weight + workWeight work

/-- The work of tasks that are run one after the other. -/
def starts (tasks : List (Posted ScriptedTask)) : List Work := tasks.map fun p => .start p.task

/-- Does one piece of work: the work that takes its place, the queue, and what is
    seen. -/
def Work.advance (q : ScriptQueue) : Work → List Work × ScriptQueue × List TaskEvent
  | .start task => ([.steps task.label task.steps], q, [.ran task.label])
  | .steps _ [] => ([], q, [])
  | .steps label (step :: rest) =>
    match step with
    | .post name row =>
      ([.steps label rest], q.post clock ⟨name, row⟩, [.took label step none])
    | .pending => ([.steps label rest], q, [.took label step (some q.hasPending)])
    | .run | .runPast =>
      let (due, q) := q.takeDue step.runTime
      (due.map .start ++ [.report label step, .steps label rest], q, [])
  | .report label step => ([], q, [.took label step (some q.next?.isSome)])

/-- Does the work on the stack until there is none left: the queue afterwards, and
    what is seen. -/
def drain : (fuel : Nat) → List Work → ScriptQueue → ScriptQueue × List TaskEvent
  | 0, _, q => (q, [])
  | _, [], q => (q, [])
  | fuel + 1, w :: work, q =>
    let (more, q, seen) := w.advance q
    let (q, log) := drain fuel (more ++ work) q
    (q, seen ++ log)

/-- Does all the work on the stack. -/
def finish (work : List Work) (q : ScriptQueue) : ScriptQueue × List TaskEvent :=
  drain (workWeight work + workWeight (starts q.pending)) work q

/-- Takes a step from outside: the queue after it, its result, and what was
    seen. -/
def takeStep (q : ScriptQueue) (step : TaskStep) : ScriptQueue × Option Bool × List TaskEvent :=
  match step with
  | .post label steps => (q.post clock ⟨label, steps⟩, none, [])
  | .pending => (q, some q.hasPending, [])
  | .run | .runPast =>
    let (due, rest) := q.takeDue step.runTime
    let (q, log) := finish (due.map .start) rest
    (q, some q.next?.isSome, log)

end Simulation

end HostBridge
