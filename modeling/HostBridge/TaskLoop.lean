import HostBridge.TaskQueue
import HostBridge.Trace

/-!
# A loop that runs tasks

A task queue in use. Tasks are posted from outside and by tasks that run; each
bears the time that a clock reads at its posting. What a task does may depend on
all that has happened before, and on a state that it may also change.

* `TaskLoop.post` posts a task now.
* `TaskLoop.run` runs a task, which may post others.
* `TaskLoop.turn` is a turn of the loop: the tasks that are due are run. The
  time of a turn is any time, before or after that of the clock.

A loop keeps a record of the tasks that were posted and of those that were run.
-/

namespace HostBridge

/-- A clock that never goes back. -/
structure Clock where
  /-- What it reads when a number of tasks have been posted already. -/
  read : Nat → Int
  mono : ∀ {i j : Nat}, i ≤ j → read i ≤ read j

/-- A task queue, what its tasks act on, and what has happened. -/
structure TaskLoop (σ α : Type) where
  /-- What the tasks act on. -/
  state : σ
  queue : TaskQueue α
  /-- All tasks that were posted, in the order of their postings. -/
  posted : List α
  /-- All tasks that were run, in the order in which they were run. -/
  ran : List α

/-- What the tasks of a loop do. -/
structure TaskProgram (σ α : Type) where
  clock : Clock
  /-- What a task makes of the state, and the tasks that it posts. -/
  act : α → TaskLoop σ α → σ × List α

/-- What happens to a loop. -/
inductive TaskLoopEvent (σ α : Type)
  /-- A task is posted from outside. -/
  | post (task : α)
  /-- A turn at a point in time. -/
  | turn (now : Int)
  /-- The state is changed from outside. -/
  | change (state : σ)
deriving DecidableEq

namespace TaskLoop

variable {σ α : Type}

/-- A loop in which nothing has been posted. -/
def start (state : σ) : TaskLoop σ α := ⟨state, .empty, [], []⟩

/-- Posts a task now. -/
def post (clock : Clock) (l : TaskLoop σ α) (task : α) : TaskLoop σ α :=
  { l with
    queue := l.queue.post (clock.read l.posted.length) task
    posted := l.posted ++ [task] }

variable (program : TaskProgram σ α)

/-- Runs a task. -/
def run (task : α) (l : TaskLoop σ α) : TaskLoop σ α :=
  let l := { l with ran := l.ran ++ [task] }
  let (state, more) := program.act task l
  more.foldl (post program.clock) { l with state }

/-- A turn of the loop, which tells when the next task is due. -/
def turn (now : Int) (l : TaskLoop σ α) : TaskLoop σ α × Option Int :=
  TaskQueue.execute (·.queue) (fun queue l => { l with queue }) (run program) now l

/-- The loop after an event, and what a turn tells. -/
def step (l : TaskLoop σ α) : TaskLoopEvent σ α → TaskLoop σ α × Option Int
  | .post task => (l.post program.clock task, none)
  | .turn now => l.turn program now
  | .change state => ({ l with state }, none)

end TaskLoop

/-- A loop from its start, and what happens to it. -/
structure TaskRun (σ α : Type) where
  program : TaskProgram σ α
  /-- The state at the start. -/
  state : σ
  events : List (TaskLoopEvent σ α)

/-- The loop in the end. -/
def TaskRun.loop {σ α : Type} (run : TaskRun σ α) : TaskLoop σ α :=
  Trace.final (TaskLoop.step run.program) (.start run.state) run.events

end HostBridge
