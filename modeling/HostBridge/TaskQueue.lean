/-!
# Tasks for later

A queue of tasks that are run on a later turn of the loop that owns the queue.
Each task has the time at which it was posted and the number of its posting;
tasks are run in the order of their times and, at the same time, of their
numbers.

`takeDue` takes out all tasks that are due before any of them is run: a task
that posts another one, or the same one again, leaves it for a later turn.

* `TaskQueue.post` adds a task.
* `TaskQueue.execute` runs the tasks that are due, one after the other.

The queue holds one task for each number. Numbers start again only after
`2 ^ 64` postings; a number that is still taken then keeps its task and gets the
later time.
-/

namespace HostBridge

/-- A task in a queue. -/
structure Posted (α : Type) where
  /-- When it was posted. -/
  time : Int
  /-- The number of its posting. -/
  order : UInt64
  /-- What is to be done. -/
  task : α

namespace Posted

variable {α : Type}

/-- `a` is run before `b`. -/
def before (a b : Posted α) : Bool :=
  a.time < b.time || (a.time == b.time && a.order < b.order)

/-- Puts a task where it belongs among tasks in running order. -/
def insert (p : Posted α) : List (Posted α) → List (Posted α)
  | [] => [p]
  | q :: rest => if q.before p then q :: insert p rest else p :: q :: rest

end Posted

/-- The tasks that wait to be run. -/
structure TaskQueue (α : Type) where
  /-- The number of the next posting. -/
  nextOrder : UInt64
  /-- The waiting tasks, in running order. -/
  pending : List (Posted α)

namespace TaskQueue

variable {α σ : Type}

/-- The queue without tasks. -/
def empty : TaskQueue α := ⟨0, []⟩

instance : Inhabited (TaskQueue α) := ⟨empty⟩

/-- Adds an entry; an entry with the same number only gets the new time. -/
def push (p : Posted α) (pending : List (Posted α)) : List (Posted α) :=
  match pending.find? (·.order == p.order) with
  | none => p.insert pending
  | some q => Posted.insert { p with task := q.task } (pending.filter (·.order != p.order))

/-- Posts a task at `time`. -/
def post (q : TaskQueue α) (time : Int) (task : α) : TaskQueue α :=
  ⟨q.nextOrder + 1, push ⟨time, q.nextOrder, task⟩ q.pending⟩

/-- Some task is waiting. -/
def hasPending (q : TaskQueue α) : Bool := !q.pending.isEmpty

/-- The time of the task that is run next. -/
def next? (q : TaskQueue α) : Option Int := q.pending.head?.map (·.time)

/-- The tasks that are due at `now`, in running order, and the queue without
    them. -/
def takeDue (q : TaskQueue α) (now : Int) : List α × TaskQueue α :=
  ((q.pending.takeWhile (·.time ≤ now)).map (·.task),
    { q with pending := q.pending.dropWhile (·.time ≤ now) })

/-- Runs the tasks that are due at `now`. A task acts on `σ`, where `queue` finds
    the queue and `setQueue` replaces it. Also returns when the next task is
    due. -/
def execute (queue : σ → TaskQueue α) (setQueue : TaskQueue α → σ → σ) (run : α → σ → σ)
    (now : Int) (s : σ) : σ × Option Int :=
  -- what the tasks post meanwhile waits for a later call, even if it is due
  let (due, rest) := (queue s).takeDue now
  let s := due.foldl (fun s task => run task s) (setQueue rest s)
  (s, (queue s).next?)

end TaskQueue

end HostBridge
