import HostBridge.Proofs.Tasks.Loop

/-!
# One turn of a loop

The waiting tasks stand in running order (`TaskQueue.Ordered`), whatever was posted when
and however many postings there were. So those whose time has come are the first ones,
and a turn takes out all of them and no others before it runs any: what tasks post
meanwhile finds the turn decided.

* `TaskQueue.Ordered.post`, `TaskQueue.Ordered.takeDue`: postings and turns keep the
  order.
* `TaskLoop.ran_turn`: a turn runs the tasks that it took out, and no others.
* `TaskLoop.Stamped`: each waiting task bears the time and the number of its posting.
* `TaskLoop.pending_eq_drop_postings`: what waits is what was posted and not yet run.
* `TaskRun.turn_runs_due`: what one turn runs, leaves behind and tells.
-/

namespace HostBridge

variable {σ α : Type}

namespace Posted

/-! ## Running order -/

theorem before_iff {p q : Posted α} :
    p.before q = true ↔ p.time < q.time ∨ p.time = q.time ∧ p.order < q.order := by
  simp [before]

theorem before_trans {p q r : Posted α} (hpq : p.before q = true) (hqr : q.before r = true) :
    p.before r = true := by
  rw [before_iff] at *
  rcases hpq with hpq | ⟨hpq, horder⟩
  · exact .inl (by omega)
  rcases hqr with hqr | ⟨hqr, horder'⟩
  · exact .inl (by omega)
  · exact .inr ⟨hpq.trans hqr, UInt64.lt_trans horder horder'⟩

/-- Of two tasks with different numbers one is run first. -/
theorem before_of_not_before {p q : Posted α} (hne : q.order ≠ p.order)
    (h : ¬q.before p = true) : p.before q = true := by
  rw [before_iff] at *
  rw [not_or, not_and] at h
  rcases Int.lt_or_eq_of_le (Int.not_lt.1 h.1) with hlt | heq
  · exact .inl hlt
  · have horder := UInt64.not_lt.1 (h.2 heq.symm)
    exact .inr ⟨heq, UInt64.lt_of_le_of_ne horder hne.symm⟩

/-- A task is put where it belongs. -/
theorem pairwise_insert {p : Posted α} {tasks : List (Posted α)}
    (h : tasks.Pairwise (fun a b => a.before b = true)) (hnew : ∀ q ∈ tasks, q.order ≠ p.order) :
    (p.insert tasks).Pairwise (fun a b => a.before b = true) := by
  induction tasks with
  | nil => exact List.pairwise_singleton _ _
  | cons q rest ih =>
    obtain ⟨hq, hrest⟩ := List.pairwise_cons.1 h
    obtain ⟨hqnew, hrestnew⟩ := List.forall_mem_cons.1 hnew
    rw [insert]
    split
    · next hbefore =>
      refine List.pairwise_cons.2 ⟨fun r hr => ?_, ih hrest hrestnew⟩
      rcases List.mem_cons.1 ((insert_perm p rest).mem_iff.1 hr) with rfl | hr
      · exact hbefore
      · exact hq r hr
    · next hbefore =>
      have hpq := before_of_not_before hqnew hbefore
      refine List.pairwise_cons.2 ⟨fun r hr => ?_, h⟩
      rcases List.mem_cons.1 hr with rfl | hr
      · exact hpq
      · exact before_trans hpq (hq r hr)

/-- In running order the tasks whose time has come are the first ones. -/
theorem takeWhile_dropWhile_of_ordered {tasks : List (Posted α)}
    (h : tasks.Pairwise (fun a b => a.before b = true)) (now : Int) :
    tasks.takeWhile (·.time ≤ now) = tasks.filter (·.time ≤ now) ∧
      tasks.dropWhile (·.time ≤ now) = tasks.filter (now < ·.time) := by
  induction tasks with
  | nil => exact ⟨rfl, rfl⟩
  | cons p rest ih =>
    obtain ⟨hp, hrest⟩ := List.pairwise_cons.1 h
    by_cases hdue : p.time ≤ now
    · obtain ⟨htake, hdrop⟩ := ih hrest
      simp [hdue, Int.not_lt.2 hdue, htake, hdrop]
    · have hlate : ∀ q ∈ rest, now < q.time := by
        -- nothing that is run later is due earlier
        intro q hq
        have hbefore := before_iff.1 (hp q hq)
        omega
      have hnone : rest.filter (·.time ≤ now) = [] := by simpa using hlate
      have hall : rest.filter (now < ·.time) = rest := by simpa using hlate
      simp [hdue, Int.not_le.1 hdue, hnone, hall]

end Posted

namespace TaskQueue

variable {q : TaskQueue α}

/-- The waiting tasks whose time has come. -/
def due (q : TaskQueue α) (now : Int) : List (Posted α) := q.pending.filter (·.time ≤ now)

/-- The waiting tasks whose time has not come. -/
def notDue (q : TaskQueue α) (now : Int) : List (Posted α) := q.pending.filter (now < ·.time)

/-- The waiting tasks stand in running order, and no two have the same time and the
    same number. -/
def Ordered (q : TaskQueue α) : Prop := q.pending.Pairwise (fun p r => p.before r = true)

theorem ordered_empty : (empty : TaskQueue α).Ordered := .nil

/-- A posting keeps the order, also if its number is taken. -/
theorem Ordered.post (h : q.Ordered) (time : Int) (task : α) : (q.post time task).Ordered := by
  rw [Ordered, TaskQueue.post, push]
  split
  · next hfind =>
    exact Posted.pairwise_insert h fun r hr => by simpa using List.find?_eq_none.1 hfind r hr
  · exact Posted.pairwise_insert (h.sublist List.filter_sublist) fun r hr => by
      simpa using (List.mem_filter.1 hr).2

/-- A posting leaves no time and no number in the queue but its own and those that were
    there. -/
theorem mem_of_mem_push {p r : Posted α} {pending : List (Posted α)} (h : r ∈ push p pending) :
    (r.time = p.time ∧ r.order = p.order) ∨ r ∈ pending := by
  rw [push] at h
  split at h
  · rcases List.mem_cons.1 ((Posted.insert_perm _ _).mem_iff.1 h) with rfl | h
    · exact .inl ⟨rfl, rfl⟩
    · exact .inr h
  · rcases List.mem_cons.1 ((Posted.insert_perm _ _).mem_iff.1 h) with rfl | h
    · exact .inl ⟨rfl, rfl⟩
    · exact .inr (List.mem_filter.1 h).1

/-- The tasks whose time has come are taken out, in running order, and the others stay. -/
theorem Ordered.takeDue_eq (h : q.Ordered) (now : Int) :
    q.takeDue now = ((q.due now).map (·.task), { q with pending := q.notDue now }) := by
  obtain ⟨htake, hdrop⟩ := Posted.takeWhile_dropWhile_of_ordered h now
  rw [TaskQueue.takeDue, due, notDue, htake, hdrop]

/-- The tasks whose time has come wait before the others. -/
theorem Ordered.pending_eq_append (h : q.Ordered) (now : Int) :
    q.pending = q.due now ++ q.notDue now := by
  obtain ⟨htake, hdrop⟩ := Posted.takeWhile_dropWhile_of_ordered h now
  rw [due, notDue, ← htake, ← hdrop, List.takeWhile_append_dropWhile]

theorem Ordered.takeDue (h : q.Ordered) (now : Int) : (q.takeDue now).2.Ordered := by
  rw [h.takeDue_eq]
  exact h.sublist List.filter_sublist

/-- The task that is run next is one of the earliest. -/
theorem Ordered.next?_eq_some_iff (h : q.Ordered) {time : Int} : q.next? = some time ↔
    (∃ p ∈ q.pending, p.time = time) ∧ ∀ p ∈ q.pending, time ≤ p.time := by
  rw [next?]
  rw [Ordered] at h
  cases hpending : q.pending with
  | nil => simp
  | cons p rest =>
    rw [hpending] at h
    have hfirst : ∀ r ∈ rest, p.time ≤ r.time := by
      intro r hr
      have hbefore := Posted.before_iff.1 ((List.pairwise_cons.1 h).1 r hr)
      omega
    constructor
    · intro hp
      obtain rfl : p.time = time := by simpa using hp
      exact ⟨⟨p, List.mem_cons_self, rfl⟩,
        List.forall_mem_cons.2 ⟨Int.le_refl _, hfirst⟩⟩
    · rintro ⟨⟨r, hr, rfl⟩, hleast⟩
      have hle : p.time ≤ r.time := by
        rcases List.mem_cons.1 hr with rfl | hr
        · exact Int.le_refl _
        · exact hfirst r hr
      simpa using Int.le_antisymm hle (hleast p List.mem_cons_self)

/-- Nothing is told if and only if nothing waits. -/
theorem next?_eq_none_iff : q.next? = none ↔ q.hasPending = false := by
  simp [next?, hasPending]

end TaskQueue

namespace TaskLoop

variable {clock : Clock} {program : TaskProgram σ α} {l : TaskLoop σ α}

/-! ## What a turn runs -/

@[simp] theorem ran_posts (clock : Clock) (l : TaskLoop σ α) (tasks : List α) :
    (tasks.foldl (TaskLoop.post clock) l).ran = l.ran := by
  induction tasks generalizing l with
  | nil => rfl
  | cons task tasks ih => exact ih (l.post clock task)

@[simp] theorem ran_run (program : TaskProgram σ α) (task : α) (l : TaskLoop σ α) :
    (l.run program task).ran = l.ran ++ [task] :=
  ran_posts ..

theorem ran_runs (program : TaskProgram σ α) (tasks : List α) (l : TaskLoop σ α) :
    (tasks.foldl (fun l task => l.run program task) l).ran = l.ran ++ tasks := by
  induction tasks generalizing l with
  | nil => exact (List.append_nil _).symm
  | cons task tasks ih =>
    rw [List.foldl_cons, ih, ran_run, List.append_assoc, List.singleton_append]

/-- A turn runs the tasks that it takes out, and no others. -/
theorem ran_turn (program : TaskProgram σ α) (now : Int) (l : TaskLoop σ α) :
    (l.turn program now).1.ran = l.ran ++ (l.queue.takeDue now).1 :=
  ran_runs ..

/-! ## Postings -/

/-- The postings so far, each with its time and its number. -/
def postings (clock : Clock) (l : TaskLoop σ α) : List (Posted α) :=
  l.posted.mapIdx fun i task => ⟨clock.read i, .ofNat i, task⟩

/-- Each waiting task bears the time and the number of a posting, and the numbers go on
    with the postings. -/
structure Stamped (clock : Clock) (l : TaskLoop σ α) : Prop where
  ordered : l.queue.Ordered
  next : l.queue.nextOrder = .ofNat l.posted.length
  stamps : ∀ p ∈ l.queue.pending,
    ∃ i < l.posted.length, p.time = clock.read i ∧ p.order = .ofNat i

theorem stamped_start (state : σ) : (start state : TaskLoop σ α).Stamped clock :=
  ⟨TaskQueue.ordered_empty, rfl, fun _ hp => absurd hp List.not_mem_nil⟩

/-- The state plays no part. -/
theorem Stamped.change (h : l.Stamped clock) (state : σ) : { l with state }.Stamped clock :=
  ⟨h.ordered, h.next, h.stamps⟩

theorem Stamped.post (h : l.Stamped clock) (task : α) : (l.post clock task).Stamped clock where
  ordered := h.ordered.post _ _
  next := by
    rw [TaskLoop.post, TaskQueue.post, h.next, List.length_append]
    exact (UInt64.ofNat_add _ _).symm
  stamps := by
    have hlength : (l.post clock task).posted.length = l.posted.length + 1 := List.length_append
    rw [hlength]
    intro p hp
    rcases TaskQueue.mem_of_mem_push hp with ⟨htime, horder⟩ | hp
    · exact ⟨l.posted.length, Nat.lt_succ_self _, htime, horder.trans h.next⟩
    · obtain ⟨i, hi, hstamp⟩ := h.stamps p hp
      exact ⟨i, Nat.lt_succ_of_lt hi, hstamp⟩

theorem Stamped.posts (h : l.Stamped clock) (tasks : List α) :
    (tasks.foldl (TaskLoop.post clock) l).Stamped clock := by
  induction tasks generalizing l with
  | nil => exact h
  | cons task tasks ih => exact ih (h.post task)

theorem Stamped.run (h : l.Stamped program.clock) (task : α) :
    (l.run program task).Stamped program.clock :=
  Stamped.posts (l := { l with ran := l.ran ++ [task], state := _ })
    ⟨h.ordered, h.next, h.stamps⟩ _

theorem Stamped.runs (h : l.Stamped program.clock) (tasks : List α) :
    (tasks.foldl (fun l task => l.run program task) l).Stamped program.clock := by
  induction tasks generalizing l with
  | nil => exact h
  | cons task tasks ih => exact ih (h.run task)

theorem Stamped.takeDue (h : l.Stamped clock) (now : Int) :
    { l with queue := (l.queue.takeDue now).2 }.Stamped clock where
  ordered := h.ordered.takeDue now
  next := h.next
  stamps := fun p hp => h.stamps p ((List.dropWhile_sublist _).subset hp)

theorem Stamped.turn (h : l.Stamped program.clock) (now : Int) :
    (l.turn program now).1.Stamped program.clock :=
  (h.takeDue now).runs _

/-- Whatever happens, the stamps of a loop stay right. -/
theorem Stamped.step (h : l.Stamped program.clock) (event : TaskLoopEvent σ α) :
    (l.step program event).1.Stamped program.clock := by
  cases event with
  | post task => exact h.post task
  | turn now => exact h.turn now
  | change state => exact h.change state

/-- What waits is what was posted and not yet run, with the times and the numbers of the
    postings, as long as these have not started again. -/
theorem pending_eq_drop_postings (hstamped : l.Stamped clock) (horderly : l.Orderly clock [])
    (hsize : l.posted.length < UInt64.size) :
    l.queue.pending = (l.postings clock).drop l.ran.length := by
  obtain ⟨waiting, ha⟩ := horderly hsize
  have hqueued := ha.queued
  have hposted := ha.posted
  rw [List.length_nil, Nat.add_zero] at hqueued
  rw [List.append_nil, ← hqueued.map_task] at hposted
  have hlength : l.ran.length + l.queue.pending.length = l.posted.length := by
    rw [← hposted, List.length_append, List.length_map]
  refine List.ext_getElem ?_ fun j hj hj' => ?_
  · rw [List.length_drop, postings, List.length_mapIdx, ← hlength, Nat.add_sub_cancel_left]
  -- the stamp at a place of the queue is that of a posting, and the number says of which
  obtain ⟨i, hi, htime, horder⟩ := hstamped.stamps _ (List.getElem_mem hj)
  have hnumber : l.queue.pending[j].order = .ofNat (l.ran.length + j) := by
    have hget := congrArg (·[j]?) hqueued.map_order
    simpa [hj] using hget
  obtain rfl : i = l.ran.length + j := by
    have hnat := congrArg UInt64.toNat (horder.symm.trans hnumber)
    rwa [UInt64.toNat_ofNat_of_lt' (Nat.lt_trans hi hsize),
      UInt64.toNat_ofNat_of_lt' (by omega)] at hnat
  have htask : l.queue.pending[j].task = l.posted[l.ran.length + j] := by
    simp [← hposted]
  rw [List.getElem_drop]
  simp only [postings, List.getElem_mapIdx]
  rw [← htime, ← horder, ← htask]

/-! ## What a turn leaves behind -/

theorem posted_posts (clock : Clock) (l : TaskLoop σ α) (tasks : List α) :
    (tasks.foldl (TaskLoop.post clock) l).posted = l.posted ++ tasks := by
  induction tasks generalizing l with
  | nil => exact (List.append_nil _).symm
  | cons task tasks ih =>
    rw [List.foldl_cons, ih, TaskLoop.post, List.append_assoc, List.singleton_append]

theorem posted_prefix_run (program : TaskProgram σ α) (task : α) (l : TaskLoop σ α) :
    l.posted <+: (l.run program task).posted := by
  rw [TaskLoop.run, posted_posts]
  exact List.prefix_append _ _

theorem posted_prefix_runs (program : TaskProgram σ α) (tasks : List α) (l : TaskLoop σ α) :
    l.posted <+: (tasks.foldl (fun l task => l.run program task) l).posted := by
  induction tasks generalizing l with
  | nil => exact List.prefix_refl _
  | cons task tasks ih => exact (posted_prefix_run program task l).trans (ih _)

/-- What was posted before a turn comes before what is posted meanwhile. -/
theorem posted_prefix_turn (program : TaskProgram σ α) (now : Int) (l : TaskLoop σ α) :
    l.posted <+: (l.turn program now).1.posted :=
  posted_prefix_runs program (l.queue.takeDue now).1 { l with queue := (l.queue.takeDue now).2 }

theorem postings_turn (program : TaskProgram σ α) (now : Int) (l : TaskLoop σ α) :
    (l.turn program now).1.postings clock = l.postings clock ++
      ((l.turn program now).1.postings clock).drop l.posted.length := by
  obtain ⟨more, hmore⟩ := posted_prefix_turn program now l
  rw [postings, postings, ← hmore, List.mapIdx_append, List.drop_left' List.length_mapIdx]

/-- After a turn those tasks wait whose time had not come, and behind them those that were
    posted meanwhile. -/
theorem pending_turn (hstamped : l.Stamped program.clock) (horderly : l.Orderly program.clock [])
    (now : Int) (hsize : (l.turn program now).1.posted.length < UInt64.size) :
    (l.turn program now).1.queue.pending = l.queue.notDue now ++
      ((l.turn program now).1.postings program.clock).drop l.posted.length := by
  have hbefore : l.posted.length < UInt64.size :=
    Nat.lt_of_le_of_lt (posted_prefix_turn program now l).length_le hsize
  have hpending := pending_eq_drop_postings hstamped horderly hbefore
  have hran : l.ran.length ≤ (l.postings program.clock).length := by
    obtain ⟨waiting, ha⟩ := horderly hbefore
    have hlength := ha.length_posted
    rw [postings, List.length_mapIdx]
    omega
  -- what was not run before the turn is what waited then, and what is posted meanwhile
  have hdrop : ((l.turn program now).1.postings program.clock).drop l.ran.length =
      l.queue.due now ++ (l.queue.notDue now ++
        ((l.turn program now).1.postings program.clock).drop l.posted.length) := by
    rw [← List.append_assoc, ← hstamped.ordered.pending_eq_append now, hpending,
      ← List.drop_append_of_le_length hran, ← postings_turn]
  rw [pending_eq_drop_postings (hstamped.turn now) (horderly.turn now) hsize, ran_turn,
    hstamped.ordered.takeDue_eq, List.length_append, List.length_map, ← List.drop_drop, hdrop,
    List.drop_left]

end TaskLoop

namespace TaskRun

open TaskLoop

variable (r : TaskRun σ α)

theorem stamped_loop : r.loop.Stamped r.program.clock :=
  Trace.final_induction _ (stamped_start r.state) fun _ event _ h => h.step event

/-- One turn of a loop, in any state that it comes to and at any time, whatever its tasks
    post:

    * of the tasks that wait when it starts it runs exactly those whose time has come,
      each once, in the order of their times and, at the same time, of their numbers;
    * so it runs nothing that is posted meanwhile, even if it is due;
    * it tells the earliest time among the tasks that wait afterwards, and nothing if and
      only if none waits;
    * until too many tasks are posted for their numbers, a task waits if it was posted and
      has not been run, the numbers are the places of the postings, and after the turn
      those wait whose time had not come and those that were posted meanwhile. -/
theorem turn_runs_due (now : Int) :
    (r.loop.turn r.program now).1.ran = r.loop.ran ++ (r.loop.queue.due now).map (·.task) ∧
    (r.loop.queue.due now).Pairwise
      (fun p q => p.time < q.time ∨ p.time = q.time ∧ p.order < q.order) ∧
    (∀ time, (r.loop.turn r.program now).2 = some time ↔
      (∃ p ∈ (r.loop.turn r.program now).1.queue.pending, p.time = time) ∧
        ∀ p ∈ (r.loop.turn r.program now).1.queue.pending, time ≤ p.time) ∧
    ((r.loop.turn r.program now).2 = none ↔
      (r.loop.turn r.program now).1.queue.hasPending = false) ∧
    ((r.loop.turn r.program now).1.posted.length < UInt64.size →
      r.loop.queue.pending = (r.loop.postings r.program.clock).drop r.loop.ran.length ∧
      (r.loop.turn r.program now).1.queue.pending = r.loop.queue.notDue now ++
        ((r.loop.turn r.program now).1.postings r.program.clock).drop r.loop.posted.length) := by
  have hstamped := r.stamped_loop
  have hordered : r.loop.queue.Ordered := hstamped.ordered
  have hran : (r.loop.turn r.program now).1.ran =
      r.loop.ran ++ (r.loop.queue.due now).map (·.task) := by
    rw [ran_turn, hordered.takeDue_eq]
  refine ⟨hran, ?_, fun time => (hstamped.turn now).ordered.next?_eq_some_iff,
    TaskQueue.next?_eq_none_iff, fun hsize => ?_⟩
  · exact (hordered.sublist List.filter_sublist).imp Posted.before_iff.1
  have hbefore := (posted_prefix_turn r.program now r.loop).length_le
  exact ⟨pending_eq_drop_postings hstamped r.orderly_loop (Nat.lt_of_le_of_lt hbefore hsize),
    pending_turn hstamped r.orderly_loop now hsize⟩

/-- Tasks that post themselves again: the turn is at the time of all postings, and what it
    posts waits although it is due. -/
theorem turn_runs_due_again :
    let r : TaskRun Unit Nat := {
      program := {
        clock := ⟨fun _ => 0, fun _ => Int.le_refl 0⟩
        act := fun n _ => ((), [n, n]) }
      state := ()
      events := [.post 7, .post 5, .turn 0] }
    let after := r.loop.turn r.program 0
    after.1.posted.length < UInt64.size ∧ after.1.ran = [7, 5, 7, 7, 5, 5] ∧ after.2 = some 0 ∧
      after.1.queue.pending.map (·.task) = [7, 7, 7, 7, 5, 5, 5, 5] := by
  intro r after
  have hsize : after.1.posted.length < UInt64.size := by decide
  obtain ⟨hran, -, hnext, -, hwaiting⟩ := r.turn_runs_due 0
  refine ⟨hsize, hran.trans (by decide), (hnext 0).2 (by decide), ?_⟩
  rw [(hwaiting hsize).2]
  decide

end TaskRun

end HostBridge
