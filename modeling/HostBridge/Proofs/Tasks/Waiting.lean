import HostBridge.TaskQueue

/-!
# Tasks that wait in the order of their postings

The running order of a queue is that of the times, and of the numbers at the
same time. If the times of the postings never go back and the numbers have not
started again, it is the order of the postings: the waiting tasks have successive
numbers, up to the number of the next posting (`TaskQueue.Queued`).

* `TaskQueue.Queued.post`: a posting adds a task behind all others.
* `TaskQueue.Queued.takeDue`: the tasks that are due are the first ones, and the
  others keep waiting.
-/

namespace HostBridge

variable {α : Type}

namespace Posted

/-! ## Running order -/

/-- No task is lost or added where a task is put among others. -/
theorem insert_perm (p : Posted α) (tasks : List (Posted α)) :
    (p.insert tasks).Perm (p :: tasks) := by
  induction tasks with
  | nil => exact .refl _
  | cons q rest ih =>
    rw [insert]
    split
    · exact (ih.cons q).trans (.swap p q rest)
    · exact .refl _

/-- A task goes behind all tasks that are run before it. -/
theorem insert_eq_append {p : Posted α} {tasks : List (Posted α)}
    (h : ∀ q ∈ tasks, q.before p = true) : p.insert tasks = tasks ++ [p] := by
  induction tasks with
  | nil => rfl
  | cons q rest ih =>
    rw [insert, if_pos (h q List.mem_cons_self), ih fun r hr => h r (List.mem_cons_of_mem q hr),
      List.cons_append]

/-- With an earlier number and no later time a task is run first. -/
theorem before_of_le {p q : Posted α} (htime : p.time ≤ q.time) (horder : p.order < q.order) :
    p.before q = true := by
  rcases Int.lt_or_eq_of_le htime with hlt | heq <;> simp [before, *]

/-! ## Successive numbers -/

/-- Tasks with the times of their postings, numbered from `first` on. -/
def numbered (first : Nat) : List (Int × α) → List (Posted α)
  | [] => []
  | (time, task) :: rest => ⟨time, .ofNat first, task⟩ :: numbered (first + 1) rest

variable {first : Nat} {waiting : List (Int × α)}

@[simp] theorem map_task_numbered : (numbered first waiting).map (·.task) = waiting.map (·.2) := by
  induction waiting generalizing first with
  | nil => rfl
  | cons w rest ih => exact congrArg (w.2 :: ·) ih

@[simp] theorem length_numbered : (numbered first waiting).length = waiting.length := by
  induction waiting generalizing first with
  | nil => rfl
  | cons w rest ih => exact congrArg (· + 1) ih

theorem map_order_numbered : (numbered first waiting).map (·.order) =
    (List.range' first waiting.length).map UInt64.ofNat := by
  induction waiting generalizing first with
  | nil => rfl
  | cons w rest ih => exact congrArg (UInt64.ofNat first :: ·) ih

theorem numbered_append (more : List (Int × α)) : numbered first (waiting ++ more) =
    numbered first waiting ++ numbered (first + waiting.length) more := by
  induction waiting generalizing first with
  | nil => rfl
  | cons w rest ih =>
    rw [List.cons_append, numbered, ih, numbered, List.cons_append, List.length_cons,
      Nat.add_right_comm, ← Nat.add_assoc]

theorem exists_of_mem_numbered {p : Posted α} (hp : p ∈ numbered first waiting) :
    ∃ w ∈ waiting, ∃ i < waiting.length, p = ⟨w.1, .ofNat (first + i), w.2⟩ := by
  induction waiting generalizing first with
  | nil => exact absurd hp List.not_mem_nil
  | cons w rest ih =>
    rcases List.mem_cons.1 hp with rfl | hp
    · exact ⟨w, List.mem_cons_self, 0, Nat.succ_pos _, rfl⟩
    · obtain ⟨v, hv, i, hi, rfl⟩ := ih hp
      exact ⟨v, List.mem_cons_of_mem w hv, i + 1, Nat.succ_lt_succ hi, by
        rw [Nat.add_right_comm first 1 i, Nat.add_assoc]⟩

/-- The tasks that are due are numbered like the others. -/
theorem takeWhile_numbered (now : Int) : (numbered first waiting).takeWhile (·.time ≤ now) =
    numbered first (waiting.takeWhile (·.1 ≤ now)) := by
  induction waiting generalizing first with
  | nil => rfl
  | cons w rest ih =>
    rw [numbered, List.takeWhile_cons, List.takeWhile_cons]
    split
    · rw [ih, numbered]
    · rfl

/-- The tasks that are left keep their numbers. -/
theorem dropWhile_numbered (now : Int) : (numbered first waiting).dropWhile (·.time ≤ now) =
    numbered (first + (waiting.takeWhile (·.1 ≤ now)).length) (waiting.dropWhile (·.1 ≤ now)) := by
  induction waiting generalizing first with
  | nil => rfl
  | cons w rest ih =>
    rw [numbered, List.dropWhile_cons, List.takeWhile_cons, List.dropWhile_cons]
    split
    · rw [ih, List.length_cons, Nat.add_right_comm first 1, ← Nat.add_assoc]
    · rfl

/-- Numbers in range are in the order of the natural numbers that they stand for. -/
theorem ofNat_lt_ofNat {i j : Nat} (hij : i < j) (hj : j < UInt64.size) :
    UInt64.ofNat i < UInt64.ofNat j := by
  rw [UInt64.lt_iff_toNat_lt, UInt64.toNat_ofNat_of_lt' (Nat.lt_trans hij hj),
    UInt64.toNat_ofNat_of_lt' hj]
  exact hij

end Posted

namespace TaskQueue

open Posted

variable {q : TaskQueue α} {first : Nat} {waiting : List (Int × α)}

/-- Exactly the given tasks wait in the queue, in the order of their postings:
    the first one has the number `first`, and no one was posted before the one in
    front of it. -/
structure Queued (q : TaskQueue α) (first : Nat) (waiting : List (Int × α)) : Prop where
  pending : q.pending = numbered first waiting
  next : q.nextOrder = .ofNat (first + waiting.length)
  ordered : waiting.Pairwise (·.1 ≤ ·.1)

theorem queued_empty : (empty : TaskQueue α).Queued 0 [] := ⟨rfl, rfl, .nil⟩

/-- An entry with a new number is put among the others. -/
theorem push_of_free {p : Posted α} {pending : List (Posted α)}
    (h : ∀ r ∈ pending, r.order ≠ p.order) : push p pending = p.insert pending := by
  have hfind : pending.find? (·.order == p.order) = none :=
    List.find?_eq_none.2 fun r hr => by simpa using h r hr
  rw [push, hfind]

namespace Queued

variable (h : q.Queued first waiting)

include h

theorem map_task : q.pending.map (·.task) = waiting.map (·.2) := by rw [h.pending, map_task_numbered]

theorem length_pending : q.pending.length = waiting.length := by rw [h.pending, length_numbered]

theorem map_order : q.pending.map (·.order) =
    (List.range' first q.pending.length).map UInt64.ofNat := by
  rw [h.length_pending, h.pending, map_order_numbered]

/-- Every waiting task has a number below that of the next posting. -/
theorem order_lt (hsize : first + waiting.length < UInt64.size) :
    ∀ p ∈ q.pending, p.order < q.nextOrder := by
  intro p hp
  rw [h.pending] at hp
  obtain ⟨w, -, i, hi, rfl⟩ := exists_of_mem_numbered hp
  rw [h.next]
  exact ofNat_lt_ofNat (Nat.add_lt_add_left hi first) hsize

/-- The numbers of the waiting tasks rise. -/
theorem pairwise_order (hsize : first + waiting.length < UInt64.size) :
    q.pending.Pairwise (·.order < ·.order) := by
  rw [← List.pairwise_map (f := Posted.order) (R := (· < ·)), h.map_order, h.length_pending,
    List.pairwise_map]
  refine List.Pairwise.imp_of_mem ?_ List.pairwise_lt_range'
  -- counting up from `first` does not reach the end of the numbers
  intro i j _ hj hij
  have hlast := (List.mem_range'_1.1 hj).2
  exact ofNat_lt_ofNat hij (by omega)

/-- A posting takes the place of no waiting task. -/
theorem push_next (hsize : first + waiting.length < UInt64.size) (time : Int) (task : α) :
    push ⟨time, q.nextOrder, task⟩ q.pending = Posted.insert ⟨time, q.nextOrder, task⟩ q.pending :=
  push_of_free fun p hp => UInt64.ne_of_lt (h.order_lt hsize p hp)

/-- The task that is posted last goes behind all others. -/
theorem post (hsize : first + waiting.length < UInt64.size) {time : Int}
    (hlast : ∀ w ∈ waiting, w.1 ≤ time) (task : α) :
    (q.post time task).Queued first (waiting ++ [(time, task)]) where
  pending := by
    have hbefore : ∀ p ∈ q.pending, p.before ⟨time, q.nextOrder, task⟩ = true := by
      -- all others were posted no later, and with lower numbers
      intro p hp
      have horder := h.order_lt hsize p hp
      rw [h.pending] at hp
      obtain ⟨w, hw, i, -, rfl⟩ := exists_of_mem_numbered hp
      exact before_of_le (hlast w hw) horder
    rw [TaskQueue.post, h.push_next hsize, insert_eq_append hbefore, h.pending, h.next,
      numbered_append]
    rfl
  next := by
    rw [List.length_append, ← Nat.add_assoc, TaskQueue.post, h.next]
    exact (UInt64.ofNat_add _ _).symm
  ordered := List.pairwise_append.2 ⟨h.ordered, List.pairwise_singleton _ _, by
    intro w hw v hv
    rw [List.mem_singleton.1 hv]
    exact hlast w hw⟩

omit h in
/-- Where the numbers start again, a task overtakes the one that was posted before it. -/
example : ((((⟨.ofNat (UInt64.size - 1), []⟩ : TaskQueue Nat).post 0 1).post 0 2).takeDue 0).1 =
    [2, 1] := by
  decide

/-- The tasks that are due are those that were posted first. -/
theorem takeDue (now : Int) :
    (q.takeDue now).1 = (waiting.takeWhile (·.1 ≤ now)).map (·.2) ∧
      (q.takeDue now).2.Queued (first + (waiting.takeWhile (·.1 ≤ now)).length)
        (waiting.dropWhile (·.1 ≤ now)) := by
  refine ⟨?_, ?_, ?_, h.ordered.sublist (List.dropWhile_sublist _)⟩
  · rw [TaskQueue.takeDue, h.pending, takeWhile_numbered, map_task_numbered]
  · rw [TaskQueue.takeDue, h.pending, dropWhile_numbered]
  · -- as many tasks are left as are not taken, so the next number is still the next
    have hlength := congrArg List.length
      (List.takeWhile_append_dropWhile (p := fun w : Int × α => w.1 ≤ now) (l := waiting))
    rw [List.length_append] at hlength
    rw [Nat.add_assoc, hlength]
    exact h.next

end Queued

end TaskQueue

end HostBridge
