/-!
# Tables in key order

A table associates keys with values. It is kept as a list of entries in
strictly ascending order of the keys, so that no key occurs twice and two
tables with the same associations are the same list.

* `Entries.put` writes one entry; a later write of the same key replaces the
  earlier one.
* `Entries.settle` turns any list of writes into the table they leave behind:
  the last write of each key wins.
* `Table` carries the order of its entries in its type.

`Entries.lookup_put` and `Table.get?_put` say what a write does to what is
found under a key.
-/

namespace HostBridge

variable {κ α : Type} [Ord κ]

namespace Entries

/-- The entries stand in strictly ascending order of their keys. -/
def Ascending (entries : List (κ × α)) : Prop :=
  entries.Pairwise fun a b => compare a.1 b.1 = .lt

instance (entries : List (κ × α)) : Decidable (Ascending entries) :=
  inferInstanceAs (Decidable (List.Pairwise _ _))

/-- Writes `value` under `key`, in place of what was there. -/
def put (key : κ) (value : α) : List (κ × α) → List (κ × α)
  | [] => [(key, value)]
  | (k, v) :: rest =>
    match compare key k with
    | .lt => (key, value) :: (k, v) :: rest
    | .eq => (key, value) :: rest
    | .gt => (k, v) :: put key value rest

/-- What a list of writes leaves behind: the last write of each key, in key
    order. -/
def settle (writes : List (κ × α)) : List (κ × α) :=
  writes.foldl (fun entries write => put write.1 write.2 entries) []

/-- The value last written under `key`. -/
def last? [BEq κ] (key : κ) (writes : List (κ × α)) : Option α :=
  writes.reverse.lookup key

theorem mem_put {key : κ} {value : α} {e : κ × α} {entries : List (κ × α)}
    (h : e ∈ put key value entries) : e = (key, value) ∨ e ∈ entries := by
  induction entries with
  | nil => simpa [put] using h
  | cons head rest ih =>
    rw [put] at h
    split at h <;> grind

section Order

variable [Std.TransOrd κ] [Std.LawfulEqOrd κ]

theorem Ascending.put {entries : List (κ × α)} (h : Ascending entries) (key : κ) (value : α) :
    Ascending (put key value entries) := by
  induction entries with
  | nil => simp [Entries.put, Ascending]
  | cons head rest ih =>
    obtain ⟨k, v⟩ := head
    obtain ⟨hhead, hrest⟩ := List.pairwise_cons.1 h
    rw [Entries.put]
    split
    · next hlt =>
      refine List.pairwise_cons.2 ⟨fun e he => ?_, h⟩
      rcases List.mem_cons.1 he with rfl | he
      · exact hlt
      · exact Std.TransCmp.lt_trans hlt (hhead e he)
    · next heq =>
      obtain rfl := Std.LawfulEqCmp.eq_of_compare heq
      exact List.pairwise_cons.2 ⟨hhead, hrest⟩
    · next hgt =>
      refine List.pairwise_cons.2 ⟨fun e he => ?_, ih hrest⟩
      rcases mem_put he with rfl | he
      · exact Std.OrientedCmp.gt_iff_lt.1 hgt
      · exact hhead e he

theorem ascending_settle (writes : List (κ × α)) : Ascending (settle writes) := by
  suffices h : ∀ entries : List (κ × α), Ascending entries →
      Ascending (writes.foldl (fun entries write => Entries.put write.1 write.2 entries) entries) from
    h [] List.Pairwise.nil
  induction writes with
  | nil => exact fun _ h => h
  | cons write rest ih => exact fun entries h => ih _ (h.put write.1 write.2)

end Order

section Lookup

variable [DecidableEq κ]

omit [Ord κ] in
theorem lookup_cons_eq (key k : κ) (value : α) (rest : List (κ × α)) :
    ((key, value) :: rest).lookup k = if k = key then some value else rest.lookup k := by
  by_cases h : k = key
  · simp [h]
  · have hb : (k == key) = false := beq_false_of_ne h
    simp [List.lookup_cons, hb, h]

variable [Std.LawfulEqOrd κ]

/-- A write is found under its own key and leaves every other key alone. -/
theorem lookup_put (key k : κ) (value : α) (entries : List (κ × α)) :
    (put key value entries).lookup k = if k = key then some value else entries.lookup k := by
  induction entries with
  | nil => simp [put, lookup_cons_eq]
  | cons head rest ih =>
    obtain ⟨k', v⟩ := head
    rw [put]
    split
    · rw [lookup_cons_eq]
    · next heq =>
      obtain rfl := Std.LawfulEqCmp.eq_of_compare heq
      simp only [lookup_cons_eq]
      split <;> rfl
    · next hgt =>
      have hne : key ≠ k' := by
        rintro rfl
        have hself : compare key key = .eq := Std.LawfulEqCmp.compare_eq_iff_eq.2 rfl
        exact absurd (hself.symm.trans hgt) (by decide)
      simp only [lookup_cons_eq, ih]
      grind

end Lookup

end Entries

/-- Associations from keys to values, in key order. -/
structure Table (κ α : Type) [Ord κ] where
  /-- One entry for each key. -/
  entries : List (κ × α)
  /-- The keys ascend. -/
  ascending : Entries.Ascending entries
deriving DecidableEq

namespace Table

/-- The table without entries. -/
def empty : Table κ α := ⟨[], List.Pairwise.nil⟩

instance : Inhabited (Table κ α) := ⟨empty⟩

/-- The value under `key`. -/
def get? [BEq κ] (table : Table κ α) (key : κ) : Option α :=
  table.entries.lookup key

variable [Std.TransOrd κ] [Std.LawfulEqOrd κ]

/-- The table with `value` under `key`. -/
def put (table : Table κ α) (key : κ) (value : α) : Table κ α :=
  ⟨Entries.put key value table.entries, table.ascending.put key value⟩

theorem get?_put [DecidableEq κ] (table : Table κ α) (key k : κ) (value : α) :
    (table.put key value).get? k = if k = key then some value else table.get? k :=
  Entries.lookup_put key k value table.entries

end Table

end HostBridge
