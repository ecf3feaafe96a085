import HostBridge.Table

/-!
# Writes and what they leave behind

`Entries.settle` turns a row of writes into a table. What it leaves behind is
known from the last write of each key alone:

* `Entries.lookup_settle`: under a key stands its last write;
* `Entries.settle_eq_iff`: two rows leave the same behind if and only if their
  last writes are the same;
* `Entries.settle_of_ascending`: what stands in key order already is left as it
  is, so that settling twice is settling once;
* `Entries.settle_mapValues`: what is done to every value can be done before or
  after.

`Entries.lookup_filter_ne` and `Entries.lookup_map_update` are about entries in any
order, some of which are taken out or changed.
-/

namespace HostBridge

namespace Entries

variable {κ α β : Type}

/-- The entries with every value replaced. -/
def mapValues (f : α → β) (entries : List (κ × α)) : List (κ × β) :=
  entries.map fun e => (e.1, f e.2)

@[simp] theorem mapValues_nil (f : α → β) : mapValues f ([] : List (κ × α)) = [] := rfl

@[simp] theorem mapValues_cons (f : α → β) (e : κ × α) (rest : List (κ × α)) :
    mapValues f (e :: rest) = (e.1, f e.2) :: mapValues f rest := rfl

theorem mem_mapValues {f : α → β} {e : κ × β} {entries : List (κ × α)} :
    e ∈ mapValues f entries ↔ ∃ e' ∈ entries, (e'.1, f e'.2) = e :=
  List.mem_map

theorem mapValues_mapValues {γ : Type} (g : β → γ) (f : α → β) (entries : List (κ × α)) :
    mapValues g (mapValues f entries) = mapValues (fun a => g (f a)) entries := by
  simp [mapValues]

theorem mapValues_congr {f g : α → β} {entries : List (κ × α)}
    (h : ∀ e ∈ entries, f e.2 = g e.2) : mapValues f entries = mapValues g entries :=
  List.map_congr_left fun e he => by rw [h e he]

section Lookup

variable [DecidableEq κ] (entries : List (κ × α)) (key k : κ)

/-- Without the entries under a key nothing is found under it. -/
theorem lookup_filter_ne : (entries.filter (·.1 ≠ key)).lookup k =
    if key = k then none else entries.lookup k := by
  induction entries with
  | nil => simp
  | cons e entries ih =>
    obtain ⟨k', a⟩ := e
    by_cases hkey : k' = key
    · rw [List.filter_cons_of_neg (by simpa using hkey), ih, lookup_cons_eq]
      grind
    · rw [List.filter_cons_of_pos (by simpa using hkey), lookup_cons_eq, lookup_cons_eq, ih]
      grind

/-- A new value is found under a key if one was found before. -/
theorem lookup_map_update (a : α) :
    (entries.map fun e => if e.1 = key then (key, a) else e).lookup k =
      if key = k then (entries.lookup k).map fun _ => a else entries.lookup k := by
  induction entries with
  | nil => simp
  | cons e entries ih =>
    obtain ⟨k', b⟩ := e
    rw [List.map_cons, lookup_cons_eq]
    by_cases hkey : k' = key
    · rw [if_pos hkey, lookup_cons_eq, ih]
      grind
    · rw [if_neg hkey, lookup_cons_eq, ih]
      grind

end Lookup

section Settle

variable [Ord κ]

/-- Nothing is left behind but what was written. -/
theorem mem_of_mem_settle {e : κ × α} {writes : List (κ × α)} (h : e ∈ settle writes) :
    e ∈ writes := by
  suffices hfold : ∀ entries : List (κ × α),
      e ∈ writes.foldl (fun entries write => put write.1 write.2 entries) entries →
        e ∈ writes ∨ e ∈ entries from
    (hfold [] h).resolve_right List.not_mem_nil
  clear h
  induction writes with
  | nil => exact fun _ h => .inr h
  | cons write rest ih =>
    intro entries h
    rcases ih _ h with h | h
    · exact .inl (List.mem_cons_of_mem _ h)
    · rcases mem_put h with rfl | h
      · exact .inl List.mem_cons_self
      · exact .inr h

theorem put_mapValues (f : α → β) (key : κ) (value : α) (entries : List (κ × α)) :
    put key (f value) (mapValues f entries) = mapValues f (put key value entries) := by
  induction entries with
  | nil => rfl
  | cons head rest ih =>
    obtain ⟨k, v⟩ := head
    cases h : compare key k with
    | lt => simp only [mapValues_cons, put, h]
    | eq => simp only [mapValues_cons, put, h]
    | gt => simp only [mapValues_cons, put, h, ih]

/-- Settling looks at the keys only. -/
theorem settle_mapValues (f : α → β) (writes : List (κ × α)) :
    settle (mapValues f writes) = mapValues f (settle writes) := by
  suffices hfold : ∀ entries : List (κ × α),
      (mapValues f writes).foldl (fun entries write => put write.1 write.2 entries)
          (mapValues f entries) =
        mapValues f (writes.foldl (fun entries write => put write.1 write.2 entries) entries) from
    hfold []
  induction writes with
  | nil => exact fun _ => rfl
  | cons write rest ih =>
    intro entries
    simp only [mapValues_cons, List.foldl_cons, put_mapValues]
    exact ih _

end Settle

section Order

variable [Ord κ] [Std.LawfulEqOrd κ]

theorem compare_self_ne_lt (key : κ) : compare key key ≠ .lt := by simp

variable [Std.TransOrd κ]

omit [Std.LawfulEqOrd κ] in
/-- A key above all others is written at the end. -/
theorem put_of_forall_lt {key : κ} {value : α} {entries : List (κ × α)}
    (h : ∀ e ∈ entries, compare e.1 key = .lt) :
    put key value entries = entries ++ [(key, value)] := by
  induction entries with
  | nil => rfl
  | cons head rest ih =>
    obtain ⟨k, v⟩ := head
    have hgt : compare key k = .gt := Std.OrientedCmp.gt_iff_lt.2 (h _ List.mem_cons_self)
    rw [put, hgt, List.cons_append]
    exact congrArg _ (ih fun e he => h e (List.mem_cons_of_mem _ he))

omit [Std.LawfulEqOrd κ] in
/-- What stands in key order is left as it is. -/
theorem settle_of_ascending {entries : List (κ × α)} (h : Ascending entries) :
    settle entries = entries := by
  suffices hfold : ∀ before rest : List (κ × α), Ascending (before ++ rest) →
      rest.foldl (fun entries write => put write.1 write.2 entries) before = before ++ rest from
    hfold [] entries h
  intro before rest
  induction rest generalizing before with
  | nil => exact fun _ => (List.append_nil before).symm
  | cons write rest ih =>
    intro h
    -- the entries so far are below the next key
    have hbelow : ∀ e ∈ before, compare e.1 write.1 = .lt := fun e he =>
      (List.pairwise_append.1 h).2.2 e he write List.mem_cons_self
    have hsplit : before ++ write :: rest = before ++ [write] ++ rest := by simp
    rw [List.foldl_cons, put_of_forall_lt hbelow, ih _ (hsplit ▸ h), hsplit]

theorem settle_settle (writes : List (κ × α)) : settle (settle writes) = settle writes :=
  settle_of_ascending (ascending_settle writes)

variable [DecidableEq κ]

omit [Std.TransOrd κ] in
/-- Under a key stands its last write. -/
theorem lookup_settle (key : κ) (writes : List (κ × α)) :
    (settle writes).lookup key = last? key writes := by
  suffices hfold : ∀ entries : List (κ × α),
      (writes.foldl (fun entries write => put write.1 write.2 entries) entries).lookup key =
        (last? key writes).or (entries.lookup key) by
    rw [settle, hfold []]
    simp
  induction writes with
  | nil => exact fun _ => rfl
  | cons write rest ih =>
    intro entries
    rw [List.foldl_cons, ih, lookup_put, last?, last?, List.reverse_cons, List.lookup_append,
      Option.or_assoc, lookup_cons_eq]
    split <;> simp

theorem last?_settle (key : κ) (writes : List (κ × α)) :
    last? key (settle writes) = last? key writes := by
  rw [← lookup_settle, settle_settle, lookup_settle]

omit [Ord κ] [Std.TransOrd κ] [Std.LawfulEqOrd κ] in
theorem mem_of_lookup {key : κ} {value : α} {entries : List (κ × α)}
    (h : entries.lookup key = some value) : (key, value) ∈ entries := by
  induction entries with
  | nil => exact absurd h (by simp)
  | cons head rest ih =>
    rw [lookup_cons_eq] at h
    split at h
    · next heq => exact heq ▸ Option.some.inj h ▸ List.mem_cons_self
    · exact List.mem_cons_of_mem _ (ih h)

omit [Ord κ] [Std.TransOrd κ] [Std.LawfulEqOrd κ] in
theorem mem_of_last? {key : κ} {value : α} {writes : List (κ × α)}
    (h : last? key writes = some value) : (key, value) ∈ writes :=
  List.mem_reverse.1 (mem_of_lookup h)

omit [Std.TransOrd κ] in
/-- In a table each entry is found under its key. -/
theorem Ascending.lookup_of_mem {key : κ} {value : α} {entries : List (κ × α)}
    (h : Ascending entries) (he : (key, value) ∈ entries) : entries.lookup key = some value := by
  induction entries with
  | nil => exact absurd he List.not_mem_nil
  | cons head rest ih =>
    obtain ⟨hhead, hrest⟩ := List.pairwise_cons.1 h
    rw [lookup_cons_eq]
    rcases List.mem_cons.1 he with rfl | he
    · rw [if_pos rfl]
    · have hne : key ≠ head.1 := by
        rintro rfl
        exact compare_self_ne_lt head.1 (hhead (head.1, value) he)
      rw [if_neg hne, ih hrest he]

omit [DecidableEq κ] in
/-- Tables with the same entries are the same list. -/
theorem Ascending.eq_of_mem_iff {entries others : List (κ × α)} (h : Ascending entries)
    (h' : Ascending others) (hmem : ∀ e, e ∈ entries ↔ e ∈ others) : entries = others := by
  induction entries generalizing others with
  | nil => exact (List.eq_nil_iff_forall_not_mem.2 fun e he => by simpa using (hmem e).2 he).symm
  | cons head rest ih =>
    cases others with
    | nil => exact absurd ((hmem head).1 List.mem_cons_self) List.not_mem_nil
    | cons head' rest' =>
      obtain ⟨hhead, hrest⟩ := List.pairwise_cons.1 h
      obtain ⟨hhead', hrest'⟩ := List.pairwise_cons.1 h'
      -- the heads are the least of both lists
      have heq : head = head' := by
        rcases List.mem_cons.1 ((hmem head).1 List.mem_cons_self) with heq | hin
        · exact heq
        rcases List.mem_cons.1 ((hmem head').2 List.mem_cons_self) with heq | hin'
        · exact heq.symm
        exact absurd (Std.TransCmp.lt_trans (hhead _ hin') (hhead' _ hin)) (compare_self_ne_lt _)
      subst heq
      refine congrArg _ (ih hrest hrest' fun e => ⟨fun he => ?_, fun he => ?_⟩)
      · rcases List.mem_cons.1 ((hmem e).1 (List.mem_cons_of_mem _ he)) with rfl | he'
        · exact absurd (hhead _ he) (compare_self_ne_lt _)
        · exact he'
      · rcases List.mem_cons.1 ((hmem e).2 (List.mem_cons_of_mem _ he)) with rfl | he'
        · exact absurd (hhead' _ he) (compare_self_ne_lt _)
        · exact he'

/-- Two rows of writes leave the same behind if and only if their last writes are
    the same. -/
theorem settle_eq_iff {writes others : List (κ × α)} :
    settle writes = settle others ↔ ∀ key, last? key writes = last? key others := by
  constructor
  · intro h key
    rw [← lookup_settle, h, lookup_settle]
  · intro h
    refine (ascending_settle writes).eq_of_mem_iff (ascending_settle others) fun e => ?_
    have hlookup : ∀ key, (settle writes).lookup key = (settle others).lookup key := fun key => by
      rw [lookup_settle, lookup_settle, h]
    exact ⟨fun he => mem_of_lookup (hlookup e.1 ▸ (ascending_settle writes).lookup_of_mem he),
      fun he => mem_of_lookup (hlookup e.1 ▸ (ascending_settle others).lookup_of_mem he)⟩

end Order

section Last

variable [DecidableEq κ]

theorem last?_cons (key : κ) (e : κ × α) (writes : List (κ × α)) :
    last? key (e :: writes) = (last? key writes).or (if key = e.1 then some e.2 else none) := by
  obtain ⟨k, v⟩ := e
  rw [last?, List.reverse_cons, List.lookup_append, lookup_cons_eq, List.lookup_nil]
  rfl

/-- What is given by place is given under the name of the place. -/
theorem last?_zip {names : List κ} (hnames : names.Nodup) (values : List α) {i : Nat} {name : κ}
    (h : names[i]? = some name) : last? name (names.zip values) = values[i]? := by
  induction names generalizing values i with
  | nil => exact absurd h (by simp)
  | cons k names ih =>
    obtain ⟨hk, hrest⟩ := List.nodup_cons.1 hnames
    rcases values with _ | ⟨v, values⟩
    · rfl
    rw [List.zip_cons_cons, last?_cons]
    rcases i with _ | i
    · -- the name does not come again
      obtain rfl : k = name := by simpa using h
      have hnone : last? k (names.zip values) = none := by
        refine Option.eq_none_iff_forall_not_mem.2 fun value hvalue => hk ?_
        exact (List.of_mem_zip (mem_of_last? hvalue)).1
      simp [hnone]
    · have hne : name ≠ k := by
        rintro rfl
        exact hk (List.mem_of_getElem? h)
      rw [if_neg hne, Option.or_none]
      exact ih hrest values h

end Last

end Entries

namespace Table

variable {κ α : Type} [Ord κ] [DecidableEq κ] [Std.TransOrd κ] [Std.LawfulEqOrd κ]

/-- Tables with the same associations are the same. -/
theorem ext_get? {table other : Table κ α} (h : ∀ key, table.get? key = other.get? key) :
    table = other := by
  obtain ⟨entries, ascending⟩ := table
  obtain ⟨others, ascending'⟩ := other
  have hlookup : ∀ key, entries.lookup key = others.lookup key := h
  have hmem : ∀ e, e ∈ entries ↔ e ∈ others := by
    intro e
    constructor
    · intro he
      exact Entries.mem_of_lookup (hlookup e.1 ▸ ascending.lookup_of_mem he)
    · intro he
      exact Entries.mem_of_lookup ((hlookup e.1).trans (ascending'.lookup_of_mem he))
  rw [Table.mk.injEq]
  exact ascending.eq_of_mem_iff ascending' hmem

/-- What is written under several keys is found under each of them. -/
theorem get?_foldl_put (keys : List κ) (value : α) (table : Table κ α) (key : κ) :
    (keys.foldl (fun table key => table.put key value) table).get? key =
      if key ∈ keys then some value else table.get? key := by
  induction keys generalizing table with
  | nil => rfl
  | cons k keys ih =>
    rw [List.foldl_cons, ih, get?_put]
    by_cases hkey : key = k
    · simp [hkey]
    · simp [hkey]

end Table

end HostBridge
