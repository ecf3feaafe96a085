import HostBridge.Platform.TaskDescription
import HostBridge.Platform.Clipboard
import HostBridge.Proofs.Typed.Members
import HostBridge.Proofs.Value.Trees
import HostBridge.Typed.Call

/-!
# Fields by place and by name

A record is read from a list by the places of its fields, in the order in which they are
declared, and from a map by their names, in the order of the names. The two ways have
rules of their own for what is missing and for what is too much. They agree wherever the
fields do not disturb each other.

* `Record.readElements_eq_ok_iff`: a list is read if it is not too long, its elements are
  read under the names of their places, and nothing that is required is left.
* `Record.readElements_append`: what goes on after the last field is refused for it.
* `Reader.ByPlace`: arguments mean the same by place and by name.
* `Record.Separate.byPlace`: so do those of every record with separate fields.
* `arguments_byPlace`: the records that are read from arguments.
-/

namespace HostBridge

theorem Entries.map_fst_zip_eq_take {κ α : Type} (keys : List κ) (values : List α) :
    (keys.zip values).map (·.1) = keys.take values.length := by
  induction keys generalizing values with
  | nil => simp
  | cons key keys ih =>
    cases values with
    | nil => rfl
    | cons value values => simp [ih]

theorem Entries.mapValues_zip {κ α β : Type} (f : α → β) (keys : List κ) (values : List α) :
    mapValues f (keys.zip values) = keys.zip (values.map f) :=
  List.zip_map_right.symm

namespace Record

variable {ρ : Type} {r : Record ρ} {a b : ρ} {fields : List (Field ρ)} {xs : List Json}
  {count index : Nat}

/-- A list is read as the members are that have the names of its places, if it has no
    more elements than there are fields, and no required field is left. -/
theorem readElements_eq_ok_iff
    (hfields : ∀ field ∈ fields, r.fields.find? (·.name == field.name) = some field) :
    r.readElements count index a fields xs = .ok b ↔ xs.length ≤ fields.length ∧
      r.readMembers a ((fields.map (·.name)).zip xs) = .ok b ∧
      ∀ field ∈ fields.drop xs.length, field.required = false := by
  induction fields generalizing index a xs with
  | nil => cases xs <;> simp [readElements, readMembers]
  | cons field fields ih =>
    obtain ⟨hfield, hrest⟩ := List.forall_mem_cons.1 hfields
    cases xs with
    | nil =>
      -- the list ends early, and only fields that may be missing are left
      rw [readElements]
      split
      · next hrequired => simp [hrequired]
      · next hrequired =>
        rw [ih hrest]
        simp [readMembers, hrequired]
    | cons x xs =>
      rw [readElements, List.map_cons, List.zip_cons_cons, readMembers_cons,
        change_of_find? hfield, List.length_cons, List.length_cons, List.drop_succ_cons,
        Nat.add_le_add_iff_right]
      cases field.read x with
      | error e => simp [bind, Except.bind]
      | ok set => exact ih hrest

/-- Where all fields have been read, a list that goes on is refused for its length. -/
theorem readElements_append (count' index' : Nat) {more : List Json} (hmore : more ≠ [])
    (hlength : xs.length = fields.length) (h : r.readElements count index a fields xs = .ok b) :
    r.readElements count' index' a fields (xs ++ more) = .error (.tooLong count') := by
  induction fields generalizing index index' a xs with
  | nil =>
    obtain rfl := List.eq_nil_of_length_eq_zero hlength
    cases more with
    | nil => exact absurd rfl hmore
    | cons x more => rfl
  | cons field fields ih =>
    cases xs with
    | nil => exact absurd hlength (by simp)
    | cons x xs =>
      rw [readElements] at h
      obtain ⟨set, hset, h⟩ := exists_of_bind_eq_ok h
      rw [List.cons_append, readElements, hset]
      exact ih _ (Nat.succ.inj hlength) h

end Record

namespace Reader

variable {α β : Type} {read : Reader α} {names : List String}

/-- Arguments mean the same by place and by name: a list that is not longer than the row
    of names is read as the map is that has its elements under the first of them, and a
    longer list is never read. -/
structure ByPlace (read : Reader α) (names : List String) : Prop where
  same : ∀ xs : List Value, xs.length ≤ names.length → ∀ a,
    (Value.list xs).as read = .ok a ↔ (Value.map (names.zip xs)).as read = .ok a
  tooLong : ∀ xs : List Value, names.length < xs.length →
    (∃ a, (Value.list (xs.take names.length)).as read = .ok a) →
    (Value.list xs).as read = .error (.tooLong xs.length)
  refused : ∀ xs : List Value, names.length < xs.length → ∀ a, (Value.list xs).as read ≠ .ok a

/-- What is made of the arguments afterwards does not matter. -/
theorem ByPlace.map (h : ByPlace read names) (f : α → β) :
    ByPlace (fun x => (read x).map f) names where
  same xs hle b := by
    rw [Value.as, Value.as, map_eq_ok_iff, map_eq_ok_iff]
    exact exists_congr fun a => and_congr_left' (h.same xs hle a)
  tooLong xs hlt := by
    rintro ⟨b, hb⟩
    obtain ⟨a, ha, -⟩ := exists_of_map_eq_ok hb
    have herror := h.tooLong xs hlt ⟨a, ha⟩
    rw [Value.as] at herror ⊢
    rw [herror]
    rfl
  refused xs hlt b hb := by
    obtain ⟨a, ha, -⟩ := exists_of_map_eq_ok hb
    exact h.refused xs hlt a ha

end Reader

namespace Record

variable {ρ : Type} {r : Record ρ}

/-- Only fields that may be missing are left if and only if all required ones are among
    the first. -/
theorem forall_drop_iff (hnames : (r.fields.map (·.name)).Nodup) (n : Nat) :
    (∀ field ∈ r.fields.drop n, field.required = false) ↔
      ∀ field ∈ r.fields, field.required = true → field.name ∈ (r.fields.map (·.name)).take n := by
  rw [← List.map_take]
  constructor
  · intro h field hfield hrequired
    rw [← List.take_append_drop n r.fields, List.mem_append] at hfield
    rcases hfield with htake | hdrop
    · exact List.mem_map_of_mem htake
    · exact absurd ((h field hdrop).symm.trans hrequired) (by simp)
  · intro h field hfield
    rw [← List.take_append_drop n r.fields, List.map_append, List.nodup_append] at hnames
    refine Bool.eq_false_iff.2 fun hrequired => ?_
    have htake := h field (List.mem_of_mem_drop hfield) hrequired
    exact hnames.2.2 _ htake _ (List.mem_map_of_mem hfield) rfl

/-- A record with separate fields is read by place as by name. -/
theorem Separate.byPlace (h : r.Separate) : Reader.ByPlace r.read (r.fields.map (·.name)) where
  same xs hle a := by
    have hkeys := Entries.map_fst_zip_eq_take (r.fields.map (·.name)) (xs.map Value.toJson)
    have hnodup : (((r.fields.map (·.name)).zip (xs.map Value.toJson)).map (·.1)).Nodup :=
      hkeys ▸ h.names.sublist (List.take_sublist _ _)
    rw [Value.as, Value.toJson_list, Value.as, Value.toJson_map, Entries.mapValues_zip]
    show r.ofElements _ = .ok a ↔ r.ofMembers _ = .ok a
    -- from the map the fields are read in the order of their names
    rw [h.ofMembers_eq_ok_iff_of_perm (Entries.settle_perm hnodup)
        ((Entries.settle_perm hnodup).map _ |>.nodup_iff.2 hnodup),
      ofElements, readElements_eq_ok_iff fun _ => find?_name h.names, ofMembers_eq_ok_iff, hkeys,
      forall_drop_iff h.names]
    rw [List.length_map] at hle
    simp [hle]
  tooLong xs hlt := by
    rintro ⟨a, ha⟩
    rw [List.length_map] at hlt ha
    rw [Value.as, Value.toJson_list] at ha ⊢
    have hsplit : xs.map Value.toJson = (xs.take r.fields.length).map Value.toJson ++
        (xs.drop r.fields.length).map Value.toJson := by
      rw [← List.map_append, List.take_append_drop]
    have hmore : (xs.drop r.fields.length).map Value.toJson ≠ [] := by
      simpa using Nat.not_le.2 hlt
    have hfirst : ((xs.take r.fields.length).map Value.toJson).length = r.fields.length := by
      simpa using Nat.le_of_lt hlt
    have herror := readElements_append xs.length 0 hmore hfirst ha
    rw [← hsplit] at herror
    rw [read, ofElements, List.length_map]
    exact herror
  refused xs hlt a ha := by
    rw [Value.as, Value.toJson_list, read, ofElements,
      readElements_eq_ok_iff fun _ => find?_name h.names] at ha
    rw [List.length_map] at hlt ha
    exact absurd ha.1 (Nat.not_le.2 hlt)

end Record

/-! ## The records that are read from arguments -/

theorem BarsStyle.separate_record : BarsStyle.record.Separate where
  names := by decide
  commutes := by
    simp only [record, Field.optional, List.pairwise_cons, List.forall_mem_cons,
      List.not_mem_nil, false_implies, implies_true, List.Pairwise.nil, and_true]
    -- each setting is a part of the style of its own
    and_intros
    all_goals exact Field.commutes_of_set fun _ _ _ => rfl

theorem SwitcherArgs.separate_record : SwitcherArgs.record.Separate where
  names := by decide
  commutes := List.pairwise_pair.2 (Field.commutes_of_set fun _ _ _ => rfl)

theorem MethodCall.separate_record : MethodCall.record.Separate where
  names := by decide
  commutes := List.pairwise_pair.2 (Field.commutes_of_set fun _ _ _ => rfl)

theorem ClipText.separate_record : ClipText.record.Separate where
  names := by decide
  commutes := List.pairwise_singleton _ _

theorem ClipPresence.separate_record : ClipPresence.record.Separate where
  names := by decide
  commutes := List.pairwise_singleton _ _

/-- Arguments mean the same by place and by name, for each record that is read from
    arguments. -/
theorem arguments_byPlace :
    Reader.ByPlace BarsStyle.record.read
      ["statusBarIconBrightness", "statusBarColor", "systemStatusBarContrastEnforced",
        "systemNavigationBarIconBrightness", "systemNavigationBarColor",
        "systemNavigationBarDividerColor", "systemNavigationBarContrastEnforced"] ∧
    Reader.ByPlace Switcher.read ["label", "primaryColor"] ∧
    Reader.ByPlace ClipText.record.read ["text"] ∧
    Reader.ByPlace ClipPresence.record.read ["value"] ∧
    Reader.ByPlace MethodCall.record.read ["method", "args"] :=
  ⟨BarsStyle.separate_record.byPlace, SwitcherArgs.separate_record.byPlace.map _,
    ClipText.separate_record.byPlace, ClipPresence.separate_record.byPlace,
    MethodCall.separate_record.byPlace⟩

/-- A text by place and by name, and one with something after it. -/
theorem arguments_byPlace_text :
    (Value.map [("text", .string "a")]).as ClipText.record.read = .ok ⟨"a"⟩ ∧
      (Value.list [.string "a", .null]).as ClipText.record.read = .error (.tooLong 2) := by
  obtain ⟨-, -, htext, -⟩ := arguments_byPlace
  have hread : (Value.list [.string "a"]).as ClipText.record.read = .ok ⟨"a"⟩ := rfl
  exact ⟨(htext.same [.string "a"] (by decide) _).1 hread,
    htext.tooLong [.string "a", .null] (by decide) ⟨_, hread⟩⟩

end HostBridge
