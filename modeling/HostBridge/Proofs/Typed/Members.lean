import HostBridge.Proofs.Typed.Readers
import Mathlib.Data.List.Pairwise

/-!
# The members of a map and the fields of a record

A record is read from a map member by member. Where the fields do not disturb each
other (`Record.Separate`), the order of the members decides nothing but which error is
reported.

* `Record.Separate.readMembers_eq_ok_of_perm`: members in another order give the same
  record.
* `Record.readMembers_eq_error_iff`: the first member that is refused is reported; in a
  map this is the one with the least key.
* `Record.exists_readMembers_iff_fields`: the members are read if each field reads the one
  of its name; and each part of a record is what the field for it has read
  (`Record.fills_of_readMembers`).
* `Record.ofMembers_eq_ok_iff`: a map is read if its members are and nothing that is
  required is missing.
* `Record.readMembers_of_perm_fields`: the fields may be declared in any order.
-/

namespace HostBridge

theorem exists_of_bind_eq_ok {ε α β : Type} {x : Except ε α} {f : α → Except ε β} {y : β}
    (h : (x >>= f) = .ok y) : ∃ v, x = .ok v ∧ f v = .ok y := by
  cases x with
  | error e => exact absurd h (by simp [bind, Except.bind])
  | ok v => exact ⟨v, rfl, h⟩

namespace Entries

variable {κ α : Type} [DecidableEq κ]

/-- Under different keys each write is the last one of its key. -/
theorem last?_of_mem {writes : List (κ × α)} (h : (writes.map (·.1)).Nodup) {e : κ × α}
    (he : e ∈ writes) : last? e.1 writes = some e.2 := by
  induction writes with
  | nil => exact absurd he List.not_mem_nil
  | cons write rest ih =>
    obtain ⟨hwrite, hrest⟩ := List.nodup_cons.1 h
    rw [last?_cons]
    rcases List.mem_cons.1 he with rfl | he
    · have hnone : last? e.1 rest = none := by
        refine Option.eq_none_iff_forall_ne_some.2 fun value hvalue => hwrite ?_
        exact List.mem_map.2 ⟨_, mem_of_last? hvalue, rfl⟩
      rw [hnone, if_pos rfl, Option.none_or]
    · rw [ih hrest he, Option.some_or]

variable [Ord κ] [Std.LawfulEqOrd κ] [Std.TransOrd κ]

omit [DecidableEq κ] [Std.TransOrd κ] in
/-- In a table no key occurs twice. -/
theorem Ascending.nodup {entries : List (κ × α)} (h : Ascending entries) :
    (entries.map (·.1)).Nodup := by
  rw [List.Nodup, List.pairwise_map]
  refine h.imp fun hlt heq => ?_
  rw [heq] at hlt
  exact compare_self_ne_lt _ hlt

/-- What is left behind is the last write of each key. -/
theorem mem_settle_iff {writes : List (κ × α)} {e : κ × α} :
    e ∈ settle writes ↔ last? e.1 writes = some e.2 := by
  rw [← lookup_settle]
  exact ⟨(ascending_settle writes).lookup_of_mem, mem_of_lookup⟩

/-- What is written under different keys is left behind, in key order. -/
theorem settle_perm {writes : List (κ × α)} (h : (writes.map (·.1)).Nodup) :
    (settle writes).Perm writes := by
  have hsettle := (ascending_settle writes).nodup
  refine (List.perm_ext_iff_of_nodup hsettle.of_map h.of_map).2 fun e => ?_
  exact ⟨mem_of_mem_settle, fun he => mem_settle_iff.2 (last?_of_mem h he)⟩

end Entries

namespace Reader

variable {α : Type} {read : Reader α} {standard a b : α} {arg : Option Json}

/-- What a field gets, given its argument or none: what is read from the argument, or what is
    standard without one. -/
inductive Fills (read : Reader α) (standard : α) : Option Json → α → Prop
  | missing : Fills read standard none standard
  | given {x : Json} {a : α} (h : read x = .ok a) : Fills read standard (some x) a

theorem Fills.unique (ha : read.Fills standard arg a) (hb : read.Fills standard arg b) :
    a = b := by
  cases ha with
  | missing =>
    cases hb
    rfl
  | given ha =>
    cases hb with
    | given hb => exact Except.ok.inj (ha.symm.trans hb)

/-- What fills a field is read by it. -/
theorem Fills.exists_read {ρ : Type} {name : String} {set : α → ρ → ρ}
    (h : read.Fills standard arg a) {x : Json} (hx : arg = some x) :
    ∃ change, (Field.optional name read set).read x = .ok change := by
  cases h with
  | missing => exact absurd hx (by simp)
  | given h =>
    obtain rfl := Option.some.inj hx
    exact ⟨_, congrArg (Except.map set) h⟩

end Reader

namespace Field

variable {ρ α β : Type}

/-- It does not matter which of the two fields changes a record first. -/
def Commutes (f g : Field ρ) : Prop :=
  ∀ x y set set', f.read x = .ok set → g.read y = .ok set' → ∀ a, set (set' a) = set' (set a)

instance : Std.Symm (@Commutes ρ) :=
  ⟨fun _ _ h x y set set' hx hy a => (h y x set' set hy hx a).symm⟩

/-- A field that sets a part of a record shows what it has read there. -/
theorem shows_part {name : String} {read : Reader α} {set : α → ρ → ρ} {part : ρ → α}
    (h : ∀ v a, part (set v a) = v) :
    (optional name read set).Shows (fun a => some (part a)) fun x => (read x).toOption := by
  refine shows_optional fun x v hread a => ?_
  rw [h, hread]
  rfl

/-- Fields commute if what they set does. -/
theorem commutes_of_set {name name' : String} {required required' : Bool} {read : Reader α}
    {read' : Reader β} {set : α → ρ → ρ} {set' : β → ρ → ρ}
    (h : ∀ v w a, set v (set' w a) = set' w (set v a)) :
    Commutes ⟨name, required, fun x => (read x).map set⟩
      ⟨name', required', fun x => (read' x).map set'⟩ := by
  intro x y change change' hx hy a
  obtain ⟨v, -, rfl⟩ := exists_of_map_eq_ok hx
  obtain ⟨w, -, rfl⟩ := exists_of_map_eq_ok hy
  exact h v w a

end Field

namespace Record

variable {ρ : Type} {r : Record ρ} {a b : ρ} {e : ValueError}
  {members others : List (String × Json)}

/-- The fields have different names and do not disturb each other. -/
structure Separate (r : Record ρ) : Prop where
  names : (r.fields.map (·.name)).Nodup
  commutes : r.fields.Pairwise Field.Commutes

/-- Two fields of different names do not disturb each other. -/
theorem Separate.commutes_of_ne (h : r.Separate) {f g : Field ρ} (hf : f ∈ r.fields)
    (hg : g ∈ r.fields) (hne : f.name ≠ g.name) : f.Commutes g :=
  h.commutes.forall hf hg fun heq => hne (heq ▸ rfl)

/-! ## Members one by one -/

/-- What a member does to a record: nothing, if there is no field of its name. -/
def change (r : Record ρ) (m : String × Json) : Except ValueError (ρ → ρ) :=
  match r.fields.find? (·.name == m.1) with
  | some field => field.read m.2
  | none => .ok id

theorem change_of_find? {m : String × Json} {field : Field ρ}
    (h : r.fields.find? (·.name == m.1) = some field) : r.change m = field.read m.2 := by
  rw [change, h]

theorem readMembers_cons (a : ρ) (m : String × Json) (members : List (String × Json)) :
    r.readMembers a (m :: members) =
      (r.change m).bind fun set => r.readMembers (set a) members := by
  rw [readMembers, change]
  cases r.fields.find? (·.name == m.1) <;> rfl

theorem readMembers_cons_of_ok {m : String × Json} {set : ρ → ρ} (h : r.change m = .ok set) (a : ρ)
    (members : List (String × Json)) :
    r.readMembers a (m :: members) = r.readMembers (set a) members := by
  rw [readMembers_cons, h]
  rfl

theorem readMembers_cons_of_error {m : String × Json} (h : r.change m = .error e) (a : ρ)
    (members : List (String × Json)) : r.readMembers a (m :: members) = .error e := by
  rw [readMembers_cons, h]
  rfl

/-- Members with different keys do not disturb each other. -/
theorem Separate.change_comm (h : r.Separate) {m m' : String × Json} (hne : m.1 ≠ m'.1)
    {set set' : ρ → ρ} (hm : r.change m = .ok set) (hm' : r.change m' = .ok set') (a : ρ) :
    set (set' a) = set' (set a) := by
  rw [change] at hm hm'
  split at hm
  · next f hf =>
    split at hm'
    · next g hg =>
      have hfname : f.name = m.1 := by simpa using List.find?_some hf
      have hgname : g.name = m'.1 := by simpa using List.find?_some hg
      exact h.commutes_of_ne (List.mem_of_find?_eq_some hf) (List.mem_of_find?_eq_some hg)
        (hfname ▸ hgname ▸ hne) _ _ _ _ hm hm' a
    · rw [← Except.ok.inj hm']
      rfl
  · rw [← Except.ok.inj hm]
    rfl

/-- Members in another order give the same record. -/
theorem Separate.readMembers_eq_ok_of_perm (h : r.Separate) (hperm : members.Perm others)
    (hkeys : (members.map (·.1)).Nodup) (hread : r.readMembers a members = .ok b) :
    r.readMembers a others = .ok b := by
  induction hperm generalizing a with
  | nil => exact hread
  | @cons m members others _ ih =>
    rw [readMembers_cons] at hread ⊢
    obtain ⟨set, hset, hread⟩ := exists_of_bind_eq_ok hread
    rw [hset]
    exact ih (List.nodup_cons.1 hkeys).2 hread
  | @swap m m' members =>
    have hne : m'.1 ≠ m.1 := by
      simp only [List.map_cons, List.nodup_cons, List.mem_cons, not_or] at hkeys
      exact hkeys.1.1
    rw [readMembers_cons] at hread
    obtain ⟨set', hset', hread⟩ := exists_of_bind_eq_ok hread
    rw [readMembers_cons] at hread
    obtain ⟨set, hset, hread⟩ := exists_of_bind_eq_ok hread
    rw [readMembers_cons_of_ok hset, readMembers_cons_of_ok hset', h.change_comm hne hset' hset]
    exact hread
  | trans hperm _ ih ih' =>
    exact ih' ((hperm.map _).nodup_iff.1 hkeys) (ih hkeys hread)

/-- The members are read if none of them is refused. -/
theorem exists_readMembers_iff :
    (∃ b, r.readMembers a members = .ok b) ↔ ∀ m ∈ members, ∃ set, r.change m = .ok set := by
  induction members generalizing a with
  | nil => simp [readMembers]
  | cons m members ih =>
    rw [List.forall_mem_cons]
    cases hm : r.change m with
    | error e => simp [readMembers_cons_of_error hm]
    | ok set =>
      rw [readMembers_cons_of_ok hm, ih]
      exact (and_iff_right ⟨set, rfl⟩).symm

/-- Of the members that are refused the one with the least key is reported. -/
theorem readMembers_eq_error_iff (h : Entries.Ascending members) :
    r.readMembers a members = .error e ↔ ∃ m ∈ members, r.change m = .error e ∧
      ∀ m' ∈ members, (∃ e', r.change m' = .error e') → m' ≠ m → compare m.1 m'.1 = .lt := by
  induction members generalizing a with
  | nil => simp [readMembers]
  | cons m members ih =>
    obtain ⟨hm, hmembers⟩ := List.pairwise_cons.1 h
    cases hchange : r.change m with
    | error e' =>
      -- the first member has the least key of all
      rw [readMembers_cons_of_error hchange]
      constructor
      · intro heq
        refine ⟨m, List.mem_cons_self, hchange.trans (congrArg _ (Except.error.inj heq)), ?_⟩
        intro m' hm' _ hne
        exact hm m' ((List.mem_cons.1 hm').resolve_left hne)
      · rintro ⟨m', hm', hchange', hleast⟩
        rcases List.mem_cons.1 hm' with rfl | hm'
        · rw [Except.error.inj (hchange.symm.trans hchange')]
        · have hlt := hm m' hm'
          have hne : m ≠ m' := by
            rintro rfl
            exact Entries.compare_self_ne_lt _ hlt
          have hgt := hleast m List.mem_cons_self ⟨e', hchange⟩ hne
          exact absurd (Std.TransCmp.lt_trans hlt hgt) (Entries.compare_self_ne_lt _)
    | ok set =>
      rw [readMembers_cons_of_ok hchange, ih hmembers]
      constructor
      · rintro ⟨m', hm', hchange', hleast⟩
        refine ⟨m', List.mem_cons_of_mem m hm', hchange', List.forall_mem_cons.2 ⟨?_, hleast⟩⟩
        rintro ⟨e', he'⟩
        exact absurd (hchange.symm.trans he') (by simp)
      · rintro ⟨m', hm', hchange', hleast⟩
        rcases List.mem_cons.1 hm' with rfl | hm'
        · exact absurd (hchange.symm.trans hchange') (by simp)
        · exact ⟨m', hm', hchange', (List.forall_mem_cons.1 hleast).2⟩

/-- The members are read if each field reads what was given under its name. -/
theorem exists_readMembers_iff_fields (hnames : (r.fields.map (·.name)).Nodup)
    (hkeys : (members.map (·.1)).Nodup) : (∃ b, r.readMembers a members = .ok b) ↔
      ∀ field ∈ r.fields, ∀ x, Entries.last? field.name members = some x →
        ∃ set, field.read x = .ok set := by
  rw [exists_readMembers_iff]
  constructor
  · intro h field hfield x hx
    rw [← change_of_find? (r := r) (m := (field.name, x)) (find?_name hnames hfield)]
    exact h _ (Entries.mem_of_last? hx)
  · intro h m hm
    cases hfind : r.fields.find? (·.name == m.1) with
    | none => exact ⟨id, by rw [change, hfind]⟩
    | some field =>
      have hname : field.name = m.1 := by simpa using List.find?_some hfind
      rw [change_of_find? hfind]
      exact h field (List.mem_of_find?_eq_some hfind) m.2
        (hname ▸ Entries.last?_of_mem hkeys hm)

/-- A part of a record is what its field makes of the member of its name. -/
theorem fills_of_readMembers {α : Type} {part : ρ → α} {read : Reader α} {name : String}
    (h : r.SeenBy (fun a => some (part a)) (fun x => (read x).toOption) name)
    (hread : r.readMembers a members = .ok b) :
    read.Fills (part a) (Entries.last? name members) (part b) := by
  have hview := view_readMembers h hread
  rcases hlast : Entries.last? name members with _ | x
  · rw [hlast] at hview
    rw [Option.some.inj hview]
    exact .missing
  · rw [hlast, Option.map_some, Option.getD_some] at hview
    rcases hx : read x with e | v
    · exact absurd hview (by simp [hx, Except.toOption])
    · rw [hx] at hview
      exact .given (hx.trans (congrArg _ (Option.some.inj hview).symm))

/-! ## Whole maps -/

theorem missing?_eq_none_iff : r.missing? members = none ↔
    ∀ field ∈ r.fields, field.required = true → field.name ∈ members.map (·.1) := by
  rw [missing?, Option.map_eq_none_iff, List.find?_eq_none]
  refine forall₂_congr fun field _ => ?_
  simp

/-- A map is read if its members are, and nothing that is required is missing. -/
theorem ofMembers_eq_ok_iff : r.ofMembers members = .ok b ↔
    r.readMembers r.blank members = .ok b ∧
      ∀ field ∈ r.fields, field.required = true → field.name ∈ members.map (·.1) := by
  rw [← missing?_eq_none_iff, ofMembers]
  cases r.readMembers r.blank members with
  | error e => simp [bind, Except.bind]
  | ok a => cases r.missing? members <;> simp [bind, Except.bind, pure, Except.pure]

/-- What a map is read as does not depend on the order of its members. -/
theorem Separate.ofMembers_eq_ok_iff_of_perm (h : r.Separate) (hperm : members.Perm others)
    (hkeys : (members.map (·.1)).Nodup) :
    r.ofMembers members = .ok b ↔ r.ofMembers others = .ok b := by
  have hothers : (others.map (·.1)).Nodup := (hperm.map _).nodup_iff.1 hkeys
  rw [ofMembers_eq_ok_iff, ofMembers_eq_ok_iff]
  refine and_congr ⟨h.readMembers_eq_ok_of_perm hperm hkeys,
    h.readMembers_eq_ok_of_perm hperm.symm hothers⟩ ?_
  simp only [(hperm.map _).mem_iff]

/-- Where nothing is required, all depends on the members. -/
theorem ofMembers_of_optional (h : ∀ field ∈ r.fields, field.required = false) :
    r.ofMembers members = r.readMembers r.blank members := by
  have hmissing : r.missing? members = none := missing?_eq_none_iff.2 fun field hfield hrequired =>
    absurd ((h field hfield).symm.trans hrequired) (by simp)
  rw [ofMembers, hmissing]
  cases r.readMembers r.blank members <;> rfl

/-! ## The order of the fields -/

theorem find?_name_of_perm {fields : List (Field ρ)} (hnames : (r.fields.map (·.name)).Nodup)
    (hperm : fields.Perm r.fields) (key : String) :
    fields.find? (·.name == key) = r.fields.find? (·.name == key) := by
  cases hfind : fields.find? (·.name == key) with
  | none =>
    refine (List.find?_eq_none.2 fun field hfield => ?_).symm
    exact List.find?_eq_none.1 hfind field (hperm.mem_iff.2 hfield)
  | some field =>
    have hname : field.name = key := by simpa using List.find?_some hfind
    rw [← hname]
    exact (find?_name hnames (hperm.mem_iff.1 (List.mem_of_find?_eq_some hfind))).symm

/-- Fields that are found by their names may be declared in any order. -/
theorem readMembers_of_perm_fields {fields : List (Field ρ)}
    (hnames : (r.fields.map (·.name)).Nodup) (hperm : fields.Perm r.fields) :
    ({ r with fields }).readMembers a members = r.readMembers a members := by
  induction members generalizing a with
  | nil => rfl
  | cons m members ih =>
    rw [readMembers_cons, readMembers_cons, change, change, find?_name_of_perm hnames hperm]
    simp only [ih]

end Record

end HostBridge
