import HostBridge.Proofs.Typed.Readers
import Mathlib.Data.List.Forall2

/-!
# Variants and their names

A choice is a table of names and variants. Where no name and no variant comes twice
(`Choice.Distinct`) the table can be used in both directions.

* `Choice.Distinct.write_eq_ok_iff`, `Choice.Distinct.read_string`: a variant is written as
  its name, and the name is read as the variant.
* `Reader.elements_eq_ok_iff`, `Reader.elements_eq_error_iff`: a list is read element by
  element, up to the first that is refused.
* `Choice.exists_writeElements`: variants in a row are written one by one.
-/

namespace HostBridge

/-! ## Tables of names -/

/-- Under different keys each entry is found under its own. -/
theorem Entries.lookup_of_mem {κ α : Type} [DecidableEq κ] {entries : List (κ × α)} {key : κ}
    {value : α} (h : (entries.map (·.1)).Nodup) (he : (key, value) ∈ entries) :
    entries.lookup key = some value := by
  obtain ⟨before, after, rfl⟩ := List.append_of_mem he
  refine List.lookup_eq_some_iff.2 ⟨before, after, rfl, fun e hbefore => bne_iff_ne.2 ?_⟩
  rintro rfl
  rw [List.map_append, List.map_cons, List.nodup_append] at h
  exact h.2.2 e.1 (List.mem_map_of_mem hbefore) e.1 List.mem_cons_self rfl

namespace Choice

variable {α : Type} {c : Choice α} {a : α} {name : String}

/-- No name and no variant comes twice. -/
structure Distinct (c : Choice α) : Prop where
  names : (c.named.map (·.1)).Nodup
  variants : (c.named.map (·.2)).Nodup

theorem Distinct.lookup_eq_some_iff (h : c.Distinct) :
    c.named.lookup name = some a ↔ (name, a) ∈ c.named :=
  ⟨Entries.mem_of_lookup, Entries.lookup_of_mem h.names⟩

/-- The name of a variant is read as the variant. -/
theorem Distinct.read_string (h : c.Distinct) (hname : (name, a) ∈ c.named) :
    c.read (.string name) = .ok a :=
  find_eq_ok_iff.2 (h.lookup_eq_some_iff.2 hname)

variable [DecidableEq α]

theorem Distinct.name?_eq_some_iff (h : c.Distinct) :
    c.name? a = some name ↔ (name, a) ∈ c.named := by
  rw [name?, Option.map_eq_some_iff]
  constructor
  · rintro ⟨e, hfind, rfl⟩
    have ha : e.2 = a := by simpa using List.find?_some hfind
    exact ha ▸ List.mem_of_find?_eq_some hfind
  · intro hname
    obtain ⟨e, hfind⟩ : ∃ e, c.named.find? (·.2 == a) = some e :=
      Option.isSome_iff_exists.1 (List.find?_isSome.2 ⟨_, hname, by simp⟩)
    have ha : e.2 = a := by simpa using List.find?_some hfind
    have he : e = (name, a) :=
      List.inj_on_of_nodup_map h.variants (List.mem_of_find?_eq_some hfind) hname ha
    exact ⟨e, hfind, by rw [he]⟩

/-- A variant is written as its name. -/
theorem Distinct.write_eq_ok_iff (h : c.Distinct) {v : Value} :
    c.write a = .ok v ↔ ∃ name, (name, a) ∈ c.named ∧ v = .string name := by
  simp only [← h.name?_eq_some_iff, write]
  cases c.name? a <;> simp [eq_comm]

/-- Variants that have names are written one by one. -/
theorem exists_writeElements {as : List α} (h : ∀ a ∈ as, ∃ v, c.write a = .ok v) :
    ∃ vs, c.writeElements as = .ok vs ∧ List.Forall₂ (fun a v => c.write a = .ok v) as vs := by
  induction as with
  | nil => exact ⟨[], rfl, .nil⟩
  | cons a as ih =>
    obtain ⟨⟨v, hv⟩, has⟩ := List.forall_mem_cons.1 h
    obtain ⟨vs, hvs, heach⟩ := ih has
    refine ⟨v :: vs, ?_, .cons hv heach⟩
    rw [writeElements, hv, hvs]
    rfl

end Choice

/-! ## Lists -/

namespace Reader

variable {α : Type} {read : Reader α}

theorem elements_cons_of_ok {x : Json} {a : α} (h : read x = .ok a) (xs : List Json) :
    elements read (x :: xs) = (elements read xs).map (a :: ·) := by
  rw [elements, h]
  rfl

theorem elements_cons_of_error {x : Json} {e : ValueError} (h : read x = .error e)
    (xs : List Json) : elements read (x :: xs) = .error e := by
  rw [elements, h]
  rfl

/-- A list is read if all its elements are, and in their order. -/
theorem elements_eq_ok_iff {xs : List Json} {as : List α} :
    elements read xs = .ok as ↔ List.Forall₂ (fun x a => read x = .ok a) xs as := by
  induction xs generalizing as with
  | nil => simp [elements, eq_comm]
  | cons x xs ih =>
    rw [List.forall₂_cons_left_iff]
    cases hx : read x with
    | error e => simp [elements_cons_of_error hx]
    | ok a =>
      rw [elements_cons_of_ok hx, map_eq_ok_iff]
      simp [ih, eq_comm]

/-- Of the elements that are refused the first is reported. -/
theorem elements_eq_error_iff {xs : List Json} {e : ValueError} :
    elements read xs = .error e ↔ ∃ before x after, xs = before ++ x :: after ∧
      (∀ y ∈ before, ∃ a, read y = .ok a) ∧ read x = .error e := by
  induction xs with
  | nil => simp [elements]
  | cons x xs ih =>
    cases hx : read x with
    | error e' =>
      rw [elements_cons_of_error hx]
      constructor
      · intro h
        exact ⟨[], x, xs, rfl, List.forall_mem_nil _, by rw [hx, Except.error.inj h]⟩
      · rintro ⟨_ | ⟨y, before⟩, z, after, heq, hbefore, hz⟩
        · obtain ⟨rfl, -⟩ := List.cons.inj heq
          rw [Except.error.inj (hx.symm.trans hz)]
        · -- nothing before the one that is reported is refused
          obtain ⟨rfl, -⟩ := List.cons.inj heq
          obtain ⟨a, ha⟩ := hbefore x List.mem_cons_self
          exact absurd (hx.symm.trans ha) (by simp)
    | ok a =>
      rw [elements_cons_of_ok hx]
      constructor
      · intro h
        have hxs : elements read xs = .error e := by
          cases hread : elements read xs with
          | error e' => exact congrArg _ (Except.error.inj (hread ▸ h))
          | ok as => exact absurd h (by simp [hread, Except.map])
        obtain ⟨before, y, after, rfl, hbefore, hy⟩ := ih.1 hxs
        exact ⟨x :: before, y, after, rfl, List.forall_mem_cons.2 ⟨⟨a, hx⟩, hbefore⟩, hy⟩
      · rintro ⟨_ | ⟨y, before⟩, z, after, heq, hbefore, hz⟩
        · obtain ⟨rfl, -⟩ := List.cons.inj heq
          exact absurd (hx.symm.trans hz) (by simp)
        · obtain ⟨-, rfl⟩ := List.cons.inj heq
          rw [ih.2 ⟨before, z, after, rfl, (List.forall_mem_cons.1 hbefore).2, hz⟩]
          rfl

end Reader

end HostBridge
