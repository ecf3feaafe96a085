import HostBridge.Proofs.Table
import HostBridge.Value.Shape

/-!
# The contents of values

A map is given by the writes that built it, and what counts are its contents.
They are the same for two values if and only if the canonical forms are equal
(`Value.same_iff`), so having the same contents is an equivalence. A value and
its canonical form have the same contents (`Value.same_canonical`), and null can
be put in place of whatever is no finite number before or after
(`Value.canonical_finite`).

Values are nested in rows of themselves; `Value.induction` has a hypothesis for
every element of a list and for everything written into a map.
-/

namespace HostBridge

namespace Entries

variable {κ α β : Type} [BEq κ]

theorem last?_mapValues (f : α → β) (key : κ) (writes : List (κ × α)) :
    last? key (mapValues f writes) = (last? key writes).map f := by
  rw [last?, last?, mapValues, ← List.map_reverse]
  induction writes.reverse with
  | nil => rfl
  | cons e rest ih =>
    rw [List.map_cons, List.lookup_cons, List.lookup_cons]
    cases key == e.1 with
    | true => rfl
    | false => exact ih

end Entries

namespace Value

/-- What holds of every element holds of a list, what holds of everything
    written into a map holds of the map. -/
@[elab_as_elim]
theorem induction {motive : Value → Prop} (null : motive .null)
    (bool : ∀ value, motive (.bool value)) (int : ∀ n, motive (.int n))
    (float : ∀ x, motive (.float x)) (string : ∀ text, motive (.string text))
    (list : ∀ elements, (∀ v ∈ elements, motive v) → motive (.list elements))
    (map : ∀ writes, (∀ w ∈ writes, motive w.2) → motive (.map writes)) (v : Value) : motive v :=
  @Value.rec motive (fun vs => ∀ v ∈ vs, motive v) (fun ws => ∀ w ∈ ws, motive w.2)
    (fun w => motive w.2) null bool int float string list map
    (fun _ h => absurd h List.not_mem_nil) (fun _ _ hv hvs => List.forall_mem_cons.2 ⟨hv, hvs⟩)
    (fun _ h => absurd h List.not_mem_nil) (fun _ _ hw hws => List.forall_mem_cons.2 ⟨hw, hws⟩)
    (fun _ _ hv => hv) v

/-! ## Rows -/

theorem canonicalElements_eq_map (vs : List Value) : canonicalElements vs = vs.map canonical := by
  induction vs with
  | nil => rfl
  | cons v vs ih => rw [canonicalElements, ih, List.map_cons]

theorem canonicalWrites_eq_mapValues (ws : List (String × Value)) :
    canonicalWrites ws = Entries.mapValues canonical ws := by
  induction ws with
  | nil => rfl
  | cons w ws ih => rw [canonicalWrites, ih, Entries.mapValues_cons]

theorem finiteElements_eq_map (vs : List Value) : finiteElements vs = vs.map finite := by
  induction vs with
  | nil => rfl
  | cons v vs ih => rw [finiteElements, ih, List.map_cons]

theorem finiteWrites_eq_mapValues (ws : List (String × Value)) :
    finiteWrites ws = Entries.mapValues finite ws := by
  induction ws with
  | nil => rfl
  | cons w ws ih => rw [finiteWrites, ih, Entries.mapValues_cons]

/-! ## Canonical forms -/

theorem canonical_list (vs : List Value) : (list vs).canonical = list (vs.map canonical) := by
  rw [canonical, canonicalElements_eq_map]

theorem canonical_map (ws : List (String × Value)) :
    (map ws).canonical = map (Entries.settle (Entries.mapValues canonical ws)) := by
  rw [canonical, canonicalWrites_eq_mapValues]

theorem finite_list (vs : List Value) : (list vs).finite = list (vs.map finite) := by
  rw [finite, finiteElements_eq_map]

theorem finite_map (ws : List (String × Value)) :
    (map ws).finite = map (Entries.mapValues finite ws) := by
  rw [finite, finiteWrites_eq_mapValues]

/-- A floating-point number stays or becomes null. -/
theorem finite_float_cases (x : Binary64) :
    (float x).finite = float x ∨ (float x).finite = null := by
  rw [finite]
  split
  · exact .inl rfl
  · exact .inr rfl

theorem canonical_canonical (v : Value) : v.canonical.canonical = v.canonical := by
  induction v using Value.induction with
  | null => rfl
  | bool value => rfl
  | int n => rfl
  | float x => rfl
  | string text => rfl
  | list vs ih =>
    rw [canonical_list, canonical_list, List.map_map]
    exact congrArg list (List.map_congr_left ih)
  | map ws ih =>
    rw [canonical_map, canonical_map, ← Entries.settle_mapValues, Entries.settle_settle,
      Entries.mapValues_mapValues]
    exact congrArg (fun ws => map (Entries.settle ws)) (Entries.mapValues_congr ih)

/-- Null can be put in place of whatever is no finite number before or after. -/
theorem canonical_finite (v : Value) : v.finite.canonical = v.canonical.finite := by
  induction v using Value.induction with
  | null => rfl
  | bool value => rfl
  | int n => rfl
  | float x =>
    show (float x).finite.canonical = (float x).finite
    rcases finite_float_cases x with h | h
    · rw [h]
      rfl
    · rw [h]
      rfl
  | string text => rfl
  | list vs ih =>
    rw [finite_list, canonical_list, canonical_list, finite_list, List.map_map, List.map_map]
    exact congrArg list (List.map_congr_left ih)
  | map ws ih =>
    rw [finite_map, canonical_map, canonical_map, finite_map, ← Entries.settle_mapValues,
      Entries.mapValues_mapValues, Entries.mapValues_mapValues]
    exact congrArg (fun ws => map (Entries.settle ws)) (Entries.mapValues_congr ih)

/-! ## Same contents -/

theorem canonical_eq_of_same {v w : Value} (h : Same v w) : v.canonical = w.canonical := by
  induction h with
  | refl v => rfl
  | @list vs ws length_eq _ ih =>
    rw [canonical_list, canonical_list]
    refine congrArg list (List.ext_getElem (by simpa using length_eq) fun i hv hw => ?_)
    rw [List.length_map] at hv hw
    rw [List.getElem_map, List.getElem_map]
    exact ih i _ _ (List.getElem?_eq_getElem hv) (List.getElem?_eq_getElem hw)
  | @map vs ws keys _ ih =>
    rw [canonical_map, canonical_map]
    refine congrArg map (Entries.settle_eq_iff.2 fun key => ?_)
    rw [Entries.last?_mapValues, Entries.last?_mapValues]
    have hkey := keys key
    cases hv : Entries.last? key vs with
    | none =>
      cases hw : Entries.last? key ws with
      | none => rfl
      | some w => rw [hv, hw] at hkey; exact absurd hkey (by simp)
    | some v =>
      rw [hv] at hkey
      obtain ⟨w, hw⟩ := Option.isSome_iff_exists.1 hkey.symm
      rw [hw, Option.map_some, Option.map_some, ih key v w hv hw]

theorem same_of_eq {v w : Value} (h : v = w) : Same v w := h ▸ .refl v

theorem same_of_canonical_eq {v w : Value} (h : v.canonical = w.canonical) : Same v w := by
  induction v using Value.induction generalizing w with
  | list vs ih =>
    cases w with
    | list ws =>
      rw [canonical_list, canonical_list] at h
      have hmap := list.inj h
      refine .list (by simpa using congrArg List.length hmap) fun i v w hv hw => ?_
      have hi : (vs.map canonical)[i]? = (ws.map canonical)[i]? := by rw [hmap]
      rw [List.getElem?_map, List.getElem?_map, hv, hw] at hi
      exact ih v (List.mem_of_getElem? hv) (Option.some.inj hi)
    | map ws => exact absurd h (by simp [canonical_list, canonical_map])
    | _ => exact absurd h (by simp [canonical])
  | map vs ih =>
    cases w with
    | map ws =>
      rw [canonical_map, canonical_map] at h
      have hlast : ∀ key, (Entries.last? key vs).map canonical =
          (Entries.last? key ws).map canonical := fun key => by
        rw [← Entries.last?_mapValues, ← Entries.last?_mapValues]
        exact Entries.settle_eq_iff.1 (map.inj h) key
      refine .map (fun key => ?_) fun key v w hv hw => ?_
      · have hsome := congrArg Option.isSome (hlast key)
        rwa [Option.isSome_map, Option.isSome_map] at hsome
      · have heq := hlast key
        rw [hv, hw] at heq
        exact ih (key, v) (Entries.mem_of_last? hv) (Option.some.inj heq)
    | list ws => exact absurd h (by simp [canonical_list, canonical_map])
    | _ => exact absurd h (by simp [canonical])
  | _ =>
    cases w with
    | list ws => exact absurd h (by simp [canonical])
    | map ws => exact absurd h (by simp [canonical])
    | _ => exact same_of_eq h

/-- Two values have the same contents if and only if their canonical forms are
    equal. -/
theorem same_iff {v w : Value} : Same v w ↔ v.canonical = w.canonical :=
  ⟨canonical_eq_of_same, same_of_canonical_eq⟩

/-- A value has the contents of its canonical form. -/
theorem same_canonical (v : Value) : Same v.canonical v :=
  same_iff.2 v.canonical_canonical

end Value

end HostBridge
