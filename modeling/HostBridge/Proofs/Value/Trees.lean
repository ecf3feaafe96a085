import HostBridge.Proofs.Value.Contents
import HostBridge.Proofs.Value.Readers

/-!
# Values as JSON trees

The tree of a value is proper, as deep as the value, and holds everything that
the value holds except what is no finite number:

* `Value.proper_toJson` and `Value.nesting_toJson`;
* `Value.ofJson_toJson`: the tree is converted back to the value with null in
  place of whatever is no finite number, and maps in key order;
* `Value.finite_canonical_ofJson`: what a proper tree is converted to is left as it is by
  both;
* `Value.toJson_eq_iff`: two values have the same tree if and only if they have
  the same contents up to that replacement;
* `Value.ofRaw?_spell_toJson`: with its spelling it is the same, except that a
  value nested too deep is refused.
-/

namespace HostBridge

namespace Value

/-! ## The shape of the tree -/

theorem elementsToJson_eq_map (vs : List Value) : elementsToJson vs = vs.map toJson := by
  induction vs with
  | nil => rfl
  | cons v vs ih => rw [elementsToJson, ih, List.map_cons]

theorem writesToJson_eq_mapValues (ws : List (String × Value)) :
    writesToJson ws = Entries.mapValues toJson ws := by
  induction ws with
  | nil => rfl
  | cons w ws ih => rw [writesToJson, ih, Entries.mapValues_cons]

theorem toJson_list (vs : List Value) : (list vs).toJson = .array (vs.map toJson) := by
  rw [toJson, elementsToJson_eq_map]

theorem toJson_map (ws : List (String × Value)) :
    (map ws).toJson = .object (Entries.settle (Entries.mapValues toJson ws)) := by
  rw [toJson, writesToJson_eq_mapValues]

theorem leastInt_le_toInt (n : Int64) : leastInt ≤ n.toInt := n.le_toInt

theorem toInt_le_greatestInt (n : Int64) : n.toInt ≤ greatestInt :=
  Int.le_of_lt_add_one n.toInt_lt

/-- The integers of a value are in the range of a tree. -/
theorem toInt_le_greatestInteger (n : Int64) : n.toInt ≤ Json.greatestInteger :=
  Int.le_trans (toInt_le_greatestInt n) (by decide)

/-- What is left behind in a map was written into it. -/
theorem exists_of_mem_settle {α : Type} {f : Value → α} {ws : List (String × Value)}
    {m : String × α} (hm : m ∈ Entries.settle (Entries.mapValues f ws)) :
    ∃ w ∈ ws, (w.1, f w.2) = m :=
  Entries.mem_mapValues.1 (Entries.mem_of_mem_settle hm)

/-- The tree of a value is proper. -/
theorem proper_toJson (v : Value) : v.toJson.Proper := by
  induction v using Value.induction with
  | null => exact .null
  | bool value => exact .bool value
  | int n => exact .integer (leastInt_le_toInt n) (toInt_le_greatestInteger n)
  | float x =>
    rw [toJson]
    split
    · next hx => exact .float hx
    · exact .null
  | string text => exact .string text
  | list vs ih =>
    rw [toJson_list]
    refine .array fun x hx => ?_
    obtain ⟨v, hv, rfl⟩ := List.mem_map.1 hx
    exact ih v hv
  | map ws ih =>
    rw [toJson_map]
    refine .object (Entries.ascending_settle _) fun m hm => ?_
    obtain ⟨w, hw, rfl⟩ := exists_of_mem_settle hm
    exact ih w hw

theorem nestingOfElements_eq {vs : List Value}
    (h : ∀ v ∈ vs, v.toJson.nesting = v.canonical.nesting) :
    Json.nestingOfElements (vs.map toJson) = nestingOfElements (vs.map canonical) := by
  induction vs with
  | nil => rfl
  | cons v vs ih =>
    obtain ⟨hv, hvs⟩ := List.forall_mem_cons.1 h
    rw [List.map_cons, List.map_cons, Json.nestingOfElements, nestingOfElements, hv, ih hvs]

theorem nestingOfMembers_eq {ws : List (String × Value)}
    (h : ∀ w ∈ ws, w.2.toJson.nesting = w.2.canonical.nesting) :
    Json.nestingOfMembers (Entries.mapValues toJson ws) =
      nestingOfWrites (Entries.mapValues canonical ws) := by
  induction ws with
  | nil => rfl
  | cons w ws ih =>
    obtain ⟨hw, hws⟩ := List.forall_mem_cons.1 h
    rw [Entries.mapValues_cons, Entries.mapValues_cons, Json.nestingOfMembers, nestingOfWrites,
      hw, ih hws]

/-- The tree is as deep as the value. -/
theorem nesting_toJson (v : Value) : v.toJson.nesting = v.depth := by
  induction v using Value.induction with
  | null => rfl
  | bool value => rfl
  | int n => rfl
  | float x =>
    show (toJson (float x)).nesting = 0
    rw [toJson]
    split <;> rfl
  | string text => rfl
  | list vs ih =>
    rw [depth, canonical_list, toJson_list, nesting, Json.nesting, nestingOfElements_eq ih]
  | map ws ih =>
    -- what a later write has replaced counts for neither
    have hsettle : ∀ w ∈ Entries.settle ws, w.2.toJson.nesting = w.2.canonical.nesting :=
      fun w hw => ih w (Entries.mem_of_mem_settle hw)
    rw [depth, canonical_map, toJson_map, Entries.settle_mapValues, Entries.settle_mapValues,
      nesting, Json.nesting, nestingOfMembers_eq hsettle]

/-! ## There and back -/

theorem ofInt?_toInt (n : Int64) : ofInt? n.toInt = some (.int n) := by
  rw [ofInt?, if_pos ⟨leastInt_le_toInt n, toInt_le_greatestInt n⟩, Int64.ofInt_toInt]

/-- The tree of a value is converted back to the value, in key order and with
    null in place of whatever is no finite number. -/
theorem ofJson_toJson (v : Value) : ofJson v.toJson = v.finite.canonical := by
  induction v using Value.induction with
  | null => rfl
  | bool value => rfl
  | int n =>
    show (ofInt? n.toInt).getD _ = int n
    rw [ofInt?_toInt, Option.getD_some]
  | float x =>
    rw [toJson, finite]
    split <;> rfl
  | string text => rfl
  | list vs ih =>
    rw [toJson_list, ofJson, ofJsonElements_eq_map, finite_list, canonical_list, List.map_map,
      List.map_map]
    exact congrArg list (List.map_congr_left ih)
  | map ws ih =>
    rw [toJson_map, ofJson, ofJsonMembers_eq_mapValues, finite_map, canonical_map,
      ← Entries.settle_mapValues, Entries.mapValues_mapValues, Entries.mapValues_mapValues]
    exact congrArg (fun ws => map (Entries.settle ws)) (Entries.mapValues_congr ih)

/-- What is read from a proper tree has nothing to lose: its numbers are finite, and its
    maps in key order. -/
theorem finite_canonical_ofJson {x : Json} (h : x.Proper) :
    (ofJson x).finite.canonical = ofJson x := by
  induction h with
  | null => rfl
  | bool value => rfl
  | @integer n least greatest =>
    rw [ofJson, ofInt?]
    split
    · rfl
    · have hlt : n.natAbs < 2 ^ 64 := by
        simp only [Json.leastInteger, Json.greatestInteger] at least greatest
        omega
      obtain ⟨y, hy⟩ := Binary64.exists_ofRatio?_of_lt (decide (n < 0)) hlt
      have hfinite := Binary64.isFinite_of_ofRatio? hy
      rw [Option.getD_none, Binary64.ofInt, hy, Option.getD_some, finite, if_pos hfinite]
      rfl
  | @float y hy =>
    rw [ofJson, finite, if_pos hy]
    rfl
  | string text => rfl
  | @array elements _ ih =>
    rw [ofJson, ofJsonElements_eq_map, finite_list, canonical_list, List.map_map, List.map_map]
    exact congrArg list (List.map_congr_left ih)
  | @object members ascending _ ih =>
    rw [ofJson, ofJsonMembers_eq_mapValues, finite_map, canonical_map, Entries.mapValues_mapValues,
      Entries.mapValues_mapValues, Entries.mapValues_congr ih, Entries.settle_mapValues,
      Entries.settle_of_ascending ascending]

/-- The canonical form with null in place of whatever is no finite number has
    the tree of the value. -/
theorem toJson_finite_canonical (v : Value) : v.finite.canonical.toJson = v.toJson := by
  induction v using Value.induction with
  | null => rfl
  | bool value => rfl
  | int n => rfl
  | float x =>
    rw [finite, toJson]
    split
    · next hx => exact if_pos hx
    · rfl
  | string text => rfl
  | list vs ih =>
    rw [finite_list, canonical_list, toJson_list, toJson_list, List.map_map, List.map_map]
    exact congrArg Json.array (List.map_congr_left ih)
  | map ws ih =>
    rw [finite_map, canonical_map, toJson_map, toJson_map, ← Entries.settle_mapValues,
      Entries.settle_settle, Entries.mapValues_mapValues, Entries.mapValues_mapValues]
    exact congrArg (fun ms => Json.object (Entries.settle ms)) (Entries.mapValues_congr ih)

/-- The tree of a value is known from its contents up to what is no finite
    number, and the other way round. -/
theorem toJson_eq_iff {v w : Value} : v.toJson = w.toJson ↔ Same v.finite w.finite := by
  rw [same_iff]
  constructor
  · intro h
    rw [← ofJson_toJson, h, ofJson_toJson]
  · intro h
    rw [← toJson_finite_canonical, h, toJson_finite_canonical]

/-! ## The spelling of the tree -/

/-- The spelling of a value has no wide literal: its integers fit, and its other
    numbers have a point or an exponent. -/
theorem not_hasWide_spell_toJson (v : Value) : ¬v.toJson.spell.HasWide := by
  induction v using Value.induction with
  | null => rintro ⟨_, _, ⟨⟩⟩
  | bool value => rintro ⟨_, _, ⟨⟩⟩
  | int n =>
    rintro ⟨_, ⟨m, hm, hgreat, _⟩, ⟨⟩⟩
    rw [Json.integer?_integerLiteral] at hm
    exact absurd (toInt_le_greatestInt n) (Int.not_le.2 (Option.some.inj hm ▸ hgreat))
  | float x =>
    by_cases hx : x.isFinite = true
    · rw [toJson, if_pos hx, Json.spell, if_pos hx]
      rintro ⟨_, ⟨m, hm, _, _⟩, ⟨⟩⟩
      rw [Binary64.integer?_literal] at hm
      exact absurd hm (by simp)
    · rw [toJson, if_neg hx]
      rintro ⟨_, _, ⟨⟩⟩
  | string text => rintro ⟨_, _, ⟨⟩⟩
  | list vs ih =>
    rw [toJson_list, Json.spell, Json.spellElements_eq_map, List.map_map]
    rintro ⟨l, hl, ⟨⟩ | ⟨hx, hin⟩⟩
    obtain ⟨v, hv, rfl⟩ := List.mem_map.1 hx
    exact ih v hv ⟨l, hl, hin⟩
  | map ws ih =>
    rw [toJson_map, Json.spell, Json.spellMembers_eq_map]
    rintro ⟨l, hl, hin⟩
    cases hin with
    | object hmember hin =>
      obtain ⟨m, hm, rfl⟩ := List.mem_map.1 hmember
      obtain ⟨w, hw, rfl⟩ := exists_of_mem_settle hm
      exact ih w hw ⟨l, hl, hin⟩

/-- The spelling of a value is read as the value with null in place of whatever
    is no finite number, if there is room for it, and refused if there is not. -/
theorem ofRaw?_spell_toJson (v : Value) (room : Nat) :
    ofRaw? room v.toJson.spell = if v.depth ≤ room then some v.finite.canonical else none := by
  rw [ofRaw?_of_not_hasWide v.not_hasWide_spell_toJson, Json.ofRaw?_spell v.proper_toJson,
    nesting_toJson]
  split
  · rw [Option.map_some, ofJson_toJson]
  · rfl

end Value

end HostBridge
