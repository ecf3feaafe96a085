import HostBridge.Proofs.Json.Rendering
import HostBridge.Proofs.Table

/-!
# JSON trees are read back

The trees that a program builds are *proper*: integers are in range, numbers are
finite and the members of an object stand in key order. What is written for a
proper tree is read as the same tree, unless it is nested too deep, and then it
is refused:

* `Json.wellFormed_spell`: the spelling of every tree keeps to the grammar;
* `Json.ofRaw?_spell`: the spelling of a proper tree means that tree;
* `Json.read?_write`: the same for whole texts.

Spelled values and trees are nested in lists of themselves, so both come with an
induction that has a hypothesis for every element and every member
(`Raw.induction`, `Json.induction`), and reading them is reading the elements one
by one.
-/

namespace HostBridge

/-! ## Induction -/

/-- What holds of every element holds of an array, what holds of every member
    value holds of an object. -/
@[elab_as_elim]
theorem Raw.induction {motive : Raw → Prop} (null : motive .null)
    (bool : ∀ value, motive (.bool value)) (number : ∀ literal, motive (.number literal))
    (string : ∀ pieces, motive (.string pieces))
    (array : ∀ elements, (∀ x ∈ elements, motive x) → motive (.array elements))
    (object : ∀ members, (∀ m ∈ members, motive m.2) → motive (.object members)) (x : Raw) :
    motive x :=
  @Raw.rec motive (fun xs => ∀ x ∈ xs, motive x) (fun ms => ∀ m ∈ ms, motive m.2)
    (fun m => motive m.2) null bool number string array object
    (fun _ h => absurd h List.not_mem_nil) (fun _ _ hx hxs => List.forall_mem_cons.2 ⟨hx, hxs⟩)
    (fun _ h => absurd h List.not_mem_nil) (fun _ _ hm hms => List.forall_mem_cons.2 ⟨hm, hms⟩)
    (fun _ _ hx => hx) x

/-- The same for trees. -/
@[elab_as_elim]
theorem Json.induction {motive : Json → Prop} (null : motive .null)
    (bool : ∀ value, motive (.bool value)) (integer : ∀ n, motive (.integer n))
    (float : ∀ x, motive (.float x)) (string : ∀ text, motive (.string text))
    (array : ∀ elements, (∀ x ∈ elements, motive x) → motive (.array elements))
    (object : ∀ members, (∀ m ∈ members, motive m.2) → motive (.object members)) (x : Json) :
    motive x :=
  @Json.rec motive (fun xs => ∀ x ∈ xs, motive x) (fun ms => ∀ m ∈ ms, motive m.2)
    (fun m => motive m.2) null bool integer float string array object
    (fun _ h => absurd h List.not_mem_nil) (fun _ _ hx hxs => List.forall_mem_cons.2 ⟨hx, hxs⟩)
    (fun _ h => absurd h List.not_mem_nil) (fun _ _ hm hms => List.forall_mem_cons.2 ⟨hm, hms⟩)
    (fun _ _ hx => hx) x

/-! ## Reading one by one -/

section Traversal

variable {α β : Type}

/-- All elements are read if and only if each of them is. -/
theorem isSome_mapM_iff {f : α → Option β} {as : List α} :
    (as.mapM f).isSome ↔ ∀ a ∈ as, (f a).isSome := by
  induction as with
  | nil => simp
  | cons a as ih =>
    rw [List.mapM_cons, List.forall_mem_cons, ← ih]
    cases f a <;> cases as.mapM f <;> simp

/-- Only how the elements themselves are read matters. -/
theorem mapM_congr {f g : α → Option β} {as : List α} (h : ∀ a ∈ as, f a = g a) :
    as.mapM f = as.mapM g := by
  induction as with
  | nil => rfl
  | cons a as ih =>
    obtain ⟨ha, has⟩ := List.forall_mem_cons.1 h
    rw [List.mapM_cons, List.mapM_cons, ha, ih has]

/-- If nothing is refused, all of them are read. -/
theorem mapM_eq_some {f : α → Option β} {g : α → β} {as : List α}
    (h : ∀ a ∈ as, f a = some (g a)) : as.mapM f = some (as.map g) :=
  (mapM_congr h).trans List.mapM_pure

/-- If one element is refused, none is read. -/
theorem mapM_eq_none {f : α → Option β} {a : α} {as : List α} (ha : a ∈ as) (h : f a = none) :
    as.mapM f = none := by
  refine Option.not_isSome_iff_eq_none.1 fun hall => ?_
  have hsome := isSome_mapM_iff.1 hall a ha
  rw [h] at hsome
  exact absurd hsome (by simp)

/-- If each element is read or refused by a test, all of them are read if all
    pass. -/
theorem mapM_eq_ite {f : α → Option β} {g : α → β} {p : α → Prop} [DecidablePred p]
    {as : List α} (h : ∀ a ∈ as, f a = if p a then some (g a) else none) :
    as.mapM f = if ∀ a ∈ as, p a then some (as.map g) else none := by
  split
  · next hall => exact mapM_eq_some fun a ha => (h a ha).trans (if_pos (hall a ha))
  · next hall =>
    have hexists : ∃ a ∈ as, ¬p a := by simpa using hall
    obtain ⟨a, ha, hp⟩ := hexists
    exact mapM_eq_none ha ((h a ha).trans (if_neg hp))

/-- What is done to everything that is read can be done one by one. -/
theorem mapM_map_right {γ : Type} (f : α → Option β) (g : β → γ) (as : List α) :
    as.mapM (fun a => (f a).map g) = (as.mapM f).map (List.map g) := by
  induction as with
  | nil => rfl
  | cons a as ih =>
    rw [List.mapM_cons, List.mapM_cons, ih]
    cases f a <;> cases as.mapM f <;> rfl

/-- A spelled member, its value read by `read`. -/
def Raw.member? (read : Raw → Option α) (m : List Piece × Raw) : Option (String × α) := do
  let key ← Piece.text? m.1
  let value ← read m.2
  return (key, value)

theorem Raw.member?_spell (read : Raw → Option α) (key : String) (x : Raw) :
    Raw.member? read (Piece.spell key, x) = (read x).map (key, ·) := by
  rw [Raw.member?, Piece.text?_spell]
  cases read x <;> rfl

end Traversal

namespace Json

theorem elementsOfRaw?_eq_mapM (room : Nat) (xs : List Raw) :
    elementsOfRaw? room xs = xs.mapM (ofRaw? room) := by
  induction xs with
  | nil => rfl
  | cons x xs ih => rw [elementsOfRaw?, ih, List.mapM_cons]

theorem membersOfRaw?_eq_mapM (room : Nat) (ms : List (List Piece × Raw)) :
    membersOfRaw? room ms = ms.mapM (Raw.member? (ofRaw? room)) := by
  induction ms with
  | nil => rfl
  | cons m ms ih =>
    rw [membersOfRaw?, ih, List.mapM_cons, Raw.member?]
    simp [Option.bind_assoc]

/-! ## Spelling -/

theorem spellElements_eq_map (xs : List Json) : spellElements xs = xs.map spell := by
  induction xs with
  | nil => rfl
  | cons x xs ih => rw [spellElements, ih, List.map_cons]

theorem spellMembers_eq_map (ms : List (String × Json)) :
    spellMembers ms = ms.map fun m => (Piece.spell m.1, spell m.2) := by
  induction ms with
  | nil => rfl
  | cons m ms ih => rw [spellMembers, ih, List.map_cons]

/-- Every tree is spelled as the grammar wants it. -/
theorem wellFormed_spell (x : Json) : x.spell.WellFormed := by
  induction x using Json.induction with
  | null => exact .null
  | bool value => exact .bool value
  | integer n => exact .number (wellFormed_integerLiteral n)
  | float x =>
    rw [spell]
    split
    · exact .number x.wellFormed_literal
    · exact .null
  | string text => exact .string (Piece.wellFormed_spell text)
  | array elements ih =>
    rw [spell, spellElements_eq_map]
    refine .array fun y hy => ?_
    obtain ⟨x, hx, rfl⟩ := List.mem_map.1 hy
    exact ih x hx
  | object members ih =>
    rw [spell, spellMembers_eq_map]
    refine .object (fun m hm => ?_) fun m hm => ?_
    · obtain ⟨m', _, rfl⟩ := List.mem_map.1 hm
      exact Piece.wellFormed_spell m'.1
    · obtain ⟨m', hm', rfl⟩ := List.mem_map.1 hm
      exact ih m' hm'

/-- The text of a tree spells what the tree spells. -/
theorem raw_read?_write (x : Json) : Raw.read? x.write = some x.spell :=
  Raw.read?_render x.wellFormed_spell

/-! ## Nesting -/

mutual

/-- How deep arrays and objects are nested in a tree. -/
def nesting : Json → Nat
  | .array elements => 1 + nestingOfElements elements
  | .object members => 1 + nestingOfMembers members
  | _ => 0
termination_by structural x => x

/-- The deepest nesting in the elements of an array. -/
def nestingOfElements : List Json → Nat
  | [] => 0
  | x :: xs => max (nesting x) (nestingOfElements xs)
termination_by structural xs => xs

/-- The deepest nesting in the members of an object. -/
def nestingOfMembers : List (String × Json) → Nat
  | [] => 0
  | (_, x) :: ms => max (nesting x) (nestingOfMembers ms)
termination_by structural ms => ms

end

theorem nestingOfElements_le_iff {xs : List Json} {room : Nat} :
    nestingOfElements xs ≤ room ↔ ∀ x ∈ xs, x.nesting ≤ room := by
  induction xs with
  | nil => simp [nestingOfElements]
  | cons x xs ih => rw [nestingOfElements, Nat.max_le, ih, List.forall_mem_cons]

theorem nestingOfMembers_le_iff {ms : List (String × Json)} {room : Nat} :
    nestingOfMembers ms ≤ room ↔ ∀ m ∈ ms, m.2.nesting ≤ room := by
  induction ms with
  | nil => simp [nestingOfMembers]
  | cons m ms ih => rw [nestingOfMembers, Nat.max_le, ih, List.forall_mem_cons]

theorem nesting_array_le_iff {xs : List Json} {room : Nat} :
    (array xs).nesting ≤ room + 1 ↔ ∀ x ∈ xs, x.nesting ≤ room := by
  rw [nesting, Nat.add_comm, Nat.add_le_add_iff_right, nestingOfElements_le_iff]

theorem nesting_object_le_iff {ms : List (String × Json)} {room : Nat} :
    (object ms).nesting ≤ room + 1 ↔ ∀ m ∈ ms, m.2.nesting ≤ room := by
  rw [nesting, Nat.add_comm, Nat.add_le_add_iff_right, nestingOfMembers_le_iff]

/-! ## Proper trees -/

/-- The integers are in range, the numbers are finite, and members stand in key
    order. -/
inductive Proper : Json → Prop
  | null : Proper .null
  | bool (value : Bool) : Proper (.bool value)
  | integer {n : Int} (least : leastInteger ≤ n) (greatest : n ≤ greatestInteger) :
      Proper (.integer n)
  | float {x : Binary64} (h : x.isFinite = true) : Proper (.float x)
  | string (text : String) : Proper (.string text)
  | array {elements : List Json} (h : ∀ x ∈ elements, Proper x) : Proper (.array elements)
  | object {members : List (String × Json)} (ascending : Entries.Ascending members)
      (h : ∀ m ∈ members, Proper m.2) : Proper (.object members)

/-- The spelling of a proper tree means that tree, if there is room for it, and
    nothing if there is not. -/
theorem ofRaw?_spell {x : Json} (h : x.Proper) (room : Nat) :
    ofRaw? room x.spell = if x.nesting ≤ room then some x else none := by
  induction h generalizing room with
  | null => exact (if_pos (Nat.zero_le _)).symm
  | bool value => exact (if_pos (Nat.zero_le _)).symm
  | integer least greatest =>
    exact (ofLiteral?_integerLiteral least greatest).trans (if_pos (Nat.zero_le _)).symm
  | float hx =>
    rw [spell, if_pos hx]
    exact (ofLiteral?_literal hx).trans (if_pos (Nat.zero_le _)).symm
  | string text =>
    rw [spell, ofRaw?, Piece.text?_spell]
    exact (if_pos (Nat.zero_le _)).symm
  | @array elements _ ih =>
    rw [spell, spellElements_eq_map]
    cases room with
    | zero => exact (if_neg (by rw [nesting]; omega)).symm
    | succ room =>
      have hread : elements.mapM (ofRaw? room ∘ spell) =
          if ∀ x ∈ elements, x.nesting ≤ room then some (elements.map id) else none :=
        mapM_eq_ite fun x hx => ih x hx room
      simp only [ofRaw?, elementsOfRaw?_eq_mapM, List.mapM_map, nesting_array_le_iff]
      rw [hread, List.map_id]
      split <;> rfl
  | @object members ascending _ ih =>
    rw [spell, spellMembers_eq_map]
    cases room with
    | zero => exact (if_neg (by rw [nesting]; omega)).symm
    | succ room =>
      have hread : members.mapM (Raw.member? (ofRaw? room) ∘ fun m => (Piece.spell m.1, m.2.spell)) =
          if ∀ m ∈ members, m.2.nesting ≤ room then some (members.map id) else none := by
        refine mapM_eq_ite fun m hm => ?_
        rw [Function.comp_apply, Raw.member?_spell, ih m hm room]
        split <;> rfl
      simp only [ofRaw?, membersOfRaw?_eq_mapM, List.mapM_map, nesting_object_le_iff]
      rw [hread, List.map_id]
      split
      · rw [Option.map_some, Entries.settle_of_ascending ascending]
      · rfl

/-- Every tree is written as something. -/
theorem write_ne_nil (x : Json) : x.write ≠ [] := by
  obtain ⟨byte, rest, heq, _⟩ := Raw.exists_render x.wellFormed_spell
  rw [write, heq]
  exact List.cons_ne_nil byte rest

/-- Proper trees that are written alike are the same. -/
theorem eq_of_write_eq {x y : Json} (hx : x.Proper) (hy : y.Proper) (h : x.write = y.write) :
    x = y := by
  have hspell : x.spell = y.spell := by
    rw [← Option.some_inj, ← raw_read?_write, ← raw_read?_write, h]
  -- both trees are what their spelling means, given room for both
  have hread := ofRaw?_spell hx (max x.nesting y.nesting)
  rw [hspell, ofRaw?_spell hy, if_pos (Nat.le_max_right _ _), if_pos (Nat.le_max_left _ _)] at hread
  exact (Option.some.inj hread).symm

/-- What is written for a proper tree is read as that tree, unless it is nested
    too deep. -/
theorem read?_write {x : Json} (h : x.Proper) :
    read? x.write = if x.nesting ≤ maxNesting then some x else none := by
  rw [read?, raw_read?_write]
  exact ofRaw?_spell h maxNesting

end Json

end HostBridge
