import HostBridge.Proofs.Json.Grammar

/-!
# Reading what was written

What is written for a value that keeps to the grammar (`Raw.WellFormed`) is its
text without blanks (`Raw.text_render`), so it is read back (`Raw.read?_render`).
-/

namespace HostBridge

namespace Raw

/-- The value is spelled as the grammar wants it. -/
inductive WellFormed : Raw → Prop
  | null : WellFormed .null
  | bool (value : Bool) : WellFormed (.bool value)
  | number {literal : Literal} (h : literal.WellFormed) : WellFormed (.number literal)
  | string {pieces : List Piece} (h : ∀ piece ∈ pieces, piece.WellFormed) :
      WellFormed (.string pieces)
  | array {elements : List Raw} (h : ∀ x ∈ elements, WellFormed x) : WellFormed (.array elements)
  | object {members : List (List Piece × Raw)}
      (keys : ∀ m ∈ members, ∀ piece ∈ m.1, piece.WellFormed)
      (values : ∀ m ∈ members, WellFormed m.2) : WellFormed (.object members)

/-- What is written for the value is a text of it. -/
def RendersText (x : Raw) : Prop := (Phrase.value x).Text x.render

theorem text_renderElements {x : Raw} {xs : List Raw} (h : ∀ y ∈ x :: xs, y.RendersText) :
    (Phrase.elements (x :: xs)).Text (x.render ++ renderElements xs) := by
  obtain ⟨hx, hxs⟩ := List.forall_mem_cons.1 h
  induction xs generalizing x with
  | nil => exact .lastElement blanks_nil hx blanks_nil
  | cons y ys ih =>
    obtain ⟨hy, hys⟩ := List.forall_mem_cons.1 hxs
    exact .element blanks_nil hx blanks_nil (ih hxs hy hys)

theorem renderString_append (pieces : List Piece) (rest : Bytes) :
    renderString pieces ++ rest = 0x22 :: (pieces.flatMap Piece.render ++ 0x22 :: rest) := by
  simp [renderString]

theorem text_renderMembers {key : List Piece} {x : Raw} {ms : List (List Piece × Raw)}
    (keys : ∀ m ∈ (key, x) :: ms, ∀ piece ∈ m.1, piece.WellFormed)
    (values : ∀ m ∈ (key, x) :: ms, m.2.RendersText) :
    (Phrase.members ((key, x) :: ms)).Text
      (renderString key ++ 0x3A :: (x.render ++ renderMembers ms)) := by
  obtain ⟨hkey, hkeys⟩ := List.forall_mem_cons.1 keys
  obtain ⟨hx, hvalues⟩ := List.forall_mem_cons.1 values
  rw [renderString_append]
  induction ms generalizing key x with
  | nil =>
    exact .lastMember blanks_nil (Piece.row_render hkey) blanks_nil blanks_nil hx blanks_nil
  | cons m ms ih =>
    obtain ⟨hkey', hkeys'⟩ := List.forall_mem_cons.1 hkeys
    obtain ⟨hx', hvalues'⟩ := List.forall_mem_cons.1 hvalues
    have hmore := ih hkeys hvalues hkey' hkeys' hx' hvalues'
    rw [← renderString_append] at hmore
    exact .member blanks_nil (Piece.row_render hkey) blanks_nil blanks_nil hx blanks_nil hmore

/-- What is written for a value that keeps to the grammar is a text of it. -/
theorem text_render {x : Raw} (h : x.WellFormed) : x.RendersText := by
  induction h with
  | null => exact .null
  | bool value =>
    cases value with
    | true => exact .boolTrue
    | false => exact .boolFalse
  | number h => exact .number (Literal.text_render h)
  | string h => exact .string (Piece.row_render h)
  | @array elements _ ih =>
    cases elements with
    | nil => exact .emptyArray blanks_nil
    | cons x xs => exact .array (text_renderElements ih)
  | @object members keys _ ih =>
    cases members with
    | nil => exact .emptyObject blanks_nil
    | cons m ms => exact .object (text_renderMembers keys ih)

/-- A text is read as the value that was written. -/
theorem read?_render {x : Raw} (h : x.WellFormed) : read? x.render = some x := by
  refine read?_eq_some_iff.2 ⟨[], x.render, [], blanks_nil, text_render h, blanks_nil, ?_⟩
  rw [List.nil_append, List.append_nil]

theorem exists_render {x : Raw} (h : x.WellFormed) :
    ∃ byte rest, x.render = byte :: rest ∧ StartsValue byte :=
  Phrase.Text.exists_cons (text_render h)

end Raw

end HostBridge
