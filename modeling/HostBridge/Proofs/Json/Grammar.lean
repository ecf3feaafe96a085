import HostBridge.Proofs.Json.Literals
import HostBridge.Proofs.Json.Strings
import Mathlib.Data.List.TakeWhile

/-!
# The grammar of JSON

The grammar says which bytes spell a value, with blanks between the tokens
(`Phrase.Text`) and around the whole (`Raw.IsText`). A `Phrase` is what the
grammar has a name for: a value, or what stands in an array or in an object up to
the closing bracket. The reader keeps to the grammar in both directions:

* `Raw.readValue_sound`: what it takes from the front is a text of what it
  returns;
* `Phrase.Text.readsBack`: a text of a value is read as that value, whatever
  follows, unless what follows runs into a number. A text allows two steps for
  each byte, and that is enough, because an element costs two steps and is
  followed by at least one byte of the array.

Together (`Raw.read?_eq_some_iff`): the whole of a text is read as a value if and
only if it is a text of that value. So a text spells one value at most
(`Raw.IsText.unique`).
-/

namespace HostBridge

/-- The bytes are blanks. -/
def Blanks (bytes : Bytes) : Prop := ∀ byte ∈ bytes, Raw.isBlank byte = true

/-- What the grammar has a name for. -/
inductive Phrase
  /-- A value. -/
  | value (x : Raw)
  /-- The elements of an array, at least one, up to the closing bracket. -/
  | elements (xs : List Raw)
  /-- The members of an object, at least one, up to the closing brace. -/
  | members (ms : List (List Piece × Raw))

namespace Phrase

/-- The bytes are a text of the phrase. A value has no blanks around it; elements and
    members bring theirs with them. -/
inductive Text : Phrase → Bytes → Prop
  | null : Text (.value .null) [0x6E, 0x75, 0x6C, 0x6C]
  | boolTrue : Text (.value (.bool true)) [0x74, 0x72, 0x75, 0x65]
  | boolFalse : Text (.value (.bool false)) [0x66, 0x61, 0x6C, 0x73, 0x65]
  | number {literal : Literal} {text : Bytes} (h : literal.Text text) :
      Text (.value (.number literal)) text
  | string {pieces : List Piece} {text : Bytes} (h : Piece.Row pieces text) :
      Text (.value (.string pieces)) (0x22 :: (text ++ [0x22]))
  | emptyArray {blanks : Bytes} (h : Blanks blanks) :
      Text (.value (.array [])) (0x5B :: (blanks ++ [0x5D]))
  | array {xs : List Raw} {text : Bytes} (h : Text (.elements xs) text) :
      Text (.value (.array xs)) (0x5B :: text)
  | emptyObject {blanks : Bytes} (h : Blanks blanks) :
      Text (.value (.object [])) (0x7B :: (blanks ++ [0x7D]))
  | object {ms : List (List Piece × Raw)} {text : Bytes} (h : Text (.members ms) text) :
      Text (.value (.object ms)) (0x7B :: text)
  | lastElement {x : Raw} {before text after : Bytes} (hbefore : Blanks before)
      (h : Text (.value x) text) (hafter : Blanks after) :
      Text (.elements [x]) (before ++ (text ++ (after ++ [0x5D])))
  | element {x : Raw} {xs : List Raw} {before text after more : Bytes} (hbefore : Blanks before)
      (h : Text (.value x) text) (hafter : Blanks after) (hmore : Text (.elements xs) more) :
      Text (.elements (x :: xs)) (before ++ (text ++ (after ++ 0x2C :: more)))
  | lastMember {key : List Piece} {x : Raw} {before name behind between text after : Bytes}
      (hbefore : Blanks before) (hname : Piece.Row key name) (hbehind : Blanks behind)
      (hbetween : Blanks between) (h : Text (.value x) text) (hafter : Blanks after) :
      Text (.members [(key, x)]) (before ++ 0x22 :: (name ++ 0x22 :: (behind ++ 0x3A ::
        (between ++ (text ++ (after ++ [0x7D]))))))
  | member {key : List Piece} {x : Raw} {ms : List (List Piece × Raw)}
      {before name behind between text after more : Bytes} (hbefore : Blanks before)
      (hname : Piece.Row key name) (hbehind : Blanks behind) (hbetween : Blanks between)
      (h : Text (.value x) text) (hafter : Blanks after) (hmore : Text (.members ms) more) :
      Text (.members ((key, x) :: ms)) (before ++ 0x22 :: (name ++ 0x22 :: (behind ++ 0x3A ::
        (between ++ (text ++ (after ++ 0x2C :: more))))))

end Phrase

/-- The bytes spell the value, and nothing else but blanks. -/
def Raw.IsText (x : Raw) (bytes : Bytes) : Prop :=
  ∃ before text after, Blanks before ∧ (Phrase.value x).Text text ∧ Blanks after ∧
    bytes = before ++ (text ++ after)

/-! ## Blanks -/

theorem blanks_nil : Blanks [] := fun _ h => absurd h List.not_mem_nil

theorem Blanks.append {bytes more : Bytes} (h : Blanks bytes) (hmore : Blanks more) :
    Blanks (bytes ++ more) := by
  intro byte hbyte
  exact (List.mem_append.1 hbyte).elim (h byte) (hmore byte)

namespace Raw

/-- What is skipped in front are blanks. -/
theorem exists_blanks (bytes : Bytes) :
    ∃ before, Blanks before ∧ bytes = before ++ skipBlanks bytes :=
  ⟨bytes.takeWhile isBlank, fun _ => List.mem_takeWhile_imp, List.takeWhile_append_dropWhile.symm⟩

/-- All blanks in front are skipped. -/
theorem skipBlanks_append {before : Bytes} (h : Blanks before) (bytes : Bytes) :
    skipBlanks (before ++ bytes) = skipBlanks bytes :=
  List.dropWhile_append_of_pos h

theorem skipBlanks_cons {byte : UInt8} (h : isBlank byte = false) (rest : Bytes) :
    skipBlanks (byte :: rest) = byte :: rest := by
  rw [skipBlanks, List.dropWhile_cons_of_neg (by simp [h])]

theorem skipBlanks_append_cons {before : Bytes} (hbefore : Blanks before) {byte : UInt8}
    (h : isBlank byte = false) (rest : Bytes) :
    skipBlanks (before ++ byte :: rest) = byte :: rest := by
  rw [skipBlanks_append hbefore, skipBlanks_cons h]

theorem skipBlanks_skipBlanks (bytes : Bytes) :
    skipBlanks (skipBlanks bytes) = skipBlanks bytes := by
  obtain ⟨before, hbefore, heq⟩ := exists_blanks bytes
  conv_rhs => rw [heq, skipBlanks_append hbefore]

theorem skipBlanks_eq_nil_iff {bytes : Bytes} : skipBlanks bytes = [] ↔ Blanks bytes := by
  rw [skipBlanks, List.dropWhile_eq_nil_iff]
  rfl

/-- Blanks cannot be a part of a number. -/
theorem numberEnds_append {blanks : Bytes} (h : Blanks blanks) {rest : Bytes}
    (hrest : NumberEnds rest) : NumberEnds (blanks ++ rest) := by
  rcases blanks with _ | ⟨byte, more⟩
  · exact hrest
  have hblank := h byte List.mem_cons_self
  simp only [isBlank, Bool.or_eq_true, beq_iff_eq] at hblank
  refine numberEnds_cons ?_
  rcases hblank with ((rfl | rfl) | rfl) | rfl <;> decide

/-- The reader skips blanks by itself. -/
theorem readValue_skipBlanks (steps : Nat) (bytes : Bytes) :
    readValue steps (skipBlanks bytes) = readValue steps bytes := by
  rcases steps with _ | steps
  · rfl
  · rw [readValue, skipBlanks_skipBlanks, readValue]

theorem readElements_skipBlanks (steps : Nat) (bytes : Bytes) :
    readElements steps (skipBlanks bytes) = readElements steps bytes := by
  rcases steps with _ | steps
  · rfl
  · rw [readElements, readValue_skipBlanks, readElements]

theorem readMembers_skipBlanks (steps : Nat) (bytes : Bytes) :
    readMembers steps (skipBlanks bytes) = readMembers steps bytes := by
  rcases steps with _ | steps
  · rfl
  · rw [readMembers, skipBlanks_skipBlanks, readMembers]

theorem readValue_append {before : Bytes} (h : Blanks before) (steps : Nat) (bytes : Bytes) :
    readValue steps (before ++ bytes) = readValue steps bytes := by
  rw [← readValue_skipBlanks, skipBlanks_append h, readValue_skipBlanks]

/-! ## The first byte -/

/-- A value starts with this byte: no blank and no closing bracket. -/
def StartsValue (byte : UInt8) : Prop := isBlank byte = false ∧ byte ≠ 0x5D

instance (byte : UInt8) : Decidable (StartsValue byte) := inferInstanceAs (Decidable (_ ∧ _))

/-- The byte starts a number and nothing else. -/
def StartsNumber (byte : UInt8) : Prop :=
  byte ≠ 0x6E ∧ byte ≠ 0x74 ∧ byte ≠ 0x66 ∧ byte ≠ 0x22 ∧ byte ≠ 0x5B ∧ byte ≠ 0x7B ∧
    StartsValue byte

instance (byte : UInt8) : Decidable (StartsNumber byte) :=
  inferInstanceAs (Decidable (_ ∧ _ ∧ _ ∧ _ ∧ _ ∧ _ ∧ _))

theorem startsNumber_digit (d : Digit) : StartsNumber d.render := by
  revert d
  decide

/-- A number starts with a minus sign or a digit. -/
theorem exists_literal_text {l : Literal} {text : Bytes} (h : l.Text text) :
    ∃ byte rest, text = byte :: rest ∧ StartsNumber byte := by
  obtain ⟨hl, power, -, rfl⟩ := h
  obtain ⟨first, more, hwhole, -⟩ := hl.whole
  rw [hwhole]
  cases l.negative with
  | true => exact ⟨0x2D, _, rfl, by decide⟩
  | false => exact ⟨first.render, _, rfl, startsNumber_digit first⟩

end Raw

namespace Phrase

open Raw

theorem Text.exists_cons {x : Raw} {text : Bytes} (h : (value x).Text text) :
    ∃ byte rest, text = byte :: rest ∧ StartsValue byte := by
  cases h with
  | number h =>
    obtain ⟨byte, rest, heq, -, -, -, -, -, -, hbyte⟩ := exists_literal_text h
    exact ⟨byte, rest, heq, hbyte⟩
  | _ => exact ⟨_, _, rfl, by decide⟩

/-- What stands in an array does not start with the closing bracket. -/
theorem Text.skipBlanks_elements {xs : List Raw} {text : Bytes} (h : (elements xs).Text text)
    (rest : Bytes) : ∃ byte more, skipBlanks (text ++ rest) = byte :: more ∧ byte ≠ 0x5D := by
  cases h with
  | lastElement hbefore h _ =>
    obtain ⟨byte, more, rfl, hblank, hclose⟩ := h.exists_cons
    rw [List.append_assoc, List.cons_append, List.cons_append,
      skipBlanks_append_cons hbefore hblank]
    exact ⟨byte, _, rfl, hclose⟩
  | element hbefore h _ _ =>
    obtain ⟨byte, more, rfl, hblank, hclose⟩ := h.exists_cons
    rw [List.append_assoc, List.cons_append, List.cons_append,
      skipBlanks_append_cons hbefore hblank]
    exact ⟨byte, _, rfl, hclose⟩

/-- What stands in an object starts with a quote. -/
theorem Text.skipBlanks_members {ms : List (List Piece × Raw)} {text : Bytes}
    (h : (members ms).Text text) (rest : Bytes) :
    ∃ more, skipBlanks (text ++ rest) = 0x22 :: more := by
  cases h with
  | lastMember hbefore _ _ _ _ _ =>
    rw [List.append_assoc, List.cons_append, skipBlanks_append_cons hbefore (by decide)]
    exact ⟨_, rfl⟩
  | member hbefore _ _ _ _ _ _ =>
    rw [List.append_assoc, List.cons_append, skipBlanks_append_cons hbefore (by decide)]
    exact ⟨_, rfl⟩

/-! ## Every text is read -/

/-- The phrase is read from the text, with two steps for each byte. -/
def ReadsBack : Phrase → Bytes → Prop
  | .value x, text => ∀ steps rest, 2 * text.length ≤ steps → NumberEnds rest →
      readValue steps (text ++ rest) = some (x, rest)
  | .elements xs, text => ∀ steps rest, 2 * text.length ≤ steps →
      readElements steps (text ++ rest) = some (xs, rest)
  | .members ms, text => ∀ steps rest, 2 * text.length ≤ steps →
      readMembers steps (text ++ rest) = some (ms, rest)

/-- A text that is not empty allows a step. -/
theorem exists_steps {text : Bytes} {byte : UInt8} {steps : Nat}
    (h : 2 * (byte :: text).length ≤ steps) : ∃ n, steps = n + 1 ∧ 2 * text.length ≤ n := by
  rw [List.length_cons] at h
  exact ⟨steps - 1, by omega, by omega⟩

theorem readsBack_number {l : Literal} {text : Bytes} (h : l.Text text) :
    ReadsBack (.value (.number l)) text := by
  intro steps rest hsteps hrest
  have hread := readNumber_text h hrest
  obtain ⟨byte, more, rfl, h₁, h₂, h₃, h₄, h₅, h₆, hblank, -⟩ := exists_literal_text h
  obtain ⟨steps, rfl, -⟩ := exists_steps hsteps
  rw [List.cons_append] at hread ⊢
  rw [readValue, skipBlanks_cons hblank]
  -- no other token starts with the byte of a number
  split
  · next heq => exact absurd (List.cons.inj heq).1 h₁
  · next heq => exact absurd (List.cons.inj heq).1 h₂
  · next heq => exact absurd (List.cons.inj heq).1 h₃
  · next heq => exact absurd (List.cons.inj heq).1 h₄
  · next heq => exact absurd (List.cons.inj heq).1 h₅
  · next heq => exact absurd (List.cons.inj heq).1 h₆
  · rw [hread]
    rfl

/-- An array is read if its elements are. -/
theorem readsBack_array {xs : List Raw} {text : Bytes} (h : (elements xs).Text text)
    (hback : ReadsBack (.elements xs) text) : ReadsBack (.value (.array xs)) (0x5B :: text) := by
  intro steps rest hsteps _
  obtain ⟨steps, rfl, hle⟩ := exists_steps hsteps
  obtain ⟨byte, more, hskip, hclose⟩ := h.skipBlanks_elements rest
  have hread := hback steps rest hle
  rw [← readElements_skipBlanks, hskip] at hread
  rw [List.cons_append, readValue, skipBlanks_cons (by decide)]
  simp only [hskip]
  split
  · next heq => exact absurd (List.cons.inj heq).1 hclose
  · rw [hread]
    rfl

/-- An object is read if its members are. -/
theorem readsBack_object {ms : List (List Piece × Raw)} {text : Bytes}
    (h : (members ms).Text text) (hback : ReadsBack (.members ms) text) :
    ReadsBack (.value (.object ms)) (0x7B :: text) := by
  intro steps rest hsteps _
  obtain ⟨steps, rfl, hle⟩ := exists_steps hsteps
  obtain ⟨more, hskip⟩ := h.skipBlanks_members rest
  have hread := hback steps rest hle
  rw [← readMembers_skipBlanks, hskip] at hread
  rw [List.cons_append, readValue, skipBlanks_cons (by decide)]
  simp only [hskip]
  split
  · next heq => exact absurd (List.cons.inj heq).1 (by decide)
  · rw [hread]
    rfl

/-- A value is read with the blanks in front of it, if what comes behind it ends a
    number. -/
theorem ReadsBack.read {x : Raw} {before text after : Bytes} (h : ReadsBack (.value x) text)
    (hbefore : Blanks before) (hafter : Blanks after) (steps : Nat)
    (hsteps : 2 * text.length ≤ steps) {rest : Bytes} (hrest : NumberEnds rest) :
    readValue steps (before ++ (text ++ (after ++ rest))) = some (x, after ++ rest) := by
  rw [readValue_append hbefore]
  exact h steps _ hsteps (numberEnds_append hafter hrest)

/-- Every text of a phrase is read as the phrase. -/
theorem Text.readsBack {p : Phrase} {text : Bytes} (h : p.Text text) : p.ReadsBack text := by
  induction h with
  | null =>
    intro steps rest hsteps _
    obtain ⟨steps, rfl, -⟩ := exists_steps hsteps
    rfl
  | boolTrue =>
    intro steps rest hsteps _
    obtain ⟨steps, rfl, -⟩ := exists_steps hsteps
    rfl
  | boolFalse =>
    intro steps rest hsteps _
    obtain ⟨steps, rfl, -⟩ := exists_steps hsteps
    rfl
  | number h => exact readsBack_number h
  | string h =>
    intro steps rest hsteps _
    obtain ⟨steps, rfl, -⟩ := exists_steps hsteps
    rw [List.cons_append, List.append_assoc, readValue, skipBlanks_cons (by decide)]
    simp only [List.singleton_append, readPieces_row h, Option.map_some]
  | emptyArray h =>
    intro steps rest hsteps _
    obtain ⟨steps, rfl, -⟩ := exists_steps hsteps
    rw [List.cons_append, List.append_assoc, readValue, skipBlanks_cons (by decide)]
    simp only [List.singleton_append,
      skipBlanks_append_cons h (show isBlank 0x5D = false by decide)]
  | array h ih => exact readsBack_array h ih
  | emptyObject h =>
    intro steps rest hsteps _
    obtain ⟨steps, rfl, -⟩ := exists_steps hsteps
    rw [List.cons_append, List.append_assoc, readValue, skipBlanks_cons (by decide)]
    simp only [List.singleton_append,
      skipBlanks_append_cons h (show isBlank 0x7D = false by decide)]
  | object h ih => exact readsBack_object h ih
  | lastElement hbefore _ hafter ih =>
    intro steps rest hsteps
    simp only [List.length_append, List.length_singleton] at hsteps
    obtain ⟨steps, rfl⟩ := Nat.exists_eq_add_one.2 (show 0 < steps by omega)
    have hread := ih.read hbefore hafter steps (by omega)
      (show NumberEnds (0x5D :: rest) from numberEnds_cons (by decide))
    simp only [List.append_assoc, List.singleton_append, readElements, hread, Option.bind_eq_bind,
      Option.bind_some, skipBlanks_append_cons hafter (show isBlank 0x5D = false by decide)]
    rfl
  | @element _ _ _ _ _ more hbefore _ hafter _ ih ihmore =>
    intro steps rest hsteps
    simp only [List.length_append, List.length_cons] at hsteps
    obtain ⟨steps, rfl⟩ := Nat.exists_eq_add_one.2 (show 0 < steps by omega)
    have hread := ih.read hbefore hafter steps (by omega)
      (show NumberEnds (0x2C :: (more ++ rest)) from numberEnds_cons (by decide))
    simp only [List.append_assoc, List.cons_append, readElements, hread, Option.bind_eq_bind,
      Option.bind_some, skipBlanks_append_cons hafter (show isBlank 0x2C = false by decide),
      ihmore steps rest (by omega)]
    rfl
  | lastMember hbefore hname hbehind hbetween _ hafter ih =>
    intro steps rest hsteps
    simp only [List.length_append, List.length_cons] at hsteps
    obtain ⟨steps, rfl⟩ := Nat.exists_eq_add_one.2 (show 0 < steps by omega)
    have hread := ih.read hbetween hafter steps (by omega)
      (show NumberEnds (0x7D :: rest) from numberEnds_cons (by decide))
    simp only [List.append_assoc, List.cons_append, List.nil_append, readMembers,
      skipBlanks_append_cons hbefore (show isBlank 0x22 = false by decide), readPieces_row hname,
      skipBlanks_append_cons hbehind (show isBlank 0x3A = false by decide), hread,
      Option.bind_eq_bind, Option.bind_some,
      skipBlanks_append_cons hafter (show isBlank 0x7D = false by decide)]
    rfl
  | @member _ _ _ _ _ _ _ _ _ more hbefore hname hbehind hbetween _ hafter _ ih ihmore =>
    intro steps rest hsteps
    simp only [List.length_append, List.length_cons] at hsteps
    obtain ⟨steps, rfl⟩ := Nat.exists_eq_add_one.2 (show 0 < steps by omega)
    have hread := ih.read hbetween hafter steps (by omega)
      (show NumberEnds (0x2C :: (more ++ rest)) from numberEnds_cons (by decide))
    simp only [List.append_assoc, List.cons_append, readMembers,
      skipBlanks_append_cons hbefore (show isBlank 0x22 = false by decide), readPieces_row hname,
      skipBlanks_append_cons hbehind (show isBlank 0x3A = false by decide), hread,
      Option.bind_eq_bind, Option.bind_some,
      skipBlanks_append_cons hafter (show isBlank 0x2C = false by decide),
      ihmore steps rest (by omega)]
    rfl

/-! ## Whatever is read has a text -/

/-- Blanks can stand in front of what an array holds. -/
theorem Text.prepend_elements {xs : List Raw} {blanks text : Bytes} (hblanks : Blanks blanks)
    (h : (elements xs).Text text) : (elements xs).Text (blanks ++ text) := by
  cases h with
  | lastElement hbefore h hafter =>
    rw [← List.append_assoc]
    exact .lastElement (hblanks.append hbefore) h hafter
  | element hbefore h hafter hmore =>
    rw [← List.append_assoc]
    exact .element (hblanks.append hbefore) h hafter hmore

/-- Blanks can stand in front of what an object holds. -/
theorem Text.prepend_members {ms : List (List Piece × Raw)} {blanks text : Bytes}
    (hblanks : Blanks blanks) (h : (members ms).Text text) :
    (members ms).Text (blanks ++ text) := by
  cases h with
  | lastMember hbefore hname hbehind hbetween h hafter =>
    rw [← List.append_assoc]
    exact .lastMember (hblanks.append hbefore) hname hbehind hbetween h hafter
  | member hbefore hname hbehind hbetween h hafter hmore =>
    rw [← List.append_assoc]
    exact .member (hblanks.append hbefore) hname hbehind hbetween h hafter hmore

end Phrase

namespace Raw

open Phrase

/-- What is read with so many steps has a text, and the rest stands behind it. -/
structure Sound (steps : Nat) : Prop where
  value : ∀ {bytes rest x}, readValue steps bytes = some (x, rest) →
    ∃ before text, Blanks before ∧ (Phrase.value x).Text text ∧ bytes = before ++ (text ++ rest)
  elements : ∀ {bytes rest xs}, readElements steps bytes = some (xs, rest) →
    ∃ text, (Phrase.elements xs).Text text ∧ bytes = text ++ rest
  members : ∀ {bytes rest ms}, readMembers steps bytes = some (ms, rest) →
    ∃ text, (Phrase.members ms).Text text ∧ bytes = text ++ rest

theorem Sound.readValue_succ {steps : Nat} (hsound : Sound steps) {bytes rest : Bytes} {x : Raw}
    (h : readValue (steps + 1) bytes = some (x, rest)) :
    ∃ before text, Blanks before ∧ (Phrase.value x).Text text ∧
      bytes = before ++ (text ++ rest) := by
  obtain ⟨before, hbefore, hbytes⟩ := exists_blanks bytes
  suffices htext : ∃ text, (Phrase.value x).Text text ∧ skipBlanks bytes = text ++ rest by
    obtain ⟨text, htext, heq⟩ := htext
    exact ⟨before, text, hbefore, htext, by rw [← heq]; exact hbytes⟩
  rw [readValue] at h
  generalize skipBlanks bytes = front at h ⊢
  split at h
  · obtain ⟨rfl, rfl⟩ := Prod.mk.inj (Option.some.inj h)
    exact ⟨_, .null, rfl⟩
  · obtain ⟨rfl, rfl⟩ := Prod.mk.inj (Option.some.inj h)
    exact ⟨_, .boolTrue, rfl⟩
  · obtain ⟨rfl, rfl⟩ := Prod.mk.inj (Option.some.inj h)
    exact ⟨_, .boolFalse, rfl⟩
  · obtain ⟨⟨pieces, rest'⟩, hread, heq⟩ := Option.map_eq_some_iff.1 h
    obtain ⟨rfl, rfl⟩ := Prod.mk.inj heq
    obtain ⟨text, hrow, rfl⟩ := readPieces_sound hread
    exact ⟨_, .string hrow, by simp⟩
  · next inner =>
    obtain ⟨blanks, hblanks, hinner⟩ := exists_blanks inner
    split at h
    · next hclose =>
      obtain ⟨rfl, rfl⟩ := Prod.mk.inj (Option.some.inj h)
      exact ⟨_, .emptyArray hblanks, by rw [hinner, hclose]; simp⟩
    · obtain ⟨⟨xs, rest'⟩, hread, heq⟩ := Option.map_eq_some_iff.1 h
      obtain ⟨rfl, rfl⟩ := Prod.mk.inj heq
      obtain ⟨text, htext, heq⟩ := hsound.elements hread
      exact ⟨_, .array (htext.prepend_elements hblanks), by rw [hinner, heq]; simp⟩
  · next inner =>
    obtain ⟨blanks, hblanks, hinner⟩ := exists_blanks inner
    split at h
    · next hclose =>
      obtain ⟨rfl, rfl⟩ := Prod.mk.inj (Option.some.inj h)
      exact ⟨_, .emptyObject hblanks, by rw [hinner, hclose]; simp⟩
    · obtain ⟨⟨ms, rest'⟩, hread, heq⟩ := Option.map_eq_some_iff.1 h
      obtain ⟨rfl, rfl⟩ := Prod.mk.inj heq
      obtain ⟨text, htext, heq⟩ := hsound.members hread
      exact ⟨_, .object (htext.prepend_members hblanks), by rw [hinner, heq]; simp⟩
  · obtain ⟨⟨literal, rest'⟩, hread, heq⟩ := Option.map_eq_some_iff.1 h
    obtain ⟨rfl, rfl⟩ := Prod.mk.inj heq
    obtain ⟨text, htext, rfl⟩ := readNumber_sound hread
    exact ⟨text, .number htext, rfl⟩

theorem Sound.readElements_succ {steps : Nat} (hsound : Sound steps) {bytes rest : Bytes}
    {xs : List Raw} (h : readElements (steps + 1) bytes = some (xs, rest)) :
    ∃ text, (Phrase.elements xs).Text text ∧ bytes = text ++ rest := by
  rw [readElements] at h
  obtain ⟨⟨x, behind⟩, hread, hclosed⟩ := Option.bind_eq_some_iff.1 h
  obtain ⟨before, text, hbefore, htext, hbytes⟩ := hsound.value hread
  obtain ⟨after, hafter, hbehind⟩ := exists_blanks behind
  dsimp only at hclosed
  split at hclosed
  · next hclose =>
    obtain ⟨rfl, rfl⟩ := Prod.mk.inj (Option.some.inj hclosed)
    exact ⟨_, .lastElement hbefore htext hafter, by rw [hbytes, hbehind, hclose]; simp⟩
  · next hcomma =>
    obtain ⟨⟨xs', rest'⟩, hmore, heq⟩ := Option.bind_eq_some_iff.1 hclosed
    obtain ⟨rfl, rfl⟩ := Prod.mk.inj (Option.some.inj heq)
    obtain ⟨more, hmore, heq⟩ := hsound.elements hmore
    exact ⟨_, .element hbefore htext hafter hmore, by rw [hbytes, hbehind, hcomma, heq]; simp⟩
  · cases hclosed

theorem Sound.readMembers_succ {steps : Nat} (hsound : Sound steps) {bytes rest : Bytes}
    {ms : List (List Piece × Raw)} (h : readMembers (steps + 1) bytes = some (ms, rest)) :
    ∃ text, (Phrase.members ms).Text text ∧ bytes = text ++ rest := by
  rw [readMembers] at h
  obtain ⟨before, hbefore, hbytes⟩ := exists_blanks bytes
  split at h
  case h_2 => cases h
  next hquote =>
  obtain ⟨⟨key, behindKey⟩, hkey, hvalue⟩ := Option.bind_eq_some_iff.1 h
  obtain ⟨name, hname, heqName⟩ := readPieces_sound hkey
  obtain ⟨behind, hbehind, hbehindKey⟩ := exists_blanks behindKey
  dsimp only at hvalue
  split at hvalue
  case h_2 => cases hvalue
  next hcolon =>
  obtain ⟨⟨x, behindValue⟩, hread, hclosed⟩ := Option.bind_eq_some_iff.1 hvalue
  obtain ⟨between, text, hbetween, htext, heqText⟩ := hsound.value hread
  obtain ⟨after, hafter, hbehindValue⟩ := exists_blanks behindValue
  dsimp only at hclosed
  split at hclosed
  · next hclose =>
    obtain ⟨rfl, rfl⟩ := Prod.mk.inj (Option.some.inj hclosed)
    refine ⟨_, .lastMember hbefore hname hbehind hbetween htext hafter, ?_⟩
    rw [hbytes, hquote, heqName, hbehindKey, hcolon, heqText, hbehindValue, hclose]
    simp
  · next hcomma =>
    obtain ⟨⟨ms', rest'⟩, hmore, hms⟩ := Option.bind_eq_some_iff.1 hclosed
    obtain ⟨rfl, rfl⟩ := Prod.mk.inj (Option.some.inj hms)
    obtain ⟨more, hmore, heqMore⟩ := hsound.members hmore
    refine ⟨_, .member hbefore hname hbehind hbetween htext hafter hmore, ?_⟩
    rw [hbytes, hquote, heqName, hbehindKey, hcolon, heqText, hbehindValue, hcomma, heqMore]
    simp
  · cases hclosed

/-- Whatever is read has a text. -/
theorem sound (steps : Nat) : Sound steps := by
  induction steps with
  | zero =>
    constructor
    all_goals
      intro bytes rest x h
      cases h
  | succ steps ih => exact ⟨ih.readValue_succ, ih.readElements_succ, ih.readMembers_succ⟩

/-- What is taken from the front is blanks and a text of the value. -/
theorem readValue_sound {steps : Nat} {bytes rest : Bytes} {x : Raw}
    (h : readValue steps bytes = some (x, rest)) :
    ∃ before text, Blanks before ∧ (Phrase.value x).Text text ∧
      bytes = before ++ (text ++ rest) :=
  (sound steps).value h

/-- The reader returns a value if and only if the bytes are a text of it. -/
theorem read?_eq_some_iff {bytes : Bytes} {x : Raw} : read? bytes = some x ↔ x.IsText bytes := by
  constructor
  · intro h
    rw [read?] at h
    split at h
    · next x' rest hread =>
      split at h
      · next hrest =>
        obtain rfl := Option.some.inj h
        obtain ⟨before, text, hbefore, htext, hbytes⟩ := readValue_sound hread
        exact ⟨before, text, rest, hbefore, htext, skipBlanks_eq_nil_iff.1 hrest, hbytes⟩
      · cases h
    · cases h
  · rintro ⟨before, text, after, hbefore, htext, hafter, rfl⟩
    have hread := htext.readsBack.read hbefore hafter
      (2 * (before ++ (text ++ after)).length + 2)
      (by simp only [List.length_append]; omega) numberEnds_nil
    rw [List.append_nil] at hread
    rw [read?, hread]
    exact if_pos (skipBlanks_eq_nil_iff.2 hafter)

/-- No bytes spell two values. -/
theorem IsText.unique {bytes : Bytes} {x y : Raw} (hx : x.IsText bytes) (hy : y.IsText bytes) :
    x = y :=
  Option.some.inj ((read?_eq_some_iff.2 hx).symm.trans (read?_eq_some_iff.2 hy))

end Raw

end HostBridge
