import HostBridge.Proofs.Json.Trees

/-!
# The texts that are accepted

A spelled value has a meaning as a tree if it is nested no deeper than there is
room for, none of its numbers is too great and each of its strings and names is
text (`Raw.Accepted`). Nothing else is refused:

* `Json.isSome_ofLiteral?_iff`: a literal is refused only if it is too great for
  a floating-point number; the integers that stay integers are all below that;
* `Json.isSome_ofRaw?_iff`: a spelled value has a meaning if and only if it is
  accepted.
-/

namespace HostBridge

namespace Literal

/-- An integer is spelled without point and exponent. -/
theorem eq_of_integer? {l : Literal} {n : ℤ} (h : l.integer? = some n) :
    ∃ negative whole, l = ⟨negative, whole, none, none⟩ ∧
      n = if negative then -(Digit.value whole : ℤ) else Digit.value whole := by
  obtain ⟨negative, whole, fraction, exponent⟩ := l
  cases fraction with
  | some digits => exact absurd h (by simp [integer?])
  | none =>
    cases exponent with
    | some e => exact absurd h (by simp [integer?])
    | none => exact ⟨negative, whole, rfl, (Option.some.inj h).symm⟩

theorem digits_of_whole (negative : Bool) (whole : List Digit) (exponent : Option Exponent) :
    digits ⟨negative, whole, none, exponent⟩ = whole :=
  List.append_nil whole

/-- A literal without point and exponent is near the same numbers as its
    integer. -/
theorem toFloat?_of_integer? {l : Literal} {n : ℤ} (h : l.integer? = some n) (hn : n ≠ 0) :
    l.toFloat? = Binary64.ofRatio? (n < 0) n.natAbs 1 := by
  obtain ⟨negative, whole, rfl, hvalue⟩ := eq_of_integer? h
  have habs : Digit.value whole = n.natAbs := by split at hvalue <;> omega
  have hsign : negative = decide (n < 0) := by
    cases negative <;> simp at hvalue ⊢ <;> omega
  rw [toFloat?, digits_of_whole, habs, ← hsign]
  -- neither power nor digits behind the point
  have hpower : power ⟨negative, whole, none, none⟩ = 0 := rfl
  rw [hpower, if_neg (by omega), if_neg (by omega), if_neg (by omega)]
  exact (if_pos (by simp)).trans (congrArg (Binary64.ofRatio? negative · 1) (Nat.mul_one _))

/-- An integer of 64 bits, of whatever sign, is not too great. -/
theorem isSome_toFloat?_of_integer? {l : Literal} {n : ℤ} (h : l.integer? = some n)
    (hn : n.natAbs < 2 ^ 64) : l.toFloat?.isSome := by
  by_cases hzero : n = 0
  · obtain ⟨negative, whole, rfl, hvalue⟩ := eq_of_integer? h
    have hdigits : Digit.value (digits ⟨negative, whole, none, none⟩) = 0 := by
      rw [digits_of_whole]
      split at hvalue <;> omega
    rw [toFloat?_of_value_eq_zero hdigits]
    rfl
  · obtain ⟨x, hx⟩ := Binary64.exists_ofRatio?_of_lt (n < 0) hn
    rw [toFloat?_of_integer? h hzero, hx]
    rfl

end Literal

namespace Raw

/-- The value is nested at most `room` deep, none of its numbers is too great,
    and its strings and names are text. -/
inductive Accepted : Nat → Raw → Prop
  | null (room : Nat) : Accepted room .null
  | bool (room : Nat) (value : Bool) : Accepted room (.bool value)
  | number (room : Nat) {literal : Literal} (h : literal.toFloat?.isSome) :
      Accepted room (.number literal)
  | string (room : Nat) {pieces : List Piece} (h : (Piece.text? pieces).isSome) :
      Accepted room (.string pieces)
  | array {room : Nat} {elements : List Raw} (h : ∀ x ∈ elements, Accepted room x) :
      Accepted (room + 1) (.array elements)
  | object {room : Nat} {members : List (List Piece × Raw)}
      (keys : ∀ m ∈ members, (Piece.text? m.1).isSome)
      (values : ∀ m ∈ members, Accepted room m.2) : Accepted (room + 1) (.object members)

theorem accepted_number_iff {room : Nat} {literal : Literal} :
    Accepted room (.number literal) ↔ literal.toFloat?.isSome := by
  refine ⟨fun h => ?_, .number room⟩
  cases h with | number _ h => exact h

theorem accepted_string_iff {room : Nat} {pieces : List Piece} :
    Accepted room (.string pieces) ↔ (Piece.text? pieces).isSome := by
  refine ⟨fun h => ?_, .string room⟩
  cases h with | string _ h => exact h

/-- Without room there is no array. -/
theorem not_accepted_array_zero (elements : List Raw) : ¬Accepted 0 (.array elements) := by
  intro h
  cases h

theorem accepted_array_iff {room : Nat} {elements : List Raw} :
    Accepted (room + 1) (.array elements) ↔ ∀ x ∈ elements, Accepted room x := by
  refine ⟨fun h => ?_, .array⟩
  cases h with | array h => exact h

/-- Without room there is no object. -/
theorem not_accepted_object_zero (members : List (List Piece × Raw)) :
    ¬Accepted 0 (.object members) := by
  intro h
  cases h

theorem accepted_object_iff {room : Nat} {members : List (List Piece × Raw)} :
    Accepted (room + 1) (.object members) ↔
      ∀ m ∈ members, (Piece.text? m.1).isSome ∧ Accepted room m.2 := by
  constructor
  · intro h m hm
    cases h with | object keys values => exact ⟨keys m hm, values m hm⟩
  · intro h
    exact .object (fun m hm => (h m hm).1) fun m hm => (h m hm).2

theorem isSome_member?_iff {α : Type} {read : Raw → Option α} {m : List Piece × Raw} :
    (member? read m).isSome ↔ (Piece.text? m.1).isSome ∧ (read m.2).isSome := by
  rw [member?]
  cases Piece.text? m.1 <;> cases read m.2 <;> simp

end Raw

namespace Json

/-- Only a literal that is too great is refused. -/
theorem isSome_ofLiteral?_iff {l : Literal} : (ofLiteral? l).isSome ↔ l.toFloat?.isSome := by
  rw [ofLiteral?]
  split
  · next n hn =>
    split
    · next hrange =>
      have hlt : n.natAbs < 2 ^ 64 := by
        have hleast := hrange.1
        have hgreatest := hrange.2.1
        simp only [leastInteger, greatestInteger] at hleast hgreatest
        omega
      exact iff_of_true rfl (Literal.isSome_toFloat?_of_integer? hn hlt)
    · rw [Option.isSome_map]
  · rw [Option.isSome_map]

/-- A spelled value has a meaning if and only if it is accepted. -/
theorem isSome_ofRaw?_iff {room : Nat} {x : Raw} : (ofRaw? room x).isSome ↔ x.Accepted room := by
  induction x using Raw.induction generalizing room with
  | null => exact iff_of_true rfl (.null room)
  | bool value => exact iff_of_true rfl (.bool room value)
  | number literal => rw [ofRaw?, isSome_ofLiteral?_iff, Raw.accepted_number_iff]
  | string pieces => rw [ofRaw?, Option.isSome_map, Raw.accepted_string_iff]
  | array elements ih =>
    cases room with
    | zero => exact iff_of_false (by simp [ofRaw?]) (Raw.not_accepted_array_zero elements)
    | succ room =>
      simp only [ofRaw?, elementsOfRaw?_eq_mapM, Option.isSome_map, isSome_mapM_iff]
      rw [Raw.accepted_array_iff]
      exact forall₂_congr fun x hx => ih x hx
  | object members ih =>
    cases room with
    | zero => exact iff_of_false (by simp [ofRaw?]) (Raw.not_accepted_object_zero members)
    | succ room =>
      simp only [ofRaw?, membersOfRaw?_eq_mapM, Option.isSome_map, isSome_mapM_iff,
        Raw.isSome_member?_iff]
      rw [Raw.accepted_object_iff]
      exact forall₂_congr fun m hm => and_congr_right' (ih m hm)

end Json

end HostBridge
