import HostBridge.Proofs.Json.Acceptance
import HostBridge.Value

/-!
# The two readers of values

A text is read as a value directly (`Value.read?`) or by way of its JSON tree
(`Value.readTree?`). The two differ in one kind of literals only: an integer
above the greatest one of a value and within the range of a tree is *wide*, and
it is refused by the first reader and a floating-point number for the second.

* `Value.ofJson?_eq`: the conversion of a tree never fails;
* `Value.ofRaw?_widen`: reading by way of the tree is direct reading with every
  wide literal spelled as a floating-point number;
* `Value.ofRaw?_of_hasWide`: direct reading refuses a value with a wide literal,
  wherever it stands, also in a member that a later one would replace;
* `Value.readers_agree`: what follows for the readers of texts.
-/

namespace HostBridge

/-! ## Wide literals -/

namespace Literal

/-- An integer that a tree keeps and that is too great for a value. -/
def IsWide (l : Literal) : Prop :=
  ∃ n, l.integer? = some n ∧ Value.greatestInt < n ∧ n ≤ Json.greatestInteger

instance : DecidablePred IsWide := fun l =>
  decidable_of_iff
    (l.integer?.any fun n => decide (Value.greatestInt < n ∧ n ≤ Json.greatestInteger))
    (by simp [IsWide, Option.any_eq_true])

/-- The literal, and with the exponent zero if it is wide. -/
def widen (l : Literal) : Literal :=
  if l.IsWide then { l with exponent := some ⟨false, [Digit.zero]⟩ } else l

end Literal

namespace Raw

/-- The literal stands somewhere in the value. -/
inductive HasLiteral (literal : Literal) : Raw → Prop
  | number : HasLiteral literal (.number literal)
  | array {x : Raw} {elements : List Raw} (h : x ∈ elements) (hx : HasLiteral literal x) :
      HasLiteral literal (.array elements)
  | object {m : List Piece × Raw} {members : List (List Piece × Raw)} (h : m ∈ members)
      (hx : HasLiteral literal m.2) : HasLiteral literal (.object members)

/-- Some literal in the value is wide. -/
def HasWide (x : Raw) : Prop := ∃ literal : Literal, literal.IsWide ∧ x.HasLiteral literal

mutual

/-- The value with every wide literal spelled as a floating-point number. -/
def widen : Raw → Raw
  | .number literal => .number literal.widen
  | .array elements => .array (widenElements elements)
  | .object members => .object (widenMembers members)
  | x => x
termination_by structural x => x

/-- The elements of an array with their wide literals spelled as floating-point
    numbers. -/
def widenElements : List Raw → List Raw
  | [] => []
  | x :: xs => widen x :: widenElements xs
termination_by structural xs => xs

/-- The members of an object with their wide literals spelled as floating-point
    numbers. -/
def widenMembers : List (List Piece × Raw) → List (List Piece × Raw)
  | [] => []
  | (key, x) :: ms => (key, widen x) :: widenMembers ms
termination_by structural ms => ms

end

theorem widenElements_eq_map (xs : List Raw) : widenElements xs = xs.map widen := by
  induction xs with
  | nil => rfl
  | cons x xs ih => rw [widenElements, ih, List.map_cons]

theorem widenMembers_eq_mapValues (ms : List (List Piece × Raw)) :
    widenMembers ms = Entries.mapValues widen ms := by
  induction ms with
  | nil => rfl
  | cons m ms ih => rw [widenMembers, ih, Entries.mapValues_cons]

/-- Without a wide literal there is nothing to spell differently. -/
theorem widen_of_not_hasWide {x : Raw} (h : ¬x.HasWide) : x.widen = x := by
  induction x using Raw.induction with
  | null => rfl
  | bool value => rfl
  | number literal =>
    have hliteral : ¬literal.IsWide := fun hwide => h ⟨literal, hwide, .number⟩
    rw [widen, Literal.widen, if_neg hliteral]
  | string pieces => rfl
  | array elements ih =>
    have hsame : elements.map widen = elements.map id := List.map_congr_left fun x hx =>
      ih x hx fun ⟨literal, hwide, hin⟩ => h ⟨literal, hwide, .array hx hin⟩
    rw [widen, widenElements_eq_map, hsame, List.map_id]
  | object members ih =>
    have hsame : Entries.mapValues widen members = Entries.mapValues id members :=
      Entries.mapValues_congr fun m hm =>
        ih m hm fun ⟨literal, hwide, hin⟩ => h ⟨literal, hwide, .object hm hin⟩
    rw [widen, widenMembers_eq_mapValues, hsame]
    exact congrArg object (List.map_id members)

end Raw

namespace Json

/-- A tree keeps a wide literal as an integer. -/
theorem ofLiteral?_of_wide {l : Literal} {n : Int} (hn : l.integer? = some n)
    (hgreat : Value.greatestInt < n) (hrange : n ≤ greatestInteger) :
    ofLiteral? l = some (.integer n) := by
  have hleast : leastInteger ≤ n := by
    simp only [Value.greatestInt, leastInteger] at *
    omega
  have hzero : ¬(n = 0 ∧ l.negative = true) := by
    simp only [Value.greatestInt] at hgreat
    omega
  simp only [ofLiteral?, hn]
  exact if_pos ⟨hleast, hrange, hzero⟩

/-- In a tree a literal that is not wide is an integer of a value or a
    floating-point number, if it is not too great. -/
theorem ofLiteral?_of_not_wide {l : Literal} (h : ¬l.IsWide) :
    (∃ n, Value.leastInt ≤ n ∧ n ≤ Value.greatestInt ∧ ofLiteral? l = some (.integer n)) ∨
      (∃ x, ofLiteral? l = some (.float x)) ∨ ofLiteral? l = none := by
  have hfloat : (∃ x, l.toFloat?.map float = some (.float x)) ∨
      l.toFloat?.map float = none := by
    cases l.toFloat? with
    | none => exact .inr rfl
    | some x => exact .inl ⟨x, rfl⟩
  cases hn : l.integer? with
  | none =>
    simp only [ofLiteral?, hn]
    exact .inr hfloat
  | some n =>
    simp only [ofLiteral?, hn]
    split
    · next hrange =>
      have hgreatest : n ≤ Value.greatestInt :=
        Int.not_lt.1 fun hgreat => h ⟨n, hn, hgreat, hrange.2.1⟩
      exact .inl ⟨n, hrange.1, hgreatest, rfl⟩
    · exact .inr hfloat

end Json

namespace Value

/-! ## Converting a tree -/

theorem elementsOfJson?_eq_mapM (xs : List Json) : elementsOfJson? xs = xs.mapM ofJson? := by
  induction xs with
  | nil => rfl
  | cons x xs ih => rw [elementsOfJson?, ih, List.mapM_cons]

theorem membersOfJson?_eq_mapM (ms : List (String × Json)) :
    membersOfJson? ms = ms.mapM fun m => (ofJson? m.2).map (m.1, ·) := by
  induction ms with
  | nil => rfl
  | cons m ms ih =>
    rw [membersOfJson?, ih, List.mapM_cons]
    cases ofJson? m.2 <;> rfl

theorem ofJsonElements_eq_map (xs : List Json) : ofJsonElements xs = xs.map ofJson := by
  induction xs with
  | nil => rfl
  | cons x xs ih => rw [ofJsonElements, ih, List.map_cons]

theorem ofJsonMembers_eq_mapValues (ms : List (String × Json)) :
    ofJsonMembers ms = Entries.mapValues ofJson ms := by
  induction ms with
  | nil => rfl
  | cons m ms ih => rw [ofJsonMembers, ih, Entries.mapValues_cons]

/-- Every number of a tree is an integer or a floating-point number. -/
theorem ofNumber?_integer (n : Int) : ofNumber? (.integer n) = some (ofJson (.integer n)) := by
  rw [ofNumber?, asInt?, Json.asFloat?, ofJson]
  cases ofInt? n <;> rfl

/-- The conversion of a tree never fails. -/
theorem ofJson?_eq (x : Json) : ofJson? x = some (ofJson x) := by
  induction x using Json.induction with
  | null => rfl
  | bool value => rfl
  | integer n => exact ofNumber?_integer n
  | float x => rfl
  | string text => rfl
  | array elements ih =>
    rw [ofJson?, elementsOfJson?_eq_mapM, mapM_eq_some ih, ofJson, ofJsonElements_eq_map]
    rfl
  | object members ih =>
    have hread : members.mapM (fun m => (ofJson? m.2).map (m.1, ·)) =
        some (Entries.mapValues ofJson members) :=
      mapM_eq_some fun m hm => by rw [ih m hm, Option.map_some]
    rw [ofJson?, membersOfJson?_eq_mapM, hread, ofJson, ofJsonMembers_eq_mapValues]
    rfl

theorem ofJsonOrNull_eq (x : Json) : ofJsonOrNull x = ofJson x := by
  rw [ofJsonOrNull, ofJson?_eq, Option.getD_some]

/-! ## Literals -/

/-- A wide literal is refused. -/
theorem ofLiteral?_of_isWide {l : Literal} (h : l.IsWide) : ofLiteral? l = none := by
  obtain ⟨n, hn, hgreat, hrange⟩ := h
  rw [ofLiteral?, Json.ofLiteral?_of_wide hn hgreat hrange]
  exact if_neg fun hfits => absurd hfits.2 (Int.not_le.2 hgreat)

/-- Another literal is the same number for both readers. -/
theorem ofLiteral?_of_not_isWide {l : Literal} (h : ¬l.IsWide) :
    ofLiteral? l = (Json.ofLiteral? l).map ofJson := by
  rcases Json.ofLiteral?_of_not_wide h with ⟨n, hleast, hgreatest, heq⟩ | ⟨x, heq⟩ | heq
  · have hfits : ofInt? n = some (.int (Int64.ofInt n)) := if_pos ⟨hleast, hgreatest⟩
    simp only [ofLiteral?, heq, Option.map_some, ofJson, hfits, Option.getD_some]
  · rw [ofLiteral?, heq]
    rfl
  · rw [ofLiteral?, heq]
    rfl

/-- With an exponent, a wide literal is the floating-point number nearest to its
    integer. -/
theorem ofLiteral?_widen_of_integer? {l : Literal} {n : Int} (hn : l.integer? = some n)
    (hgreat : greatestInt < n) (hrange : n ≤ Json.greatestInteger) :
    ofLiteral? l.widen = some (.float (.ofInt n)) := by
  have hwide : l.IsWide := ⟨n, hn, hgreat, hrange⟩
  have hpos : n ≠ 0 := by
    simp only [greatestInt] at hgreat
    omega
  have hlt : n.natAbs < 2 ^ 64 := by
    simp only [greatestInt, Json.greatestInteger] at hgreat hrange
    omega
  obtain ⟨x, hx⟩ := Binary64.exists_ofRatio?_of_lt (n < 0) hlt
  -- the exponent changes neither the digits nor the power
  have hfloat : l.widen.toFloat? = some x := by
    rw [← hx, ← Literal.toFloat?_of_integer? hn hpos, Literal.widen, if_pos hwide]
    obtain ⟨negative, whole, rfl, _⟩ := Literal.eq_of_integer? hn
    rfl
  have hinteger : l.widen.integer? = none := by
    rw [Literal.widen, if_pos hwide, Literal.integer?]
    cases l.fraction <;> rfl
  have hofInt : Binary64.ofInt n = x := by rw [Binary64.ofInt, hx, Option.getD_some]
  simp only [ofLiteral?, Json.ofLiteral?, hinteger, hfloat, Option.map_some, hofInt]

/-- By way of a tree, a literal is read as if it had been spelled as a
    floating-point number in case it is wide. -/
theorem ofLiteral?_widen (l : Literal) : ofLiteral? l.widen = (Json.ofLiteral? l).map ofJson := by
  by_cases h : l.IsWide
  · obtain ⟨n, hn, hgreat, hrange⟩ := h
    have hfits : ¬(leastInt ≤ n ∧ n ≤ greatestInt) :=
      fun hfits => absurd hfits.2 (Int.not_le.2 hgreat)
    rw [ofLiteral?_widen_of_integer? hn hgreat hrange, Json.ofLiteral?_of_wide hn hgreat hrange,
      Option.map_some, ofJson, ofInt?, if_neg hfits, Option.getD_none]
  · rw [Literal.widen, if_neg h, ofLiteral?_of_not_isWide h]

/-! ## Spelled values -/

theorem elementsOfRaw?_eq_mapM (room : Nat) (xs : List Raw) :
    elementsOfRaw? room xs = xs.mapM (ofRaw? room) := by
  induction xs with
  | nil => rfl
  | cons x xs ih => rw [elementsOfRaw?, ih, List.mapM_cons]

theorem membersOfRaw?_eq_mapM (room : Nat) (ms : List (List Piece × Raw)) :
    membersOfRaw? room ms = ms.mapM (Raw.member? (ofRaw? room)) := by
  induction ms with
  | nil => rfl
  | cons m ms ih =>
    rw [membersOfRaw?, ih, List.mapM_cons, Raw.member?]
    simp [Option.bind_assoc]

/-- By way of the tree, every wide literal is a floating-point number, and
    everything else is read as it is read directly. -/
theorem ofRaw?_widen (room : Nat) (x : Raw) :
    ofRaw? room x.widen = (Json.ofRaw? room x).map ofJson := by
  induction x using Raw.induction generalizing room with
  | null => rfl
  | bool value => rfl
  | number literal => exact ofLiteral?_widen literal
  | string pieces =>
    show (Piece.text? pieces).map .string = ((Piece.text? pieces).map .string).map ofJson
    cases Piece.text? pieces <;> rfl
  | array elements ih =>
    cases room with
    | zero => rfl
    | succ room =>
      have hread : (elements.map Raw.widen).mapM (ofRaw? room) =
          (elements.mapM (Json.ofRaw? room)).map (List.map ofJson) := by
        rw [List.mapM_map, ← mapM_map_right]
        exact mapM_congr fun x hx => ih x hx room
      simp only [Raw.widen, Raw.widenElements_eq_map, ofRaw?, elementsOfRaw?_eq_mapM, Json.ofRaw?,
        Json.elementsOfRaw?_eq_mapM, hread, Option.map_map]
      exact congrArg (Option.map · _) (funext fun xs => by
        rw [Function.comp_apply, Function.comp_apply, ofJson, ofJsonElements_eq_map])
  | object members ih =>
    cases room with
    | zero => rfl
    | succ room =>
      have hmember : ∀ m ∈ members, Raw.member? (ofRaw? room) (m.1, m.2.widen) =
          (Raw.member? (Json.ofRaw? room) m).map fun e => (e.1, ofJson e.2) := fun m hm => by
        rw [Raw.member?, Raw.member?, ih m hm room]
        cases Piece.text? m.1 <;> cases Json.ofRaw? room m.2 <;> rfl
      have hread : (Entries.mapValues Raw.widen members).mapM (Raw.member? (ofRaw? room)) =
          (members.mapM (Raw.member? (Json.ofRaw? room))).map (Entries.mapValues ofJson) := by
        rw [Entries.mapValues, List.mapM_map]
        exact (mapM_congr hmember).trans (mapM_map_right _ _ _)
      simp only [Raw.widen, Raw.widenMembers_eq_mapValues, ofRaw?, membersOfRaw?_eq_mapM,
        Json.ofRaw?, Json.membersOfRaw?_eq_mapM, hread, Option.map_map]
      exact congrArg (Option.map · _) (funext fun ms => by
        rw [Function.comp_apply, Function.comp_apply, ofJson, ofJsonMembers_eq_mapValues,
          Entries.settle_mapValues])

/-- Direct reading refuses a value with a wide literal, wherever it stands. -/
theorem ofRaw?_of_hasWide {x : Raw} (h : x.HasWide) (room : Nat) : ofRaw? room x = none := by
  obtain ⟨literal, hwide, hin⟩ := h
  induction hin generalizing room with
  | number => exact ofLiteral?_of_isWide hwide
  | array hx _ ih =>
    cases room with
    | zero => rfl
    | succ room =>
      simp only [ofRaw?, elementsOfRaw?_eq_mapM, mapM_eq_none hx (ih room), Option.map_none]
  | @object m members hm _ ih =>
    cases room with
    | zero => rfl
    | succ room =>
      have hmember : Raw.member? (ofRaw? room) m = none := by
        rw [Raw.member?, ih room]
        cases Piece.text? m.1 <;> rfl
      simp only [ofRaw?, membersOfRaw?_eq_mapM, mapM_eq_none hm hmember, Option.map_none]

/-- Without a wide literal the readers agree. -/
theorem ofRaw?_of_not_hasWide {x : Raw} (h : ¬x.HasWide) (room : Nat) :
    ofRaw? room x = (Json.ofRaw? room x).map ofJson := by
  rw [← ofRaw?_widen, Raw.widen_of_not_hasWide h]

/-! ## Texts -/

/-- The text spells a value with a wide literal. -/
def SpellsWide (bytes : Bytes) : Prop := ∃ x, Raw.read? bytes = some x ∧ x.HasWide

/-- A text is read by way of its tree as the spelled value is, with its wide
    literals as floating-point numbers. -/
theorem readTree?_eq (bytes : Bytes) :
    readTree? bytes = (Raw.read? bytes).bind fun x => ofRaw? Json.maxNesting x.widen := by
  rw [readTree?, Json.read?]
  cases Raw.read? bytes with
  | none => rfl
  | some x =>
    rw [Option.bind_some, Option.bind_some, ofRaw?_widen]
    cases Json.ofRaw? Json.maxNesting x with
    | none => rfl
    | some tree => exact ofJson?_eq tree

theorem read?_of_spellsWide {bytes : Bytes} (h : SpellsWide bytes) : read? bytes = none := by
  obtain ⟨x, hread, hwide⟩ := h
  rw [read?, hread, Option.bind_some, ofRaw?_of_hasWide hwide]

theorem read?_of_not_spellsWide {bytes : Bytes} (h : ¬SpellsWide bytes) :
    read? bytes = readTree? bytes := by
  rw [readTree?_eq, read?]
  cases hread : Raw.read? bytes with
  | none => rfl
  | some x =>
    rw [Option.bind_some, Option.bind_some,
      Raw.widen_of_not_hasWide fun hwide => h ⟨x, hread, hwide⟩]

/-- A text is read by way of its tree if and only if it is accepted. -/
theorem isSome_readTree?_iff (bytes : Bytes) :
    (readTree? bytes).isSome ↔ ∃ x, Raw.read? bytes = some x ∧ x.Accepted Json.maxNesting := by
  rw [readTree?_eq]
  cases Raw.read? bytes with
  | none => simp
  | some x => simp [ofRaw?_widen, Option.isSome_map, Json.isSome_ofRaw?_iff]

/-- The two readers of texts:

    * a text is read directly as a value if and only if it is read as the same
      value by way of its tree and spells no wide literal;
    * with a wide literal direct reading fails;
    * reading by way of the tree succeeds exactly for the accepted texts, and it
      reads what direct reading would if the wide literals were spelled with an
      exponent;
    * so spelled, a wide literal is the floating-point number nearest to its
      integer;
    * the conversion of a tree never fails, so that null never stands in for a
      failure. -/
theorem readers_agree :
    (∀ bytes v, read? bytes = some v ↔ readTree? bytes = some v ∧ ¬SpellsWide bytes) ∧
    (∀ bytes, SpellsWide bytes → read? bytes = none) ∧
    (∀ bytes, (readTree? bytes).isSome ↔
      ∃ x, Raw.read? bytes = some x ∧ x.Accepted Json.maxNesting) ∧
    (∀ bytes, readTree? bytes =
      (Raw.read? bytes).bind fun x => ofRaw? Json.maxNesting x.widen) ∧
    (∀ (l : Literal) (n : Int), l.integer? = some n → greatestInt < n → n ≤ Json.greatestInteger →
      ofLiteral? l.widen = some (.float (.ofInt n))) ∧
    (∀ tree : Json, ofJson? tree = some (ofJsonOrNull tree)) ∧
    (∀ bytes, (Json.read? bytes).map ofJsonOrNull = readTree? bytes) := by
  refine ⟨fun bytes v => ⟨fun h => ?_, fun ⟨h, hwide⟩ => ?_⟩, fun _ => read?_of_spellsWide,
    isSome_readTree?_iff, readTree?_eq, fun _ _ => ofLiteral?_widen_of_integer?,
    fun tree => by rw [ofJson?_eq, ofJsonOrNull_eq], fun bytes => ?_⟩
  · have hwide : ¬SpellsWide bytes := fun hwide => by
      rw [read?_of_spellsWide hwide] at h
      exact absurd h (by simp)
    exact ⟨read?_of_not_spellsWide hwide ▸ h, hwide⟩
  · rw [read?_of_not_spellsWide hwide, h]
  · rw [readTree?]
    cases Json.read? bytes with
    | none => rfl
    | some tree => rw [Option.map_some, Option.bind_some, ofJson?_eq, ofJsonOrNull_eq]

/-- A wide literal in a member that a later one replaces: only direct reading
    minds it. -/
example :
    let bytes := Utf8.encode "\x7b\"a\":9223372036854775808,\"a\":1\x7d"
    (read? bytes).isNone ∧ (readTree? bytes).isSome := by
  decide +kernel

end Value

end HostBridge
