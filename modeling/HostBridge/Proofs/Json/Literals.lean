import HostBridge.Json
import HostBridge.Proofs.Number.Shortest

/-!
# Number literals as text

The exponent of a literal comes after a small or a capital letter and may have a
plus sign; apart from that a literal has one text (`Literal.Text`).

* `Raw.readNumber_text`: a literal is read from each of its texts, if what
  follows cannot be taken for a part of it;
* `Raw.readNumber_sound`: what is read as a literal is a text of it.

What is written for a literal that keeps to the grammar is one of its texts
(`Literal.text_render`). The literals of integers and of finite numbers keep to
the grammar and have their number as value (`Json.ofLiteral?_integerLiteral`,
`Json.ofLiteral?_literal`).
-/

namespace HostBridge

namespace Literal

/-- The point and the digits after it, as they are written. -/
def fractionText (l : Literal) : Bytes :=
  match l.fraction with
  | none => []
  | some digits => 0x2E :: digits.map Digit.render

/-- The exponent, as it is written. -/
def exponentText (l : Literal) : Bytes :=
  match l.exponent with
  | none => []
  | some e => 0x65 :: (if e.negative then 0x2D else 0x2B) :: e.digits.map Digit.render

end Literal

/-- The bytes are a text of the exponent, or of its absence. -/
inductive Exponent.Text : Option Exponent → Bytes → Prop
  | absent : Text none []
  | signed (e : Exponent) {letter : UInt8} (h : letter = 0x65 ∨ letter = 0x45) :
      Text (some e) (letter :: (if e.negative then 0x2D else 0x2B) :: e.digits.map Digit.render)
  | unsigned (digits : List Digit) {letter : UInt8} (h : letter = 0x65 ∨ letter = 0x45) :
      Text (some ⟨false, digits⟩) (letter :: digits.map Digit.render)

namespace Literal

/-- The bytes are a text of the literal. -/
structure Text (l : Literal) (text : Bytes) : Prop where
  wellFormed : l.WellFormed
  spelled : ∃ power, Exponent.Text l.exponent power ∧
    text = (if l.negative then [0x2D] else []) ++ l.whole.map Digit.render ++
      l.fractionText ++ power

/-- What is written for an exponent is one of its texts. -/
theorem text_exponentText (l : Literal) : Exponent.Text l.exponent l.exponentText := by
  rw [exponentText]
  cases l.exponent with
  | none => exact .absent
  | some e => exact .signed e (.inl rfl)

/-- What is written for a literal is one of its texts. -/
theorem text_render {l : Literal} (h : l.WellFormed) : l.Text l.render :=
  ⟨h, l.exponentText, l.text_exponentText, rfl⟩

end Literal

namespace Raw

/-- No digit comes next. -/
def NoDigit (rest : Bytes) : Prop := ∀ byte more, rest = byte :: more → digit? byte = none

/-- What comes next cannot be a part of a number. -/
def NumberEnds (rest : Bytes) : Prop :=
  ∀ byte more, rest = byte :: more → digit? byte = none ∧ byte ≠ 0x2E ∧ byte ≠ 0x65 ∧ byte ≠ 0x45

theorem NumberEnds.noDigit {rest : Bytes} (h : NumberEnds rest) : NoDigit rest :=
  fun byte more heq => (h byte more heq).1

theorem numberEnds_nil : NumberEnds [] := fun _ _ h => absurd h (by simp)

theorem numberEnds_cons {byte : UInt8} {more : Bytes}
    (h : digit? byte = none ∧ byte ≠ 0x2E ∧ byte ≠ 0x65 ∧ byte ≠ 0x45) :
    NumberEnds (byte :: more) := by
  intro byte' more' heq
  obtain ⟨rfl, _⟩ := List.cons.inj heq
  exact h

theorem noDigit_cons {byte : UInt8} {more : Bytes} (h : digit? byte = none) :
    NoDigit (byte :: more) := by
  intro byte' more' heq
  obtain ⟨rfl, _⟩ := List.cons.inj heq
  exact h

/-! ## Digits -/

theorem digit?_render (d : Digit) : digit? d.render = some d := by
  revert d
  decide

theorem render_ne_minus (d : Digit) : d.render ≠ 0x2D := by
  revert d
  decide

theorem render_ne_plus (d : Digit) : d.render ≠ 0x2B := by
  revert d
  decide

theorem readDigits_render (digits : List Digit) {rest : Bytes} (hrest : NoDigit rest) :
    readDigits (digits.map Digit.render ++ rest) = (digits, rest) := by
  induction digits with
  | nil =>
    cases rest with
    | nil => rfl
    | cons byte more => rw [List.map_nil, List.nil_append, readDigits, hrest byte more rfl]
  | cons d more ih => rw [List.map_cons, List.cons_append, readDigits, digit?_render, ih]

/-! ## The parts of a literal -/

theorem readFraction_render {l : Literal} (hl : l.WellFormed) {rest : Bytes}
    (hpoint : ∀ more, rest ≠ 0x2E :: more) (hrest : NoDigit rest) :
    readFraction (l.fractionText ++ rest) = some (l.fraction, rest) := by
  have hne := hl.fraction
  rw [Literal.fractionText]
  cases hfraction : l.fraction with
  | none =>
    simp only [List.nil_append]
    unfold readFraction
    split
    · next more => exact absurd rfl (hpoint more)
    · rfl
  | some digits =>
    simp only [List.cons_append, readFraction, readDigits_render digits hrest]
    cases digits with
    | nil => exact absurd hfraction hne
    | cons d more => rfl

theorem readExponent_text {e : Option Exponent} {power : Bytes} (h : Exponent.Text e power)
    (hne : ∀ e', e = some e' → e'.digits ≠ []) {rest : Bytes} (hrest : NumberEnds rest) :
    readExponent (power ++ rest) = some (e, rest) := by
  cases h with
  | absent =>
    rw [List.nil_append]
    unfold readExponent
    split
    · next more => exact absurd rfl (hrest _ more rfl).2.2.1
    · next more => exact absurd rfl (hrest _ more rfl).2.2.2
    · rfl
  | signed e hletter =>
    obtain ⟨negative, digits⟩ := e
    obtain ⟨d, more, rfl⟩ := List.exists_cons_of_ne_nil (hne _ rfl)
    have hread := readDigits_render (d :: more) hrest.noDigit
    rw [List.map_cons, List.cons_append] at hread
    rcases hletter with rfl | rfl <;> cases negative <;>
      simp [readExponent, readExponentDigits, hread]
  | unsigned digits hletter =>
    obtain ⟨d, more, rfl⟩ := List.exists_cons_of_ne_nil (hne _ rfl)
    have hread := readDigits_render (d :: more) hrest.noDigit
    rw [List.map_cons, List.cons_append] at hread
    -- no digit is taken for a sign
    have hexponent : readExponentDigits (d.render :: (more.map Digit.render ++ rest)) =
        some (⟨false, d :: more⟩, rest) := by
      unfold readExponentDigits
      split
      next negative rest' heq =>
      split at heq
      · next hplus => exact absurd (List.cons.inj hplus).1 (render_ne_plus d)
      · next hminus => exact absurd (List.cons.inj hminus).1 (render_ne_minus d)
      · obtain ⟨rfl, rfl⟩ := Prod.mk.inj heq
        rw [hread]
    rcases hletter with rfl | rfl <;>
      simp only [List.map_cons, List.cons_append, readExponent, hexponent, Option.map_some]

theorem noDigit_exponent {e : Option Exponent} {power : Bytes} (h : Exponent.Text e power)
    {rest : Bytes} (hrest : NoDigit rest) : NoDigit (power ++ rest) := by
  cases h with
  | absent => exact hrest
  | signed e hletter => rcases hletter with rfl | rfl <;> exact noDigit_cons (by decide)
  | unsigned digits hletter => rcases hletter with rfl | rfl <;> exact noDigit_cons (by decide)

theorem noDigit_fractionText (l : Literal) {rest : Bytes} (hrest : NoDigit rest) :
    NoDigit (l.fractionText ++ rest) := by
  rw [Literal.fractionText]
  split
  · exact hrest
  · exact noDigit_cons (by decide)

/-- An exponent is not taken for a fraction. -/
theorem exponent_append_ne {e : Option Exponent} {power : Bytes} (h : Exponent.Text e power)
    {rest : Bytes} (hrest : NumberEnds rest) (more : Bytes) : power ++ rest ≠ 0x2E :: more := by
  cases h with
  | absent => exact fun heq => (hrest _ more heq).2.1 rfl
  | signed e hletter => rcases hletter with rfl | rfl <;> simp
  | unsigned digits hletter => rcases hletter with rfl | rfl <;> simp

/-- A literal is read from each of its texts. -/
theorem readNumber_text {l : Literal} {text : Bytes} (h : l.Text text) {rest : Bytes}
    (hrest : NumberEnds rest) : readNumber (text ++ rest) = some (l, rest) := by
  obtain ⟨hl, power, hpower, rfl⟩ := h
  obtain ⟨first, more, hwhole, hzero⟩ := hl.whole
  have hdigits := readDigits_render l.whole
    (noDigit_fractionText l (noDigit_exponent hpower hrest.noDigit))
  have hfraction := readFraction_render hl (exponent_append_ne hpower hrest)
    (noDigit_exponent hpower hrest.noDigit)
  have hexponent := readExponent_text hpower hl.exponent hrest
  have hlead : ¬(first.val = 0 ∧ more ≠ []) := fun ⟨h, hne⟩ => hne (hzero h)
  obtain ⟨negative, whole, fraction, exponent⟩ := l
  simp only at hwhole
  subst hwhole
  rw [List.map_cons, List.cons_append] at hdigits
  cases negative with
  | true =>
    simp only [if_true, List.append_assoc, List.cons_append, List.nil_append, List.map_cons,
      readNumber, hdigits, if_neg hlead, hfraction, hexponent, Option.bind_eq_bind,
      Option.bind_some]
    rfl
  | false =>
    simp only [Bool.false_eq_true, if_false, List.append_assoc, List.nil_append, List.map_cons,
      List.cons_append]
    unfold readNumber
    split
    next negative rest' heq =>
    split at heq
    · next hminus => exact absurd (List.cons.inj hminus).1 (render_ne_minus first)
    · obtain ⟨rfl, rfl⟩ := Prod.mk.inj heq
      simp only [hdigits, if_neg hlead, hfraction, hexponent, Option.bind_eq_bind,
        Option.bind_some]
      rfl

/-! ## What is read as a literal -/

theorem eq_render_of_digit? {byte : UInt8} {d : Digit} (h : digit? byte = some d) :
    byte = d.render := by
  rw [digit?] at h
  split at h
  · next hrange =>
    obtain rfl := Option.some.inj h
    rw [UInt8.le_iff_toNat_le, UInt8.le_iff_toNat_le] at hrange
    simp only [UInt8.reduceToNat] at hrange
    refine UInt8.toNat_inj.1 ?_
    simp only [Digit.render, Digit.last, UInt8.toNat_ofNat']
    omega
  · exact absurd h (by simp)

/-- The digits in front are followed by the rest. -/
theorem readDigits_sound (bytes : Bytes) :
    bytes = (readDigits bytes).1.map Digit.render ++ (readDigits bytes).2 := by
  induction bytes with
  | nil => rfl
  | cons byte rest ih =>
    rw [readDigits]
    split
    · next d hd =>
      rw [List.map_cons, List.cons_append, ← ih, eq_render_of_digit? hd]
    · rfl

theorem eq_append_of_readDigits {bytes rest : Bytes} {digits : List Digit}
    (h : readDigits bytes = (digits, rest)) : bytes = digits.map Digit.render ++ rest := by
  have hsound := readDigits_sound bytes
  rwa [h] at hsound

theorem readFraction_sound {l : Literal} {bytes rest : Bytes}
    (h : readFraction bytes = some (l.fraction, rest)) :
    bytes = l.fractionText ++ rest ∧ l.fraction ≠ some [] := by
  rw [Literal.fractionText]
  unfold readFraction at h
  split at h
  · split at h
    · exact absurd h (by simp)
    · next digits rest' hne hread =>
      obtain ⟨hfraction, rfl⟩ := Prod.mk.inj (Option.some.inj h)
      rw [← hfraction, eq_append_of_readDigits hread]
      exact ⟨rfl, fun hnil => hne (Option.some.inj hnil)⟩
  · obtain ⟨hfraction, rfl⟩ := Prod.mk.inj (Option.some.inj h)
    rw [← hfraction]
    exact ⟨rfl, by simp⟩

/-- After its letter an exponent has at least one digit, and a sign or none. -/
theorem readExponentDigits_sound {bytes rest : Bytes} {e : Exponent}
    (h : readExponentDigits bytes = some (e, rest)) {letter : UInt8}
    (hletter : letter = 0x65 ∨ letter = 0x45) :
    ∃ power, Exponent.Text (some e) (letter :: power) ∧ bytes = power ++ rest ∧
      e.digits ≠ [] := by
  unfold readExponentDigits at h
  split at h
  next negative unsigned hsign =>
  split at h
  · exact absurd h (by simp)
  next digits rest' hne hread =>
  obtain ⟨rfl, rfl⟩ := Prod.mk.inj (Option.some.inj h)
  have hdigits := eq_append_of_readDigits hread
  split at hsign
  · obtain ⟨rfl, rfl⟩ := Prod.mk.inj hsign
    exact ⟨_, .signed ⟨false, digits⟩ hletter, by rw [hdigits]; rfl, hne⟩
  · obtain ⟨rfl, rfl⟩ := Prod.mk.inj hsign
    exact ⟨_, .signed ⟨true, digits⟩ hletter, by rw [hdigits]; rfl, hne⟩
  · obtain ⟨rfl, rfl⟩ := Prod.mk.inj hsign
    exact ⟨_, .unsigned digits hletter, hdigits, hne⟩

theorem readExponent_sound {bytes rest : Bytes} {e : Option Exponent}
    (h : readExponent bytes = some (e, rest)) :
    ∃ power, Exponent.Text e power ∧ bytes = power ++ rest ∧
      ∀ e', e = some e' → e'.digits ≠ [] := by
  have hletter : ∀ {letter : UInt8} {more : Bytes}, letter = 0x65 ∨ letter = 0x45 →
      (readExponentDigits more).map (fun x => (some x.1, x.2)) = some (e, rest) →
      ∃ power, Exponent.Text e power ∧ letter :: more = power ++ rest ∧
        ∀ e', e = some e' → e'.digits ≠ [] := by
    intro letter more hletter h
    obtain ⟨⟨e', rest'⟩, hread, heq⟩ := Option.map_eq_some_iff.1 h
    obtain ⟨rfl, rfl⟩ := Prod.mk.inj heq
    obtain ⟨power, htext, rfl, hne⟩ := readExponentDigits_sound hread hletter
    exact ⟨_, htext, rfl, fun _ heq => Option.some.inj heq ▸ hne⟩
  unfold readExponent at h
  split at h
  · exact hletter (.inl rfl) h
  · exact hletter (.inr rfl) h
  · obtain ⟨rfl, rfl⟩ := Prod.mk.inj (Option.some.inj h)
    exact ⟨[], .absent, rfl, fun _ h => absurd h (by simp)⟩

/-- What is read as a literal is a text of it. -/
theorem readNumber_sound {bytes rest : Bytes} {l : Literal}
    (h : readNumber bytes = some (l, rest)) : ∃ text, l.Text text ∧ bytes = text ++ rest := by
  unfold readNumber at h
  split at h
  next negative unsigned hsign =>
  have hminus : bytes = (if negative then [0x2D] else []) ++ unsigned := by
    split at hsign
    · obtain ⟨rfl, rfl⟩ := Prod.mk.inj hsign
      rfl
    · obtain ⟨rfl, rfl⟩ := Prod.mk.inj hsign
      rfl
  split at h
  · exact absurd h (by simp)
  next first more behind hread =>
  split at h
  · exact absurd h (by simp)
  next hzero =>
  have hleading : Digit.Leading (first :: more) :=
    ⟨first, more, rfl, fun hfirst => by simpa [hfirst] using hzero⟩
  simp only [Option.bind_eq_bind, Option.bind_some] at h
  obtain ⟨⟨fraction, behind'⟩, hfraction, h⟩ := Option.bind_eq_some_iff.1 h
  obtain ⟨⟨exponent, last⟩, hexponent, h⟩ := Option.bind_eq_some_iff.1 h
  obtain ⟨rfl, rfl⟩ := Prod.mk.inj (Option.some.inj h)
  obtain ⟨hpoint, hfractionNe⟩ :=
    readFraction_sound (l := ⟨negative, first :: more, fraction, exponent⟩) hfraction
  obtain ⟨power, hpower, rfl, hexponentNe⟩ := readExponent_sound hexponent
  refine ⟨_, ⟨⟨hleading, hfractionNe, hexponentNe⟩, power, hpower, rfl⟩, ?_⟩
  rw [hminus, eq_append_of_readDigits hread, hpoint]
  simp only [List.append_assoc]

end Raw

/-! ## The literals that are written -/

namespace Json

theorem wellFormed_integerLiteral (n : ℤ) : (integerLiteral n).WellFormed where
  whole := Digit.leading_ofNat _
  fraction h := absurd h (by simp [integerLiteral])
  exponent _ h := absurd h (by simp [integerLiteral])

theorem integer?_integerLiteral (n : ℤ) : (integerLiteral n).integer? = some n := by
  simp only [integerLiteral, Literal.integer?, Digit.value_ofNat, decide_eq_true_eq]
  split <;> congr 1 <;> omega

/-- The literal of an integer in range is that integer. -/
theorem ofLiteral?_integerLiteral {n : ℤ} (hleast : leastInteger ≤ n)
    (hgreatest : n ≤ greatestInteger) : ofLiteral? (integerLiteral n) = some (.integer n) := by
  have hzero : ¬(n = 0 ∧ (integerLiteral n).negative = true) := by
    simp only [integerLiteral, decide_eq_true_eq]
    omega
  simp only [ofLiteral?, integer?_integerLiteral]
  exact if_pos ⟨hleast, hgreatest, hzero⟩

/-- The literal of a finite number is that number. -/
theorem ofLiteral?_literal {x : Binary64} (hx : x.isFinite = true) :
    ofLiteral? x.literal = some (.float x) := by
  simp only [ofLiteral?, Binary64.integer?_literal, Binary64.toFloat?_literal hx, Option.map_some]

end Json

end HostBridge
