import HostBridge.Json.Reader

/-!
# String literals as text

The pieces in which a text is spelled stand for the text (`Piece.text?_spell`).
The digits of a unit may be small or capital letters; apart from that a row of
pieces has one text (`Piece.Row`).

* `Raw.readPieces_row`: pieces are read from each of their texts, up to the
  closing quote;
* `Raw.readPieces_sound`: what is read as pieces is a text of them.

What is written for pieces that keep to the grammar is one of their texts
(`Piece.row_render`), and the pieces of a text do: a character that is not
escaped has no byte below 0x20, no quote and no backslash among the bytes of its
encoding (`Piece.wellFormed_spell`).
-/

namespace HostBridge

namespace Utf8

/-- The bytes of a text are those of its characters. -/
theorem encode_eq_flatMap (text : String) :
    encode text = text.toList.flatMap String.utf8EncodeChar := by
  rw [encode, ← String.utf8Encode_toList, List.utf8Encode]
  simp

/-- A character above U+007F has only bytes above 0x7F. -/
theorem le_of_mem_utf8EncodeChar {c : Char} (h : 0x80 ≤ c.toNat) {byte : UInt8}
    (hbyte : byte ∈ String.utf8EncodeChar c) : 0x80 ≤ byte.toNat := by
  have hc : c.val.toNat = c.toNat := rfl
  simp only [String.utf8EncodeChar, hc] at hbyte
  rw [if_neg (by omega)] at hbyte
  split at hbyte
  · simp only [List.mem_cons, List.not_mem_nil, or_false] at hbyte
    rcases hbyte with rfl | rfl <;> simp only [UInt8.toNat_ofNat'] <;> omega
  · split at hbyte
    · simp only [List.mem_cons, List.not_mem_nil, or_false] at hbyte
      rcases hbyte with rfl | rfl | rfl <;> simp only [UInt8.toNat_ofNat'] <;> omega
    · simp only [List.mem_cons, List.not_mem_nil, or_false] at hbyte
      rcases hbyte with rfl | rfl | rfl | rfl <;> simp only [UInt8.toNat_ofNat'] <;> omega

/-- A character up to U+007F is one byte. -/
theorem utf8EncodeChar_of_lt {c : Char} (h : c.toNat < 0x80) :
    String.utf8EncodeChar c = [UInt8.ofNat c.toNat] := by
  have hc : c.val.toNat = c.toNat := rfl
  rw [String.utf8EncodeChar]
  exact if_pos (by omega)

end Utf8

namespace Piece

/-! ## The text of the pieces -/

theorem bytes?_plain (bytes : Bytes) (rest : List Piece) :
    bytes? (bytes.map .plain ++ rest) = (bytes? rest).map (bytes ++ ·) := by
  induction bytes with
  | nil => simp
  | cons byte more ih =>
    rw [List.map_cons, List.cons_append, bytes?, ih, Option.map_map]
    rfl

/-- A short escape stands for the one byte of its character. -/
theorem utf8EncodeChar_of_ofChar? {c : Char} {escape : Escape}
    (h : Escape.ofChar? c = some escape) : String.utf8EncodeChar c = [escape.byte] := by
  unfold Escape.ofChar? at h
  split at h <;> first
    | exact Option.some.inj h ▸ rfl
    | exact absurd h (by simp)

/-- The pieces of a character stand for its bytes. -/
theorem bytes?_spellChar (c : Char) (rest : List Piece) :
    bytes? (spellChar c ++ rest) = (bytes? rest).map (String.utf8EncodeChar c ++ ·) := by
  rw [spellChar]
  split
  · next escape h =>
    rw [utf8EncodeChar_of_ofChar? h, List.singleton_append, bytes?]
    rfl
  · split
    · next hlt =>
      -- a unit below 0x20 is no surrogate
      have hcode : (UInt16.ofNat c.toNat).toNat = c.toNat := by
        rw [UInt16.toNat_ofNat']
        omega
      have hhigh : isHigh (UInt16.ofNat c.toNat) = false := by
        simp only [isHigh, Bool.and_eq_false_imp, decide_eq_true_eq, UInt16.le_iff_toNat_le, hcode]
        intro h
        exact absurd h (by simp; omega)
      have hlow : isLow (UInt16.ofNat c.toNat) = false := by
        simp only [isLow, Bool.and_eq_false_imp, decide_eq_true_eq, UInt16.le_iff_toNat_le, hcode]
        intro h
        exact absurd h (by simp; omega)
      rw [List.singleton_append, bytes?.eq_def (.unit _ :: rest)]
      simp only [hhigh, hlow, Bool.false_eq_true, if_false, hcode, Char.ofNat_toNat]
    · exact bytes?_plain _ rest

theorem bytes?_flatMap_spellChar (chars : List Char) :
    bytes? (chars.flatMap spellChar) = some (chars.flatMap String.utf8EncodeChar) := by
  induction chars with
  | nil => rfl
  | cons c rest ih =>
    rw [List.flatMap_cons, bytes?_spellChar, ih, List.flatMap_cons]
    rfl

/-- The pieces in which a text is spelled stand for it. -/
@[simp] theorem text?_spell (text : String) : text? (spell text) = some text := by
  rw [text?, spell, bytes?_flatMap_spellChar, ← Utf8.encode_eq_flatMap]
  exact Utf8.decode?_encode text

/-! ## What is written for the pieces -/

/-- The piece can stand in a string literal: a byte that stands for itself is no
    control character, no quote and no backslash. -/
def WellFormed : Piece → Prop
  | .plain byte => ¬byte < 0x20 ∧ byte ≠ 0x22 ∧ byte ≠ 0x5C
  | _ => True

theorem hexValue?_hexByte {n : Nat} (h : n < 16) : hexValue? (hexByte n) = some n := by
  have hall : ∀ n : Fin 16, hexValue? (hexByte n.val) = some n.val := by decide
  exact hall ⟨n, h⟩

/-- A unit is the one that its four digits spell. -/
theorem unit?_hexByte (code : UInt16) :
    unit? (hexByte (code.toNat / 4096)) (hexByte (code.toNat / 256 % 16))
      (hexByte (code.toNat / 16 % 16)) (hexByte (code.toNat % 16)) = some code := by
  have hlt : code.toNat < 65536 := code.toNat_lt
  have hdigits : ((code.toNat / 4096 * 16 + code.toNat / 256 % 16) * 16 +
      code.toNat / 16 % 16) * 16 + code.toNat % 16 = code.toNat := by omega
  rw [unit?, hexValue?_hexByte (by omega), hexValue?_hexByte (Nat.mod_lt _ (by decide)),
    hexValue?_hexByte (Nat.mod_lt _ (by decide)), hexValue?_hexByte (Nat.mod_lt _ (by decide))]
  simp only [Option.bind_eq_bind, Option.bind_some, hdigits, UInt16.ofNat_toNat]
  rfl

theorem ofLetter?_letter (escape : Escape) : Escape.ofLetter? escape.letter = some escape := by
  cases escape <;> rfl

/-- A byte of a character that is not ASCII stands for itself. -/
theorem wellFormed_plain_of_le {byte : UInt8} (h : 0x80 ≤ byte.toNat) :
    (plain byte).WellFormed := by
  refine ⟨?_, ?_, ?_⟩
  · rw [UInt8.lt_iff_toNat_lt]
    exact Nat.not_lt_of_le (Nat.le_trans (by decide) h)
  · rintro rfl
    exact absurd h (by decide)
  · rintro rfl
    exact absurd h (by decide)

/-- An ASCII character that is neither escaped nor a control character stands
    for itself. -/
theorem wellFormed_plain_of_lt {c : Char} (hescape : Escape.ofChar? c = none)
    (hcontrol : ¬c.toNat < 0x20) {byte : UInt8} (h : byte.toNat = c.toNat) :
    (plain byte).WellFormed := by
  -- a quote or a backslash would have been escaped
  have hne : ∀ special : Char, Escape.ofChar? special ≠ none → byte.toNat ≠ special.toNat :=
    fun special hspecial heq => hspecial (Char.toNat_inj.1 (h.symm.trans heq) ▸ hescape)
  refine ⟨?_, ?_, ?_⟩
  · rw [UInt8.lt_iff_toNat_lt, h]
    exact hcontrol
  · rintro rfl
    exact hne '"' (by decide) rfl
  · rintro rfl
    exact hne '\\' (by decide) rfl

/-- The pieces of a text can stand in a string literal. -/
theorem wellFormed_spell (text : String) : ∀ piece ∈ spell text, piece.WellFormed := by
  intro piece hpiece
  obtain ⟨c, _, hpiece⟩ := List.mem_flatMap.1 hpiece
  rw [spellChar] at hpiece
  split at hpiece
  · rw [List.mem_singleton] at hpiece
    exact hpiece ▸ trivial
  · next hescape =>
    split at hpiece
    · rw [List.mem_singleton] at hpiece
      exact hpiece ▸ trivial
    · next hcontrol =>
      obtain ⟨byte, hbyte, rfl⟩ := List.mem_map.1 hpiece
      by_cases hc : c.toNat < 0x80
      · rw [Utf8.utf8EncodeChar_of_lt hc, List.mem_singleton] at hbyte
        refine wellFormed_plain_of_lt hescape hcontrol ?_
        rw [hbyte, UInt8.toNat_ofNat']
        omega
      · exact wellFormed_plain_of_le (Utf8.le_of_mem_utf8EncodeChar (Nat.le_of_not_lt hc) hbyte)

/-! ## The texts of pieces -/

/-- The bytes are a text of the piece. -/
inductive Text : Piece → Bytes → Prop
  | plain {byte : UInt8} (h : (Piece.plain byte).WellFormed) : Text (.plain byte) [byte]
  | short (escape : Escape) : Text (.short escape) [0x5C, escape.letter]
  | unit {a b c d : UInt8} {code : UInt16} (h : unit? a b c d = some code) :
      Text (.unit code) [0x5C, 0x75, a, b, c, d]

/-- The bytes are texts of the pieces, one after the other. -/
inductive Row : List Piece → Bytes → Prop
  | nil : Row [] []
  | cons {piece : Piece} {pieces : List Piece} {text more : Bytes} (h : piece.Text text)
      (hmore : Row pieces more) : Row (piece :: pieces) (text ++ more)

theorem text_render {piece : Piece} (h : piece.WellFormed) : piece.Text piece.render := by
  cases piece with
  | plain byte => exact .plain h
  | short escape => exact .short escape
  | unit code => exact .unit (unit?_hexByte code)

/-- What is written for pieces is one of their texts. -/
theorem row_render {pieces : List Piece} (h : ∀ piece ∈ pieces, piece.WellFormed) :
    Row pieces (pieces.flatMap render) := by
  induction pieces with
  | nil => exact .nil
  | cons piece more ih =>
    obtain ⟨hpiece, hmore⟩ := List.forall_mem_cons.1 h
    exact .cons (text_render hpiece) (ih hmore)

theorem letter_of_ofLetter? {letter : UInt8} {escape : Escape}
    (h : Escape.ofLetter? letter = some escape) : escape.letter = letter := by
  simpa using List.find?_some h

end Piece

namespace Raw

theorem readPieces_cons_text {piece : Piece} {text : Bytes} (h : piece.Text text) (rest : Bytes) :
    readPieces (text ++ rest) =
      (readPieces rest).map fun (pieces, rest) => (piece :: pieces, rest) := by
  cases h with
  | @plain byte h =>
    obtain ⟨hcontrol, hquote, hbackslash⟩ := h
    rw [List.singleton_append]
    rw [readPieces, if_neg fun h => h.elim hcontrol hbackslash]
    · cases readPieces rest <;> rfl
    · exact hquote
    · exact fun _ _ _ _ _ h _ => hbackslash h
    · exact fun _ _ h _ => hbackslash h
  | short escape =>
    have hread : readPieces (0x5C :: escape.letter :: rest) = (do
        let escape ← Escape.ofLetter? escape.letter
        let (pieces, rest) ← readPieces rest
        return (.short escape :: pieces, rest)) := by
      cases escape <;> rfl
    rw [List.cons_append, List.singleton_append, hread, Piece.ofLetter?_letter]
    cases readPieces rest <;> rfl
  | unit hcode =>
    simp only [List.cons_append, List.nil_append]
    rw [readPieces, hcode]
    cases readPieces rest <;> rfl

/-- Pieces are read from each of their texts. -/
theorem readPieces_row {pieces : List Piece} {text : Bytes} (h : Piece.Row pieces text)
    (rest : Bytes) : readPieces (text ++ 0x22 :: rest) = some (pieces, rest) := by
  induction h with
  | nil => rw [List.nil_append, readPieces]
  | cons hpiece _ ih =>
    rw [List.append_assoc, readPieces_cons_text hpiece, ih]
    rfl

/-- A text of one more piece, in front of what is read as pieces. -/
theorem readPieces_cons_sound {piece : Piece} {text more rest : Bytes} {pieces : List Piece}
    (htext : piece.Text text)
    (hmore : ∀ {pieces rest}, readPieces more = some (pieces, rest) →
      ∃ text, Piece.Row pieces text ∧ more = text ++ 0x22 :: rest)
    (h : (do
      let (pieces, rest) ← readPieces more
      return (piece :: pieces, rest)) = some (pieces, rest)) :
    ∃ whole, Piece.Row pieces whole ∧ text ++ more = whole ++ 0x22 :: rest := by
  obtain ⟨⟨pieces', rest'⟩, hread, h⟩ := Option.bind_eq_some_iff.1 h
  obtain ⟨rfl, rfl⟩ := Prod.mk.inj (Option.some.inj h)
  obtain ⟨text', hrow, rfl⟩ := hmore hread
  exact ⟨text ++ text', .cons htext hrow, (List.append_assoc _ _ _).symm⟩

/-- What is read as pieces is a text of them, and the closing quote after it. -/
theorem readPieces_sound {bytes rest : Bytes} {pieces : List Piece}
    (h : readPieces bytes = some (pieces, rest)) :
    ∃ text, Piece.Row pieces text ∧ bytes = text ++ 0x22 :: rest := by
  fun_induction readPieces bytes generalizing pieces rest with
  | case1 => exact absurd h (by simp)
  | case2 rest' =>
    obtain ⟨rfl, rfl⟩ := Prod.mk.inj (Option.some.inj h)
    exact ⟨[], .nil, rfl⟩
  | case3 a b c d more ih =>
    obtain ⟨code, hcode, h⟩ := Option.bind_eq_some_iff.1 h
    exact readPieces_cons_sound (.unit hcode) ih h
  | case4 letter more _ ih =>
    obtain ⟨escape, hescape, h⟩ := Option.bind_eq_some_iff.1 h
    rw [← Piece.letter_of_ofLetter? hescape]
    exact readPieces_cons_sound (.short escape) ih h
  | case5 => exact absurd h (by simp)
  | case6 byte more hquote _ _ hplain ih =>
    refine readPieces_cons_sound (.plain ⟨fun hlt => ?_, hquote, fun heq => ?_⟩) ih h
    · exact hplain (.inl hlt)
    · exact hplain (.inr heq)

end Raw

end HostBridge
