import HostBridge.Platform.Clipboard
import Mathlib.Data.List.Forall2

/-!
# Types that match

A type is cut in two at its first slash, and two types match if their parts do. A part
matches another if one of them is a star, or if they differ in the case of ASCII letters
at most.

* `Mime.IsSplit`, `Mime.SameLetters` and `Mime.PartsMatch` say this of texts, and
  `Mime.matchesType_iff` that types match accordingly.
* `Mime.IsSplit.of_sameLetters`, `Mime.PartsMatch.of_sameLetters`: the case of letters
  decides neither where a text is cut nor whether parts match.
* `Mime.matchesType_anyText_iff`: the types of text.
* `Mime.types_match_by_parts`: what follows for types and for lists of them.
-/

namespace HostBridge

namespace Mime

/-! ## The case of letters -/

/-- The characters are the same, or the same ASCII letter in two cases. -/
inductive SameLetter : Char → Char → Prop
  | refl (c : Char) : SameLetter c c
  | small {c d : Char} (capital : 'A' ≤ c ∧ c ≤ 'Z') (h : d.toNat = c.toNat + 32) : SameLetter c d
  | capital {c d : Char} (capital : 'A' ≤ d ∧ d ≤ 'Z') (h : c.toNat = d.toNat + 32) :
      SameLetter c d

/-- The texts differ in the case of ASCII letters at most. -/
def SameLetters (a b : String) : Prop := List.Forall₂ SameLetter a.toList b.toList

theorem isCapital_iff (c : Char) : ('A' ≤ c ∧ c ≤ 'Z') ↔ 65 ≤ c.toNat ∧ c.toNat ≤ 90 := Iff.rfl

/-- The small letter stands thirty-two places after the capital. -/
theorem toNat_toLower (c : Char) :
    c.toLower.toNat = if 65 ≤ c.toNat ∧ c.toNat ≤ 90 then c.toNat + 32 else c.toNat := by
  by_cases h : 65 ≤ c.toNat ∧ c.toNat ≤ 90
  · have hlower : c.toLower.val = c.val + 32 := congrArg Char.val (dif_pos h)
    have hle : c.val.toNat ≤ 90 := h.2
    rw [if_pos h]
    show c.toLower.val.toNat = c.val.toNat + 32
    rw [hlower, UInt32.toNat_add]
    simp
    omega
  · have hlower : c.toLower = c := dif_neg h
    rw [if_neg h, hlower]

theorem toLower_eq_toLower_iff {c d : Char} : c.toLower = d.toLower ↔ SameLetter c d := by
  rw [← Char.toNat_inj, toNat_toLower, toNat_toLower]
  constructor
  · intro h
    by_cases hc : 65 ≤ c.toNat ∧ c.toNat ≤ 90
    · by_cases hd : 65 ≤ d.toNat ∧ d.toNat ≤ 90
      · rw [if_pos hc, if_pos hd] at h
        rw [Char.toNat_inj.1 (Nat.add_right_cancel h)]
        exact .refl d
      · rw [if_pos hc, if_neg hd] at h
        exact .small hc h.symm
    · by_cases hd : 65 ≤ d.toNat ∧ d.toNat ≤ 90
      · rw [if_neg hc, if_pos hd] at h
        exact .capital hd h
      · rw [if_neg hc, if_neg hd] at h
        rw [Char.toNat_inj.1 h]
        exact .refl d
  · intro h
    -- of a letter in two cases only one is a capital
    cases h with
    | refl => rfl
    | small hc hd =>
      rw [isCapital_iff] at hc
      rw [if_pos hc, if_neg (by omega), hd]
    | capital hd hc =>
      rw [isCapital_iff] at hd
      rw [if_neg (by omega), if_pos hd, hc]

/-- A character that is no letter is not touched, and no letter becomes one. -/
theorem toLower_eq_iff {c d : Char} (h : d.toNat < 65) : c.toLower = d ↔ c = d := by
  rw [← Char.toNat_inj, toNat_toLower, ← Char.toNat_inj]
  split <;> omega

theorem forall₂_sameLetter_iff {a b : List Char} :
    List.Forall₂ SameLetter a b ↔ a.map Char.toLower = b.map Char.toLower := by
  rw [← List.forall₂_eq_eq_eq, List.forall₂_map_left_iff, List.forall₂_map_right_iff]
  simp only [toLower_eq_toLower_iff]

theorem sameLetters_iff {a b : String} :
    SameLetters a b ↔ a.toList.map Char.toLower = b.toList.map Char.toLower :=
  forall₂_sameLetter_iff

theorem SameLetters.refl (a : String) : SameLetters a a := sameLetters_iff.2 rfl

theorem SameLetters.symm {a b : String} (h : SameLetters a b) : SameLetters b a :=
  sameLetters_iff.2 (sameLetters_iff.1 h).symm

theorem SameLetters.trans {a b c : String} (h : SameLetters a b) (h' : SameLetters b c) :
    SameLetters a c :=
  sameLetters_iff.2 ((sameLetters_iff.1 h).trans (sameLetters_iff.1 h'))

/-- The star has no letters. -/
theorem SameLetters.eq_star {a : String} (h : SameLetters a "*") : a = "*" := by
  obtain ⟨c, rest, ha, hc, hrest⟩ := List.map_eq_cons_iff.1 (sameLetters_iff.1 h)
  obtain rfl := List.map_eq_nil_iff.1 hrest
  obtain rfl := (toLower_eq_iff (by decide)).1 hc
  exact String.ext ha

/-! ## The first slash -/

/-- The text has a slash, with `first` before the first one and `second` after it. -/
def IsSplit (text first second : String) : Prop :=
  text = first ++ "/" ++ second ∧ '/' ∉ first.toList

/-- A text is cut in two if and only if it has a slash. -/
theorem exists_isSplit_iff {text : String} :
    (∃ first second, IsSplit text first second) ↔ '/' ∈ text.toList := by
  constructor
  · rintro ⟨first, second, rfl, -⟩
    simp
  · intro h
    obtain ⟨first, second, htext, hfirst⟩ := List.eq_append_cons_of_mem h
    refine ⟨String.ofList first, String.ofList second, String.ext ?_, by simpa using hfirst⟩
    simpa using htext

theorem split?_append {first : List Char} (h : '/' ∉ first) (second : List Char) :
    split? (first ++ '/' :: second) = some (first, second) := by
  induction first with
  | nil => rfl
  | cons c first ih =>
    obtain ⟨hc, hfirst⟩ := not_or.1 (List.mem_cons.not.1 h)
    rw [List.cons_append, split?, if_neg (Ne.symm hc), ih hfirst]
    rfl

theorem split?_of_not_mem {text : List Char} (h : '/' ∉ text) : split? text = none := by
  induction text with
  | nil => rfl
  | cons c text ih =>
    obtain ⟨hc, htext⟩ := not_or.1 (List.mem_cons.not.1 h)
    rw [split?, if_neg (Ne.symm hc), ih htext]
    rfl

theorem IsSplit.toList_eq {text first second : String} (h : IsSplit text first second) :
    text.toList = first.toList ++ '/' :: second.toList := by
  rw [h.1]
  simp

theorem IsSplit.split?_eq {text first second : String} (h : IsSplit text first second) :
    split? text.toList = some (first.toList, second.toList) := by
  rw [h.toList_eq, split?_append h.2]

/-- In another case of its letters a text is cut at the same place. -/
theorem IsSplit.of_sameLetters {a a' first second : String} (h : IsSplit a first second)
    (hsame : SameLetters a a') :
    ∃ first' second', IsSplit a' first' second' ∧ SameLetters first first' ∧
      SameLetters second second' := by
  rw [sameLetters_iff, h.toList_eq, List.map_append, List.map_cons] at hsame
  obtain ⟨x, rest, ha', hx, hrest⟩ := List.map_eq_append_iff.1 hsame.symm
  obtain ⟨c, y, rfl, hc, hy⟩ := List.map_eq_cons_iff.1 hrest
  obtain rfl := (toLower_eq_iff (by decide)).1 hc
  refine ⟨String.ofList x, String.ofList y, ⟨String.ext (by simpa using ha'), fun hmem => h.2 ?_⟩,
    sameLetters_iff.2 (by simpa using hx.symm), sameLetters_iff.2 (by simpa using hy.symm)⟩
  -- a slash in the one would stand in the other as well
  have hslash : '/' ∈ first.toList.map Char.toLower := by
    rw [← hx]
    exact List.mem_map.2 ⟨'/', by simpa using hmem, rfl⟩
  obtain ⟨d, hd, hlower⟩ := List.mem_map.1 hslash
  exact (toLower_eq_iff (by decide)).1 hlower ▸ hd

/-! ## Parts and types -/

/-- One of the parts is a star, or they differ in the case of ASCII letters at most. -/
def PartsMatch (x y : String) : Prop := x = "*" ∨ y = "*" ∨ SameLetters x y

theorem matchesPart_iff {x y : String} : matchesPart x.toList y.toList = true ↔ PartsMatch x y := by
  have hstar : ∀ z : String, z.toList = ['*'] ↔ z = "*" :=
    fun z => ⟨fun h => String.ext h, fun h => h ▸ rfl⟩
  simp only [matchesPart, PartsMatch, sameLetters_iff, Bool.or_eq_true, beq_iff_eq, hstar,
    or_assoc]

theorem PartsMatch.symm {x y : String} (h : PartsMatch x y) : PartsMatch y x := by
  rcases h with h | h | h
  · exact .inr (.inl h)
  · exact .inl h
  · exact .inr (.inr h.symm)

/-- The case of letters does not decide whether parts match. -/
theorem PartsMatch.of_sameLetters {x x' y : String} (h : PartsMatch x y)
    (hsame : SameLetters x x') : PartsMatch x' y := by
  rcases h with rfl | h | h
  · exact .inl hsame.symm.eq_star
  · exact .inr (.inl h)
  · exact .inr (.inr (hsame.symm.trans h))

variable {a a' b b' : String}

/-- Only texts with a slash match. -/
theorem mem_of_matchesType (h : matchesType a b = true) : '/' ∈ a.toList ∧ '/' ∈ b.toList := by
  rw [matchesType] at h
  by_contra hno
  rcases not_and_or.1 hno with ha | hb
  · rw [split?_of_not_mem ha] at h
    exact absurd h (by simp)
  · rw [split?_of_not_mem hb] at h
    cases hsplit : split? a.toList <;> exact absurd h (by simp [hsplit])

/-- Types match if both can be cut in two, and their parts match. -/
theorem matchesType_iff : matchesType a b = true ↔
    ∃ a₁ a₂ b₁ b₂, IsSplit a a₁ a₂ ∧ IsSplit b b₁ b₂ ∧ PartsMatch a₁ b₁ ∧ PartsMatch a₂ b₂ := by
  have hparts : ∀ {a₁ a₂ b₁ b₂ : String}, IsSplit a a₁ a₂ → IsSplit b b₁ b₂ →
      (matchesType a b = true ↔ PartsMatch a₁ b₁ ∧ PartsMatch a₂ b₂) := by
    intro a₁ a₂ b₁ b₂ ha hb
    rw [matchesType, ha.split?_eq, hb.split?_eq, ← matchesPart_iff, ← matchesPart_iff]
    exact Bool.and_eq_true_iff
  constructor
  · intro h
    obtain ⟨ha, hb⟩ := mem_of_matchesType h
    obtain ⟨a₁, a₂, ha⟩ := exists_isSplit_iff.2 ha
    obtain ⟨b₁, b₂, hb⟩ := exists_isSplit_iff.2 hb
    exact ⟨a₁, a₂, b₁, b₂, ha, hb, (hparts ha hb).1 h⟩
  · rintro ⟨a₁, a₂, b₁, b₂, ha, hb, hmatch⟩
    exact (hparts ha hb).2 hmatch

theorem matchesType_symm (h : matchesType a b = true) : matchesType b a = true := by
  obtain ⟨a₁, a₂, b₁, b₂, ha, hb, h₁, h₂⟩ := matchesType_iff.1 h
  exact matchesType_iff.2 ⟨b₁, b₂, a₁, a₂, hb, ha, h₁.symm, h₂.symm⟩

theorem matchesType_comm (a b : String) : matchesType a b = matchesType b a :=
  Bool.eq_iff_iff.2 ⟨matchesType_symm, matchesType_symm⟩

theorem matchesType_of_sameLetters (hsame : SameLetters a a') (h : matchesType a b = true) :
    matchesType a' b = true := by
  obtain ⟨a₁, a₂, b₁, b₂, ha, hb, h₁, h₂⟩ := matchesType_iff.1 h
  obtain ⟨x, y, ha', hx, hy⟩ := ha.of_sameLetters hsame
  exact matchesType_iff.2 ⟨x, y, b₁, b₂, ha', hb, h₁.of_sameLetters hx, h₂.of_sameLetters hy⟩

/-- The case of letters does not decide whether types match. -/
theorem matchesType_congr (ha : SameLetters a a') (hb : SameLetters b b') :
    matchesType a b = matchesType a' b' := by
  have hleft : ∀ {x x' : String} (y : String), SameLetters x x' →
      matchesType x y = matchesType x' y := fun y h =>
    Bool.eq_iff_iff.2 ⟨matchesType_of_sameLetters h, matchesType_of_sameLetters h.symm⟩
  rw [hleft b ha, matchesType_comm, hleft a' hb, matchesType_comm]

theorem matchesType_of_mem (h : '/' ∈ a.toList) :
    matchesType a a = true ∧ matchesType a "*/*" = true := by
  obtain ⟨first, second, ha⟩ := exists_isSplit_iff.2 h
  have hstars : IsSplit "*/*" "*" "*" := ⟨rfl, by decide⟩
  exact ⟨matchesType_iff.2 ⟨first, second, first, second, ha, ha, .inr (.inr (.refl first)),
      .inr (.inr (.refl second))⟩,
    matchesType_iff.2 ⟨first, second, "*", "*", ha, hstars, .inr (.inl rfl), .inr (.inl rfl)⟩⟩

theorem matchesType_of_not_mem (h : '/' ∉ a.toList) (b : String) : matchesType a b = false :=
  Bool.eq_false_iff.2 fun hmatch => h (mem_of_matchesType hmatch).1

/-- A type of text is one with a star or the word before its first slash. -/
theorem matchesType_anyText_iff : matchesType a anyText = true ↔
    ∃ first second, IsSplit a first second ∧ (first = "*" ∨ SameLetters first "text") := by
  have htext : IsSplit anyText "text" "*" := ⟨rfl, by decide⟩
  rw [matchesType_iff]
  constructor
  · rintro ⟨first, second, b₁, b₂, ha, hb, hmatch, -⟩
    obtain ⟨hb₁, -⟩ := Prod.mk.inj (Option.some.inj (hb.split?_eq.symm.trans htext.split?_eq))
    obtain rfl : b₁ = "text" := String.ext hb₁
    exact ⟨first, second, ha, hmatch.imp_right fun h => h.resolve_left (by decide)⟩
  · rintro ⟨first, second, ha, hfirst⟩
    exact ⟨first, second, "text", "*", ha, htext, hfirst.imp_right .inr, .inr (.inl rfl)⟩

/-! ## Lists of types -/

variable {types types' : List String} {query : String}

theorem hasType_iff : Clip.hasType types query = true ↔ ∃ t ∈ types, matchesType t query = true :=
  List.any_eq_true

theorem hasType_of_subset (h : types ⊆ types') (htypes : Clip.hasType types query = true) :
    Clip.hasType types' query = true := by
  obtain ⟨t, ht, hmatch⟩ := hasType_iff.1 htypes
  exact hasType_iff.2 ⟨t, h ht, hmatch⟩

/-- Types match by their parts:

    * two types match if and only if both are cut in two at a first slash, and the parts
      before it match as well as those after it;
    * a text is cut if and only if it has a slash;
    * it does not matter which of the types comes first, nor in which case the letters of
      either are written;
    * a text with a slash matches itself and what has a star for each part, and a text
      without one matches nothing;
    * a list has a type if and only if one of its elements matches it, so neither their order
      nor their number matters, and more elements do no harm. -/
theorem types_match_by_parts :
    (∀ a b : String, matchesType a b = true ↔
      ∃ a₁ a₂ b₁ b₂, IsSplit a a₁ a₂ ∧ IsSplit b b₁ b₂ ∧ PartsMatch a₁ b₁ ∧ PartsMatch a₂ b₂) ∧
    (∀ text : String, (∃ first second, IsSplit text first second) ↔ '/' ∈ text.toList) ∧
    (∀ a b : String, matchesType a b = matchesType b a) ∧
    (∀ a a' b b' : String, SameLetters a a' → SameLetters b b' →
      matchesType a b = matchesType a' b') ∧
    (∀ a : String, '/' ∈ a.toList → matchesType a a = true ∧ matchesType a "*/*" = true) ∧
    (∀ a b : String, '/' ∉ a.toList → matchesType a b = false ∧ matchesType b a = false) ∧
    (∀ (types : List String) (query : String), Clip.hasType types query = true ↔
      ∃ t ∈ types, matchesType t query = true) ∧
    (∀ (types types' : List String) (query : String), (∀ t, t ∈ types ↔ t ∈ types') →
      Clip.hasType types query = Clip.hasType types' query) ∧
    ∀ (types types' : List String) (query : String), types ⊆ types' →
      Clip.hasType types query = true → Clip.hasType types' query = true := by
  refine ⟨fun a b => matchesType_iff, fun text => exists_isSplit_iff, matchesType_comm,
    fun a a' b b' => matchesType_congr, fun a => matchesType_of_mem, fun a b h => ?_,
    fun types query => hasType_iff, fun types types' query h => ?_,
    fun types types' query => hasType_of_subset⟩
  · exact ⟨matchesType_of_not_mem h b, matchesType_comm b a ▸ matchesType_of_not_mem h b⟩
  · exact Bool.eq_iff_iff.2 ⟨hasType_of_subset fun t => (h t).1, hasType_of_subset fun t => (h t).2⟩

example : matchesType "TEXT/a/b" "text/*" = true ∧ matchesType "*/" "text/a" = false := by decide

end Mime

end HostBridge
