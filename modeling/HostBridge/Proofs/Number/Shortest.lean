import HostBridge.Number.Shortest
import HostBridge.Proofs.Number.Digits
import HostBridge.Proofs.Number.Rounding

/-!
# The shortest literal reads back

A candidate of the search for the shortest literal is taken only if it reads
back as the number, and all digits of a number, which are taken when no
candidate does, stand for the number exactly. So every finite number is the
number that its literal stands for (`Binary64.toFloat?_literal`). The literal
keeps to the grammar (`Binary64.wellFormed_literal`), and it is never taken for
an integer (`Binary64.integer?_literal`).
-/

namespace HostBridge

namespace Literal

/-- The literal is spelled as the grammar wants it. -/
structure WellFormed (l : Literal) : Prop where
  whole : Digit.Leading l.whole
  fraction : l.fraction ≠ some []
  exponent : ∀ e, l.exponent = some e → e.digits ≠ []

/-- A literal without value is a zero. -/
theorem toFloat?_of_value_eq_zero {l : Literal} (h : Digit.value l.digits = 0) :
    l.toFloat? = some (.zero l.negative) := by
  rw [toFloat?]
  exact if_pos h

/-- A literal without exponent is its digits over a power of ten. -/
theorem toFloat?_of_places {l : Literal} {places : ℕ} (hpower : l.power = 0)
    (hplaces : (l.fraction.getD []).length = places) (hpos : 0 < places)
    (hvalue : 0 < Digit.value l.digits) :
    l.toFloat? = Binary64.ofRatio? l.negative (Digit.value l.digits) (10 ^ places) := by
  -- the power is no outlier, and some digits stand behind the point
  rw [toFloat?, hpower, hplaces, if_neg (by omega), if_neg (by omega), if_neg (by omega),
    if_neg (by omega), show (-(0 - (places : ℤ))).toNat = places by omega, Nat.pow_eq]

end Literal

namespace Decimal

/-- The significant digits of a positive number start with a digit other than
    zero. -/
theorem exists_digits_ofScaled {n : ℕ} (h : 0 < n) (scale : ℤ) :
    ∃ first rest, (ofScaled n scale).digits = first :: rest ∧ first.val ≠ 0 := by
  obtain ⟨first, more, heq, hfirst⟩ := Digit.exists_ofNat_cons h
  have hstop : [first].dropWhile (·.val == 0) = [first] := by simp [hfirst]
  simp only [ofScaled, heq, List.reverse_cons, List.dropWhile_append, hstop]
  split
  · exact ⟨first, [], rfl, hfirst⟩
  · exact ⟨first, _, by rw [List.reverse_append]; rfl, hfirst⟩

theorem digits_ofScaled_zero (scale : ℤ) : (ofScaled 0 scale).digits = [] := rfl

/-- A literal without significant digits has no value. -/
theorem value_digits_toLiteral_nil {d : Decimal} (h : d.digits = []) (negative : Bool) :
    Digit.value (d.toLiteral negative).digits = 0 := by
  rw [toLiteral]
  split
  · split <;> simp [Literal.digits, Digit.value_append, Digit.value_cons, orZero, h]
  · simp [Literal.digits, orZero, h]

variable {d : Decimal} {first : Digit} {rest : List Digit}

theorem orZero_ne_nil (digits : List Digit) : orZero digits ≠ [] := by
  cases digits <;> simp [orZero]

/-- Significant digits make a literal of the grammar. -/
theorem wellFormed_toLiteral (h : d.digits = first :: rest) (hfirst : first.val ≠ 0)
    (negative : Bool) : (d.toLiteral negative).WellFormed := by
  have hlead : ∀ more, Digit.Leading (first :: more) :=
    fun more => ⟨first, more, rfl, fun hzero => absurd hzero hfirst⟩
  rw [toLiteral]
  split
  · split
    · refine ⟨?_, fun h => orZero_ne_nil _ (Option.some.inj h), fun e he => absurd he (by simp)⟩
      simp only [h, List.take_succ_cons, List.cons_append]
      exact hlead _
    · refine ⟨⟨_, [], rfl, fun _ => rfl⟩, ?_, fun e he => absurd he (by simp)⟩
      simp [h]
  · refine ⟨?_, ?_, fun e he => ?_⟩
    · simpa [h, orZero] using hlead []
    · cases rest <;> simp [h]
    · exact Option.some.inj he ▸ Digit.ofNat_ne_nil _

/-- The literal of a decimal number has a point or an exponent. -/
theorem integer?_toLiteral (d : Decimal) (negative : Bool) :
    (d.toLiteral negative).integer? = none := by
  rw [toLiteral]
  split
  · split <;> rfl
  · split <;> rfl

end Decimal

namespace Binary64

variable {x : Binary64}

theorem magnitude_pos {p r : ℕ} (h : 0 < r) : 0 < magnitude p r := by
  rw [magnitude]
  simp only [Nat.pow_eq]
  split
  · exact h
  · exact Nat.mul_pos (Nat.add_pos_left (Nat.two_pow_pos _) _) (Nat.two_pow_pos _)

theorem zero_eq_of_rank (h : x.rank = 0) : zero x.isNegative = x := by
  rw [zero, ← h, ofRank_rank]

theorem rank_zero (negative : Bool) : (zero negative).rank = 0 :=
  rank_ofRank negative (by decide)

/-! ## All digits -/

/-- All digits of a number in `places` decimal places. -/
theorem value_exact {n places : ℕ} (h : 0 < places) :
    Digit.value (Digit.ofNat (n / 10 ^ places) ++
      Digit.ofNatPadded places (n % 10 ^ places)) = n := by
  have hlt : n % 10 ^ places < 10 ^ places := Nat.mod_lt _ (Nat.pow_pos (by decide))
  rw [Digit.value_append, Digit.value_ofNat, Digit.value_ofNatPadded,
    Digit.length_ofNatPadded hlt h, Nat.div_add_mod']

theorem five_pow_mul_two_pow (places : ℕ) : 5 ^ places * 2 ^ places = 10 ^ places := by
  rw [← mul_pow]
  rfl

theorem unitPlaces_pos : 0 < unitPlaces := by decide

/-- The literal with all digits of a number, in terms of its units. -/
theorem exactLiteral_eq (x : Binary64) :
    x.exactLiteral = ⟨x.isNegative, Digit.ofNat (x.units * 5 ^ unitPlaces / 10 ^ unitPlaces),
      some (Digit.ofNatPadded unitPlaces (x.units * 5 ^ unitPlaces % 10 ^ unitPlaces)), none⟩ := by
  rw [exactLiteral]
  simp only [Nat.pow_eq]

theorem value_digits_exactLiteral (x : Binary64) :
    Digit.value x.exactLiteral.digits = x.units * 5 ^ unitPlaces := by
  rw [exactLiteral_eq, Literal.digits, Option.getD_some]
  generalize x.units * 5 ^ unitPlaces = n
  exact value_exact unitPlaces_pos

theorem length_fraction_exactLiteral (x : Binary64) :
    (x.exactLiteral.fraction.getD []).length = unitPlaces := by
  rw [exactLiteral_eq, Option.getD_some]
  generalize x.units * 5 ^ unitPlaces = n
  exact Digit.length_ofNatPadded (Nat.mod_lt _ (Nat.pow_pos (by decide))) unitPlaces_pos

theorem power_exactLiteral (x : Binary64) : x.exactLiteral.power = 0 := by
  rw [exactLiteral_eq, Literal.power, Option.map_none, Option.getD_none]

/-- All digits of a number read back as the number. -/
theorem toFloat?_exactLiteral (hx : x.isFinite = true) (hrank : x.rank ≠ 0) :
    x.exactLiteral.toFloat? = some x := by
  have hpos : 0 < x.units * 5 ^ unitPlaces :=
    Nat.mul_pos (magnitude_pos (Nat.pos_of_ne_zero hrank)) (Nat.pow_pos (by decide))
  have hneg : x.exactLiteral.negative = x.isNegative := by rw [exactLiteral_eq]
  rw [Literal.toFloat?_of_places (power_exactLiteral x) (length_fraction_exactLiteral x)
    unitPlaces_pos (by rwa [value_digits_exactLiteral]), value_digits_exactLiteral, hneg]
  refine ofRatio?_units hx (Nat.pow_pos (by decide)) ?_
  rw [Nat.mul_assoc, five_pow_mul_two_pow]

theorem wellFormed_exactLiteral (x : Binary64) : x.exactLiteral.WellFormed where
  whole := by
    rw [exactLiteral_eq]
    exact Digit.leading_ofNat _
  fraction h := by
    have hlen := length_fraction_exactLiteral x
    rw [h] at hlen
    exact absurd hlen (Nat.ne_of_lt unitPlaces_pos)
  exponent e he := by
    rw [exactLiteral_eq] at he
    exact absurd he (by simp)

/-! ## The literal that is written -/

/-- The literal of a zero. -/
theorem literal_of_rank (h : x.rank = 0) :
    x.literal = ⟨x.isNegative, [.zero], some [.zero], none⟩ :=
  if_pos h

/-- The literal of a number other than zero has all its digits, or it is the
    literal of a decimal number that reads back. -/
theorem literal_cases (hrank : x.rank ≠ 0) :
    x.literal = x.exactLiteral ∨
      ∃ n scale, x.literal = (Decimal.ofScaled n scale).toLiteral x.isNegative ∧
        x.literal.toFloat? = some x := by
  rw [literal, if_neg hrank]
  dsimp only
  generalize hfound : (List.range 17).findSome? _ = found
  cases found with
  | none => exact .inl rfl
  | some l =>
    obtain ⟨count, _, hfind⟩ := List.exists_of_findSome?_eq_some hfound
    obtain ⟨d, hd, rfl⟩ := List.mem_map.1 (List.mem_of_find?_eq_some hfind)
    obtain ⟨n, scale, rfl⟩ : ∃ n scale, d = .ofScaled n scale := by
      rw [neighbours] at hd
      simp only [List.mem_cons, List.not_mem_nil, or_false] at hd
      rcases hd with rfl | rfl <;> exact ⟨_, _, rfl⟩
    have hback := List.find?_some hfind
    rw [beq_iff_eq] at hback
    rw [Option.getD_some]
    exact .inr ⟨n, scale, rfl, hback⟩

/-- A literal that reads back as a number other than zero has significant
    digits. -/
theorem pos_of_toFloat? {n : ℕ} {scale : ℤ} (hrank : x.rank ≠ 0)
    (h : ((Decimal.ofScaled n scale).toLiteral x.isNegative).toFloat? = some x) : 0 < n := by
  refine Nat.pos_of_ne_zero fun hn => hrank ?_
  subst hn
  rw [Literal.toFloat?_of_value_eq_zero
    (Decimal.value_digits_toLiteral_nil (Decimal.digits_ofScaled_zero scale) _)] at h
  rw [← Option.some.inj h, rank_zero]

/-- The literal of a finite number stands for the number. -/
theorem toFloat?_literal (hx : x.isFinite = true) : x.literal.toFloat? = some x := by
  by_cases hrank : x.rank = 0
  · have hvalue : Digit.value x.literal.digits = 0 := by
      rw [literal_of_rank hrank]
      rfl
    rw [Literal.toFloat?_of_value_eq_zero hvalue, literal_of_rank hrank, zero_eq_of_rank hrank]
  · rcases literal_cases hrank with h | ⟨_, _, _, h⟩
    · rw [h, toFloat?_exactLiteral hx hrank]
    · exact h

/-- The literal of a number keeps to the grammar. -/
theorem wellFormed_literal (x : Binary64) : x.literal.WellFormed := by
  by_cases hrank : x.rank = 0
  · rw [literal_of_rank hrank]
    exact ⟨⟨_, [], rfl, fun _ => rfl⟩, by simp, fun e he => absurd he (by simp)⟩
  · rcases literal_cases hrank with h | ⟨n, scale, h, hback⟩
    · exact h ▸ wellFormed_exactLiteral x
    · rw [h] at hback
      obtain ⟨first, rest, hdigits, hfirst⟩ :=
        Decimal.exists_digits_ofScaled (pos_of_toFloat? hrank hback) scale
      exact h ▸ Decimal.wellFormed_toLiteral hdigits hfirst _

/-- The literal of a number is not that of an integer. -/
theorem integer?_literal (x : Binary64) : x.literal.integer? = none := by
  by_cases hrank : x.rank = 0
  · rw [literal_of_rank hrank]
    rfl
  · rcases literal_cases hrank with h | ⟨n, scale, h, _⟩
    · rw [h]
      rfl
    · rw [h, Decimal.integer?_toLiteral]

end Binary64

end HostBridge
