import HostBridge.Number.Binary64
import Mathlib.Tactic.Ring

/-!
# Rounding what needs no rounding

The magnitudes of a binary format are rounded to themselves: whatever common
factor a magnitude and the unit are multiplied by, the nearest rank is the rank
the magnitude has (`nearest_magnitude`). So a quotient that is a finite number
is that number (`Binary64.ofRatio?_units`), and integers of 64 bits are never
too great for it (`Binary64.exists_ofRatio?_of_lt`).
-/

namespace HostBridge

theorem roundQuotient_mul (n : ℕ) {d : ℕ} (hd : 0 < d) : roundQuotient (n * d) d = n := by
  rw [roundQuotient]
  simp only [Nat.mul_mod_left, Nat.mul_div_cancel n hd]
  rw [if_pos (by omega)]

theorem roundQuotient_le (n d : ℕ) : roundQuotient n d ≤ n / d + 1 := by
  rw [roundQuotient]
  split
  · omega
  · split <;> omega

/-- The quotient keeps at most `p` bits after the shift. -/
theorem div_lt_of_shift (p n d : ℕ) :
    n / (d * 2 ^ ((n / d).log2 + 1 - p)) < 2 ^ p := by
  rw [← Nat.div_div_eq_div_mul]
  by_cases h : n / d = 0
  · rw [h, Nat.zero_div]
    exact Nat.two_pow_pos p
  · refine Nat.div_lt_of_lt_mul ?_
    rw [← pow_add]
    calc n / d < 2 ^ ((n / d).log2 + 1) := Nat.lt_log2_self
      _ ≤ 2 ^ ((n / d).log2 + 1 - p + p) := Nat.pow_le_pow_right (by decide) (by omega)

/-- A quotient below `2 ^ (p + e)` has a rank among the first `e + 2` rows. -/
theorem nearest_le {p e n d : ℕ} (hp : 0 < p) (h : n / d < 2 ^ (p + e)) :
    nearest p n d ≤ e * 2 ^ (p - 1) + 2 ^ p := by
  have hshift : (n / d).log2 + 1 - p ≤ e := by
    by_cases hzero : n / d = 0
    · simp [hzero]
      omega
    · have hlog := (Nat.log2_lt hzero).2 h
      omega
  rw [nearest]
  simp only [Nat.pow_eq]
  refine Nat.add_le_add (Nat.mul_le_mul_right _ hshift) ?_
  exact (roundQuotient_le _ _).trans (div_lt_of_shift p n d)

/-- A magnitude is nearest to itself. -/
theorem nearest_magnitude {p : ℕ} (hp : 0 < p) (r : ℕ) {d : ℕ} (hd : 0 < d) :
    nearest p (magnitude p r * d) d = r := by
  have hhalf : 0 < 2 ^ (p - 1) := Nat.two_pow_pos _
  have hdouble : 2 * 2 ^ (p - 1) = 2 ^ p := by rw [← pow_succ']; congr; omega
  rw [nearest, Nat.mul_div_cancel _ hd, magnitude]
  simp only [Nat.pow_eq]
  split
  · next hlt =>
    -- fewer than `p` bits: nothing is shifted out
    have hshift : r.log2 + 1 - p = 0 := by
      by_cases hzero : r = 0
      · simp [hzero]
        omega
      · have hlog := (Nat.log2_lt hzero).2 hlt
        omega
    rw [hshift, Nat.zero_mul, Nat.zero_add, pow_zero, Nat.mul_one, roundQuotient_mul r hd]
  · next hle =>
    -- exactly `p` bits in front of `r / half - 1` zeros
    have hquot : 0 < r / 2 ^ (p - 1) := Nat.div_pos (Nat.le_of_not_lt hle) hhalf
    have hmod : r % 2 ^ (p - 1) < 2 ^ (p - 1) := Nat.mod_lt _ hhalf
    have hsplit := Nat.div_add_mod' r (2 ^ (p - 1))
    generalize r / 2 ^ (p - 1) = q at hquot hsplit ⊢
    generalize r % 2 ^ (p - 1) = s at hmod hsplit ⊢
    have hlog : ((2 ^ (p - 1) + s) * 2 ^ (q - 1)).log2 = p - 1 + (q - 1) := by
      rw [Nat.log2_eq_iff (Nat.pos_iff_ne_zero.1 (Nat.mul_pos (by omega) (Nat.two_pow_pos _)))]
      constructor
      · rw [pow_add]
        exact Nat.mul_le_mul_right _ (Nat.le_add_right _ _)
      · calc (2 ^ (p - 1) + s) * 2 ^ (q - 1) < 2 ^ p * 2 ^ (q - 1) :=
              Nat.mul_lt_mul_of_pos_right (by omega) (Nat.two_pow_pos _)
          _ = 2 ^ (p - 1 + (q - 1) + 1) := by rw [← pow_add]; congr 1; omega
    have hshift : ((2 ^ (p - 1) + s) * 2 ^ (q - 1)).log2 + 1 - p = q - 1 := by omega
    have hround : roundQuotient ((2 ^ (p - 1) + s) * 2 ^ (q - 1) * d) (d * 2 ^ (q - 1)) =
        2 ^ (p - 1) + s := by
      rw [Nat.mul_assoc, Nat.mul_comm (2 ^ (q - 1)) d]
      exact roundQuotient_mul _ (Nat.mul_pos hd (Nat.two_pow_pos _))
    rw [hshift, hround, ← hsplit, ← Nat.add_assoc, ← Nat.succ_mul]
    congr 2
    omega

namespace Binary64

theorem toNat_lt (x : Binary64) : x.bits.toNat < 2 * signBit := x.bits.toNat_lt

/-- A number is its sign and the rank of its magnitude. -/
theorem ofRank_rank (x : Binary64) : ofRank x.isNegative x.rank = x := by
  have hlt := x.toNat_lt
  have hbits : x.rank + (if x.isNegative = true then signBit else 0) = x.bits.toNat := by
    rw [rank, isNegative]
    simp only [decide_eq_true_eq]
    split <;> simp only [signBit] at * <;> omega
  rw [ofRank, hbits, UInt64.ofNat_toNat]

theorem rank_ofRank (negative : Bool) {r : ℕ} (h : r < infiniteRank) :
    (ofRank negative r).rank = r := by
  have hsize : r + (if negative then signBit else 0) < UInt64.size := by
    simp only [infiniteRank, signBit, UInt64.size] at *
    split <;> omega
  rw [rank, ofRank, UInt64.toNat_ofNat_of_lt' hsize]
  simp only [infiniteRank, signBit] at *
  split <;> omega

/-- What a quotient is rounded to is finite. -/
theorem isFinite_of_ofRatio? {negative : Bool} {n d : ℕ} {x : Binary64}
    (h : ofRatio? negative n d = some x) : x.isFinite = true := by
  rw [ofRatio?] at h
  split at h
  · next hlt =>
    rw [← Option.some.inj h, isFinite, rank_ofRank negative hlt]
    exact decide_eq_true hlt
  · exact absurd h (by simp)

/-- A fraction of a finite number's units, in any measure, is the number. -/
theorem ofRatio?_units {x : Binary64} (h : x.isFinite = true) {n d : ℕ} (hd : 0 < d)
    (hn : n * 2 ^ unitPlaces = x.units * d) : ofRatio? x.isNegative n d = some x := by
  have hrank : nearest 53 (n * Nat.pow 2 unitPlaces) d = x.rank := by
    rw [Nat.pow_eq, hn]
    exact nearest_magnitude (by decide) x.rank hd
  rw [ofRatio?, hrank, if_pos (by simpa [isFinite] using h), ofRank_rank]

theorem nearest_lt_infiniteRank {n places : ℕ} (h : n < 2 ^ 64) (hplaces : places ≤ 1074) :
    nearest 53 (n * Nat.pow 2 places) 1 < infiniteRank := by
  have hlt : n * 2 ^ places / 1 < 2 ^ (53 + (places + 11)) := by
    rw [Nat.div_one, show 53 + (places + 11) = 64 + places by omega, pow_add]
    exact Nat.mul_lt_mul_of_pos_right h (Nat.two_pow_pos _)
  have hbound : (places + 11) * 2 ^ (53 - 1) + 2 ^ 53 < infiniteRank := by
    calc (places + 11) * 2 ^ (53 - 1) + 2 ^ 53 ≤ 1085 * 2 ^ (53 - 1) + 2 ^ 53 :=
          Nat.add_le_add_right (Nat.mul_le_mul_right _ (Nat.add_le_add_right hplaces 11)) _
      _ < infiniteRank := by decide
  exact (nearest_le (by decide) hlt).trans_lt hbound

/-- A natural number of 64 bits is not too great. -/
theorem exists_ofRatio?_of_lt (negative : Bool) {n : ℕ} (h : n < 2 ^ 64) :
    ∃ x, ofRatio? negative n 1 = some x :=
  ⟨_, by rw [ofRatio?, if_pos (nearest_lt_infiniteRank h (Nat.le_refl unitPlaces))]⟩

end Binary64

end HostBridge
