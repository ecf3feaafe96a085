import HostBridge.Number.Literal
import Mathlib.Tactic.Ring

/-!
# Rows of digits

`Digit.ofNat` and `Digit.value` undo each other as far as they can: the digits
of a number stand for the number (`value_ofNat`), and they start with a zero
only if the number is zero (`Leading`). A number is written in at most as many
digits as its size allows (`length_ofNat_le`), so filling up with zeros changes
the width and not the value (`value_ofNatPadded`).
-/

namespace HostBridge

namespace Digit

/-! ## The value of a row -/

theorem foldl_value (digits : List Digit) (n : ℕ) :
    digits.foldl (fun n d => 10 * n + d.val) n = n * 10 ^ digits.length + value digits := by
  induction digits generalizing n with
  | nil => simp [value]
  | cons d rest ih =>
    rw [value, List.foldl_cons, List.foldl_cons, ih, ih, List.length_cons]
    ring

theorem value_append (front back : List Digit) :
    value (front ++ back) = value front * 10 ^ back.length + value back := by
  rw [value, List.foldl_append, foldl_value]
  rfl

@[simp] theorem value_nil : value [] = 0 := rfl

@[simp] theorem value_singleton (d : Digit) : value [d] = d.val := by
  simp [value]

theorem value_cons (d : Digit) (rest : List Digit) :
    value (d :: rest) = d.val * 10 ^ rest.length + value rest := by
  rw [← List.singleton_append, value_append, value_singleton]

@[simp] theorem val_zero : zero.val = 0 := rfl

@[simp] theorem value_replicate_zero (count : ℕ) : value (List.replicate count zero) = 0 := by
  induction count with
  | zero => rfl
  | succ count ih => rw [List.replicate_succ, value_cons, ih, val_zero, Nat.zero_mul]

/-! ## The digits of a number -/

/-- Digits are put in front of what is there already. -/
theorem prepend_append (fuel n : ℕ) (tail : List Digit) :
    prepend fuel n tail = prepend fuel n [] ++ tail := by
  induction fuel generalizing n tail with
  | zero => rfl
  | succ fuel ih =>
    rw [prepend, prepend]
    split
    · rfl
    · rw [ih, ih _ [last n], List.append_assoc]
      rfl

/-- Steps beyond the number itself are not taken. -/
theorem prepend_fuel {fuel more n : ℕ} (h : n < fuel) (h' : n < more) (tail : List Digit) :
    prepend fuel n tail = prepend more n tail := by
  induction fuel generalizing more n tail with
  | zero => exact absurd h (Nat.not_lt_zero n)
  | succ fuel ih =>
    cases more with
    | zero => exact absurd h' (Nat.not_lt_zero n)
    | succ more =>
      rw [prepend, prepend]
      split
      · rfl
      · exact ih (by omega) (by omega) _

theorem ofNat_of_lt {n : ℕ} (h : n < 10) : ofNat n = [last n] := by
  rw [ofNat, prepend, if_pos h]

theorem ofNat_of_le {n : ℕ} (h : 10 ≤ n) : ofNat n = ofNat (n / 10) ++ [last n] := by
  rw [ofNat, prepend, if_neg (by omega), prepend_append, ofNat,
    prepend_fuel (by omega) (Nat.lt_succ_self (n / 10))]

/-- The digits of a number stand for it. -/
@[simp] theorem value_ofNat (n : ℕ) : value (ofNat n) = n := by
  induction n using Nat.strongRecOn with
  | ind n ih =>
    by_cases h : n < 10
    · rw [ofNat_of_lt h, value_singleton]
      exact Nat.mod_eq_of_lt h
    · rw [ofNat_of_le (by omega), value_append, ih (n / 10) (by omega), value_singleton, last]
      simp only [List.length_singleton, pow_one]
      omega

theorem ofNat_ne_nil (n : ℕ) : ofNat n ≠ [] := by
  by_cases h : n < 10
  · simp [ofNat_of_lt h]
  · simp [ofNat_of_le (Nat.le_of_not_lt h)]

/-- A row of digits as it stands before the point: there is a digit, and a zero
    in front stands alone. -/
def Leading (digits : List Digit) : Prop :=
  ∃ first more, digits = first :: more ∧ (first.val = 0 → more = [])

theorem leading_ofNat (n : ℕ) : Leading (ofNat n) := by
  induction n using Nat.strongRecOn with
  | ind n ih =>
    by_cases h : n < 10
    · exact ⟨last n, [], ofNat_of_lt h, fun _ => rfl⟩
    · obtain ⟨first, more, heq, hzero⟩ := ih (n / 10) (by omega)
      refine ⟨first, more ++ [last n], by rw [ofNat_of_le (by omega), heq]; rfl, fun hfirst => ?_⟩
      -- a zero in front would make the number less than ten
      have hvalue := value_ofNat (n / 10)
      rw [heq, hzero hfirst, value_singleton, hfirst] at hvalue
      omega

/-- A positive number starts with a digit other than zero. -/
theorem exists_ofNat_cons {n : ℕ} (h : 0 < n) :
    ∃ first more, ofNat n = first :: more ∧ first.val ≠ 0 := by
  obtain ⟨first, more, heq, hzero⟩ := leading_ofNat n
  refine ⟨first, more, heq, fun hfirst => ?_⟩
  have hvalue := value_ofNat n
  rw [heq, hzero hfirst, value_singleton, hfirst] at hvalue
  omega

/-! ## The width of a row -/

theorem length_ofNat_le {n width : ℕ} (h : n < 10 ^ width) (hwidth : 0 < width) :
    (ofNat n).length ≤ width := by
  induction n using Nat.strongRecOn generalizing width with
  | ind n ih =>
    by_cases hn : n < 10
    · rw [ofNat_of_lt hn]
      exact hwidth
    · obtain ⟨width, rfl⟩ := Nat.exists_eq_succ_of_ne_zero (Nat.pos_iff_ne_zero.1 hwidth)
      have hpos : 0 < width := by
        refine Nat.pos_of_ne_zero fun hzero => hn ?_
        simpa [hzero] using h
      have hlt : n / 10 < 10 ^ width := Nat.div_lt_of_lt_mul (by rwa [← pow_succ'])
      rw [ofNat_of_le (by omega), List.length_append, List.length_singleton]
      exact Nat.succ_le_succ (ih (n / 10) (by omega) hlt hpos)

@[simp] theorem value_ofNatPadded (width n : ℕ) : value (ofNatPadded width n) = n := by
  rw [ofNatPadded, value_append, value_replicate_zero, value_ofNat, Nat.zero_mul, Nat.zero_add]

theorem length_ofNatPadded {width n : ℕ} (h : n < 10 ^ width) (hwidth : 0 < width) :
    (ofNatPadded width n).length = width := by
  have hle := length_ofNat_le h hwidth
  rw [ofNatPadded, List.length_append, List.length_replicate]
  omega

end Digit

end HostBridge
