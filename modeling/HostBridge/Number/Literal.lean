import HostBridge.Number.Binary64

/-!
# Number literals

A number literal is an optional minus sign, the digits before the point, and
optionally the digits after the point and an exponent of ten.

* `Literal.toFloat?` is the floating-point number nearest to the value of the
  literal. It refuses a literal that is too great; one that is too small is
  zero. The sign of zero is kept.
* `Literal.integer?` is the value of a literal without point and exponent.

Reading is correctly rounded. This stands for an assumption about readers: the
digits that are written for a number convert back to it. A reader that rounds less
carefully may differ from `Literal.toFloat?` in the last place; what is said about
reading back what was written holds of it as far as it meets the assumption.
-/

namespace HostBridge

/-- A decimal digit. -/
abbrev Digit := Fin 10

namespace Digit

/-- The number that a row of digits stands for. -/
def value (digits : List Digit) : Nat :=
  digits.foldl (fun n d => 10 * n + d.val) 0

/-- The digit zero. -/
def zero : Digit := ⟨0, by decide⟩

/-- The last digit of a number. -/
def last (n : Nat) : Digit := ⟨n % 10, Nat.mod_lt n (by decide)⟩

/-- The digits of `n`, put in front of `tail`. One digit is taken off for each
    unit of `fuel`. -/
def prepend : (fuel n : Nat) → (tail : List Digit) → List Digit
  | 0, _, tail => tail
  | fuel + 1, n, tail =>
    if n < 10 then last n :: tail
    else prepend fuel (n / 10) (last n :: tail)

/-- The digits of a number, without leading zeros. -/
def ofNat (n : Nat) : List Digit := prepend (n + 1) n []

/-- The digits of a number, filled up with leading zeros to `width` digits. -/
def ofNatPadded (width n : Nat) : List Digit :=
  let digits := ofNat n
  List.replicate (width - digits.length) zero ++ digits

end Digit

/-- The exponent of a literal. -/
structure Exponent where
  /-- It is written with a minus sign. -/
  negative : Bool
  /-- At least one digit. -/
  digits : List Digit
deriving DecidableEq

namespace Exponent

/-- The power of ten. -/
def value (e : Exponent) : Int :=
  if e.negative then -(Digit.value e.digits : Int) else Digit.value e.digits

end Exponent

/-- A number literal. -/
structure Literal where
  /-- It starts with a minus sign. -/
  negative : Bool
  /-- The digits before the point: a single zero, or no zero in front. -/
  whole : List Digit
  /-- The digits after the point, if there is one. -/
  fraction : Option (List Digit)
  /-- The exponent, if there is one. -/
  exponent : Option Exponent
deriving DecidableEq

namespace Literal

/-- The digits on both sides of the point. -/
def digits (l : Literal) : List Digit := l.whole ++ l.fraction.getD []

/-- The written exponent, zero if there is none. -/
def power (l : Literal) : Int := (l.exponent.map Exponent.value).getD 0

/-- The value, if there is neither point nor exponent. -/
def integer? (l : Literal) : Option Int :=
  match l.fraction, l.exponent with
  | none, none =>
    let n : Int := Digit.value l.whole
    some (if l.negative then -n else n)
  | _, _ => none

/-- The nearest floating-point number, unless the value is too great: the value is
    correctly rounded, ties to even.

    An exponent that outweighs the number of digits by more than 400 decides
    the result by itself: the value is above `10 ^ 400` or below
    `10 ^ (-400)`. -/
def toFloat? (l : Literal) : Option Binary64 :=
  let n := Digit.value l.digits
  let bound : Int := l.digits.length + 400
  let scale := l.power - ((l.fraction.getD []).length : Int)
  if n = 0 then some (.zero l.negative)
  else if l.power < -bound then some (.zero l.negative)
  else if bound < l.power then none
  else if 0 ≤ scale then Binary64.ofRatio? l.negative (n * Nat.pow 10 scale.toNat) 1
  else Binary64.ofRatio? l.negative n (Nat.pow 10 (-scale).toNat)

end Literal

end HostBridge
