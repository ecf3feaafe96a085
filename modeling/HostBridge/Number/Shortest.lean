import HostBridge.Number.Literal

/-!
# The shortest literal of a floating-point number

A finite number is written with the fewest significant digits that read back
as the same number; among literals with that many digits the nearest to the
number is taken, of two equally near ones the one with an even last digit.
From `10 ^ (-5)` up to `10 ^ 16` the digits are laid out around the point, with
at least one digit on each side of it; beyond, the first digit stands before
the point and an exponent follows.

`Binary64.literal` tries one digit, two digits, and so on. A candidate is
accepted by reading it: so a literal that was found reads back as the number,
whatever the search did to find it. To read is to round correctly
(`Literal.toFloat?`); that the written digits convert back is an assumption about
any reader that does not.
-/

namespace HostBridge

/-- A decimal number `d₁.d₂d₃… · 10 ^ power`. -/
structure Decimal where
  /-- The significant digits: no zero in front, none at the end. -/
  digits : List Digit
  /-- The power of ten of the first digit. -/
  power : Int
deriving DecidableEq

namespace Decimal

/-- The least power of ten of a first digit that is laid out around the point. -/
def leastPlain : Int := -5

/-- The greatest power of ten of a first digit that is laid out around the
    point. -/
def greatestPlain : Int := 15

/-- `digits`, or a zero if there is none. -/
def orZero (digits : List Digit) : List Digit :=
  if digits.isEmpty then [.zero] else digits

/-- The literal of a decimal number. -/
def toLiteral (negative : Bool) (x : Decimal) : Literal :=
  if leastPlain ≤ x.power ∧ x.power ≤ greatestPlain then
    if 0 ≤ x.power then
      let places := x.power.toNat + 1
      { negative
        whole := x.digits.take places ++ List.replicate (places - x.digits.length) Digit.zero
        fraction := some (orZero (x.digits.drop places))
        exponent := none }
    else
      { negative
        whole := [.zero]
        fraction := some (List.replicate ((-x.power).toNat - 1) Digit.zero ++ x.digits)
        exponent := none }
  else
    { negative
      whole := orZero (x.digits.take 1)
      fraction := if x.digits.length ≤ 1 then none else some (x.digits.drop 1)
      exponent := some ⟨x.power < 0, Digit.ofNat x.power.natAbs⟩ }

/-- The decimal number `n · 10 ^ scale`. -/
def ofScaled (n : Nat) (scale : Int) : Decimal :=
  let digits := Digit.ofNat n
  { digits := (digits.reverse.dropWhile (·.val == 0)).reverse
    power := scale + digits.length - 1 }

end Decimal

namespace Binary64

/-- The power of ten of the first significant digit of a positive finite
    number. -/
def decimalPower (x : Binary64) : Int :=
  let one := Nat.pow 2 unitPlaces
  if one ≤ x.units then (Digit.ofNat (x.units / one)).length - 1
  -- below one: as many places down as the reciprocal has digits
  else -((Digit.ofNat (one / x.units)).length : Int)

/-- The two neighbours of the magnitude among the decimal numbers with `count`
    significant digits, the nearer one first. -/
def neighbours (x : Binary64) (count : Nat) : List Decimal :=
  let scale := x.decimalPower - (count - 1 : Int)
  let n := x.units * Nat.pow 10 (-scale).toNat
  let d := Nat.pow 2 unitPlaces * Nat.pow 10 scale.toNat
  let below := n / d
  let closest := roundQuotient n d
  let other := if closest = below then below + 1 else below
  [.ofScaled closest scale, .ofScaled other scale]

/-- All digits of the magnitude, which ends `unitPlaces` places below the
    point. -/
def exactLiteral (x : Binary64) : Literal :=
  let n := x.units * Nat.pow 5 unitPlaces
  let one := Nat.pow 10 unitPlaces
  { negative := x.isNegative
    whole := Digit.ofNat (n / one)
    fraction := some (Digit.ofNatPadded unitPlaces (n % one))
    exponent := none }

/-- The shortest literal of a finite number that converts back to it when it is
    correctly rounded. -/
def literal (x : Binary64) : Literal :=
  if x.rank = 0 then ⟨x.isNegative, [.zero], some [.zero], none⟩
  else
    let readsBack (l : Literal) : Bool := l.toFloat? == some x
    let found := (List.range 17).findSome? fun n =>
      ((x.neighbours (n + 1)).map (Decimal.toLiteral x.isNegative)).find? readsBack
    found.getD x.exactLiteral

end Binary64

end HostBridge
