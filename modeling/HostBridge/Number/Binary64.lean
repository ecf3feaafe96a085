import HostBridge.Number.Rounding

/-!
# Binary floating-point numbers of 64 bits

A number is its 64 bits: a sign, and below it the rank of its magnitude, in
units of `2 ^ (-1074)` and with 53 significant bits. The ranks from
`infiniteRank` on are no magnitudes: the first is infinity, the others stand
for no number at all.

* `ofRatio?` rounds a quotient of natural numbers to the nearest finite number
  and refuses one that is too great.
* `numEq` compares as numbers: the two zeros are equal, and what is no number
  equals nothing.
* `toSingle` rounds to the 24 significant bits of the 32-bit format.
-/

namespace HostBridge

/-- A binary floating-point number, given by its bits. -/
structure Binary64 where
  /-- Sign, exponent and fraction. -/
  bits : UInt64
deriving DecidableEq, Inhabited

namespace Binary64

/-- The binary places below the point of one unit. -/
def unitPlaces : Nat := 1074

/-- The rank of infinity. -/
def infiniteRank : Nat := 0x7FF0000000000000

/-- The value of the sign bit among the bits. -/
def signBit : Nat := 0x8000000000000000

/-- The sign bit is set. -/
def isNegative (x : Binary64) : Bool := signBit ≤ x.bits.toNat

/-- The place of the magnitude among all magnitudes. -/
def rank (x : Binary64) : Nat := x.bits.toNat % signBit

/-- Neither infinite nor without value. -/
def isFinite (x : Binary64) : Bool := x.rank < infiniteRank

/-- No number. -/
def isNaN (x : Binary64) : Bool := infiniteRank < x.rank

/-- The magnitude of a finite number, in units of `2 ^ (-1074)`. -/
def units (x : Binary64) : Nat := magnitude 53 x.rank

/-- The number with this sign and rank of magnitude. -/
def ofRank (negative : Bool) (rank : Nat) : Binary64 :=
  ⟨UInt64.ofNat (rank + if negative then signBit else 0)⟩

/-- Zero with a sign. -/
def zero (negative : Bool) : Binary64 := ofRank negative 0

/-- Infinity with a sign. -/
def infinity (negative : Bool) : Binary64 := ofRank negative infiniteRank

/-- The finite number nearest to `± n / d`, unless it would be infinite. -/
def ofRatio? (negative : Bool) (n d : Nat) : Option Binary64 :=
  let rank := nearest 53 (n * Nat.pow 2 unitPlaces) d
  if rank < infiniteRank then some (ofRank negative rank) else none

/-- The number nearest to an integer. -/
def ofInt (n : Int) : Binary64 :=
  (ofRatio? (n < 0) n.natAbs 1).getD (infinity (n < 0))

/-- Equality of numbers. -/
def numEq (x y : Binary64) : Bool :=
  !x.isNaN && !y.isNaN && (x.bits == y.bits || (x.rank == 0 && y.rank == 0))

/-- The binary places below the point of one unit of the 32-bit format. -/
def singleUnitPlaces : Nat := 149

/-- The rank of infinity in the 32-bit format. -/
def singleInfiniteRank : Nat := 0x7F800000

/-- The nearest number of the 32-bit format. -/
def toSingle (x : Binary64) : Binary64 :=
  if x.isFinite then
    let rank := nearest 24 x.units (Nat.pow 2 (unitPlaces - singleUnitPlaces))
    if rank < singleInfiniteRank then
      (ofRatio? x.isNegative (magnitude 24 rank) (Nat.pow 2 singleUnitPlaces)).getD
        (infinity x.isNegative)
    else infinity x.isNegative
  else x

end Binary64

end HostBridge
