/-!
# Rounding to a binary format

The magnitudes of a binary floating-point format with `p` significant bits
stand in a row, from zero upwards. The place of a magnitude in this row is its
*rank*, and all of them are multiples of the least positive one, the *unit*:
up to rank `2 ^ (p - 1)` the rank is the number of units, and from there on
every `2 ^ (p - 1)` ranks the distance between neighbours doubles.

* `magnitude p r` is the number of units of the magnitude of rank `r`.
* `nearest p n d` is the rank of the magnitude nearest to `n / d` units, of two
  equally near ones the one of even rank. The row goes on without end, so the
  greatest finite magnitude of a format is for the caller to compare with.
-/

namespace HostBridge

/-- The natural number nearest to `n / d`, a tie going to the even neighbour. -/
def roundQuotient (n d : Nat) : Nat :=
  let q := n / d
  let r := n % d
  if 2 * r < d then q
  else if d < 2 * r then q + 1
  else q + q % 2

/-- The number of units of the magnitude of rank `r`, with `p` significant
    bits. -/
def magnitude (p r : Nat) : Nat :=
  let half := Nat.pow 2 (p - 1)
  if r < half then r else (half + r % half) * Nat.pow 2 (r / half - 1)

/-- The rank of the magnitude nearest to `n / d` units, with `p` significant
    bits. -/
def nearest (p n d : Nat) : Nat :=
  -- the lowest power of two that leaves at most `p` bits of the quotient
  let shift := (n / d).log2 + 1 - p
  shift * Nat.pow 2 (p - 1) + roundQuotient n (d * Nat.pow 2 shift)

end HostBridge
