/-!
# Finite binary64 numbers

The finite magnitudes of the binary64 format are numbered in ascending order: number 0 is
zero, the first `2 ^ 52` are evenly spaced, and from there on the spacing doubles after every
`2 ^ 52` of them. `unitsOf` gives the magnitude itself, counted in the smallest positive one,
which is `2 ^ (-1074)`.
-/

namespace DocQuery

/-- How many magnitudes there are between a power of two and the next one. -/
def binade : Nat := 0x10000000000000

def finiteMagnitudes : Nat := 2047 * binade

/-- How many units of `2 ^ (-1074)` make one. -/
def unitsPerOne : Nat := Nat.pow 2 1074

/-- A finite binary64 number: a sign and the place of its magnitude among all finite ones.
Zero has both signs. -/
structure Binary64 where
  negative : Bool
  magnitude : Nat
  finite : magnitude < finiteMagnitudes
deriving DecidableEq

namespace Binary64

/-- Zero of either sign. -/
def zero (negative : Bool) : Binary64 :=
  ⟨negative, 0, by decide⟩

/-- The magnitude with this number, counted in units of `2 ^ (-1074)`. -/
def unitsOf (magnitude : Nat) : Nat :=
  if magnitude < binade then magnitude
  else (binade + magnitude % binade) * Nat.pow 2 (magnitude / binade - 1)

end Binary64

end DocQuery
