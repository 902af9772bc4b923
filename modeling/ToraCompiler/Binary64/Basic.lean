/-!
# Binary64 values

The floating point numbers of 64 bits, as exact numbers.  A finite value is a whole multiple of
`2 ^ -1074`, the least positive one, so it is held as a significand and a left shift of that unit and
no negative exponent appears anywhere.  `Binary64.ofRatio` rounds a quotient of naturals to the nearest
value; a quotient halfway between two values goes to the one with the even significand.
-/

namespace ToraCompiler

/-- A floating point number of 64 bits. -/
inductive Binary64 where
  /-- The number `significand * 2 ^ shift / 2 ^ 1074`, with its sign.  The significand has at most 53
  bits, and exactly 53 unless the shift is zero. -/
  | finite (negative : Bool) (significand shift : Nat)
  /-- An infinity, with its sign. -/
  | infinite (negative : Bool)
  /-- Not a number. -/
  | nan
deriving DecidableEq, Repr

namespace Binary64

/-- The number of units `2 ^ -1074` in one. -/
def unitsPerOne : Nat := Nat.pow 2 1074

/-- The zero of the given sign. -/
def zero (negative : Bool) : Binary64 := .finite negative 0 0

/-- The whole number nearest to `num / den`; a half goes to the even neighbour. -/
def roundDiv (num den : Nat) : Nat :=
  let q := num / den
  let r := num % den
  if 2 * r < den then q
  else if den < 2 * r then q + 1
  else if q % 2 = 0 then q else q + 1

/-- The value with the given significand and shift, after a rounding that may have carried into a
54th bit.  Beyond the greatest finite value there is only infinity. -/
def ofRounded (negative : Bool) (significand shift : Nat) : Binary64 :=
  let (m, s) := if significand = Nat.pow 2 53 then (Nat.pow 2 52, shift + 1) else (significand, shift)
  if 2045 < s then .infinite negative else .finite negative m s

/-- The value nearest to `num / den`. -/
def ofRatio (negative : Bool) (num den : Nat) : Binary64 :=
  let units := num * unitsPerOne
  let shift := (units / den).log2 - 52
  ofRounded negative (roundDiv units (den * Nat.pow 2 shift)) shift

end Binary64

end ToraCompiler
