import ToraCompiler.Binary64.Basic

/-!
# Binary64 values as decimal text

A finite value is written with the fewest digits that read back as that value, and of several such
numbers with the nearest one; a tie goes away from zero.  Numbers from `10 ^ -4` up to `10 ^ 16` are
written positionally and always with a point, all others with one digit before the point and a
power of ten.

`Decimal.shortest` finds the digits.  The reals that round to a value form an interval, which reaches
halfway to both neighbours and includes its ends exactly when the significand is even.  For one digit,
two digits and so on, the value's two neighbours on that decimal grid are tried.
-/

namespace ToraCompiler

/-- The decimal number `digits * 10 ^ exponent`. -/
structure Decimal where
  /-- The digits, as a whole number. -/
  digits : Nat
  /-- The power of ten that they are multiples of. -/
  exponent : Int
deriving DecidableEq, Repr

namespace Decimal

/-- How `d` compares with `num / den`. -/
def compareTo (d : Decimal) (num den : Nat) : Ordering :=
  compare (d.digits * Nat.pow 10 d.exponent.toNat * den) (num * Nat.pow 10 (-d.exponent).toNat)

/-- Whether `d` rounds to the positive value `significand * 2 ^ shift` units.  Below a power of two the
neighbour is only half as far away as above it. -/
def readsBack (d : Decimal) (significand shift : Nat) : Bool :=
  let below := if significand = Nat.pow 2 52 ∧ 0 < shift then 1 else 2
  let fromLow := d.compareTo ((4 * significand - below) * Nat.pow 2 shift) (4 * Binary64.unitsPerOne)
  let fromHigh := d.compareTo ((4 * significand + 2) * Nat.pow 2 shift) (4 * Binary64.unitsPerOne)
  if significand % 2 = 0 then fromLow ≠ .lt && fromHigh ≠ .gt
  else fromLow = .gt && fromHigh = .lt

/-- The least power of ten above the positive number `num / den`. -/
def leadingPower (num den : Nat) : Int :=
  if den ≤ num then (Nat.toDigits 10 (num / den)).length
  else 1 - (Nat.toDigits 10 ((den - 1) / num)).length

/-- The two neighbours of `num / den` on the grid of the multiples of `10 ^ exponent`, the nearer one
first and the upper one in a tie. -/
def neighbours (num den : Nat) (exponent : Int) : List Decimal :=
  let scaled := num * Nat.pow 10 (-exponent).toNat
  let step := den * Nat.pow 10 exponent.toNat
  let lower := scaled / step
  if 2 * (scaled % step) < step then [⟨lower, exponent⟩, ⟨lower + 1, exponent⟩]
  else [⟨lower + 1, exponent⟩, ⟨lower, exponent⟩]

/-- The decimal with the fewest digits that rounds to `significand * 2 ^ shift` units.  Seventeen digits
always suffice. -/
def shortest (significand shift : Nat) : Decimal :=
  let num := significand * Nat.pow 2 shift
  let power := leadingPower num Binary64.unitsPerOne
  let candidates := (List.range 17).flatMap fun (n : Nat) =>
    neighbours num Binary64.unitsPerOne (power - (n + 1))
  (candidates.find? (·.readsBack significand shift)).getD ⟨0, 0⟩

/-- The digits with the zeros at their end left out, and the power of ten of the first digit. -/
def scientificDigits (d : Decimal) : List Char × Int :=
  let digits := Nat.toDigits 10 d.digits
  ((digits.reverse.dropWhile (· = '0')).reverse, d.exponent + digits.length - 1)

/-- Positional notation for digits whose first one counts `10 ^ power`, with a digit on either side of
the point. -/
def positional (digits : List Char) (power : Int) : List Char :=
  if power < 0 then
    ['0', '.'] ++ List.replicate (-power - 1).toNat '0' ++ digits
  else
    let places := power.toNat + 1
    let whole := digits.take places ++ List.replicate (places - digits.length) '0'
    let fraction := digits.drop places
    whole ++ '.' :: (if fraction = [] then ['0'] else fraction)

/-- Notation with a power of ten. -/
def scientific (digits : List Char) (power : Int) : List Char :=
  let mantissa := match digits with
    | first :: second :: rest => first :: '.' :: second :: rest
    | _ => digits
  mantissa ++ 'e' :: (toString power).toList

/-- The text of a positive number. -/
def text (d : Decimal) : List Char :=
  let (digits, power) := d.scientificDigits
  if -4 ≤ power ∧ power < 16 then positional digits power else scientific digits power

end Decimal

/-- The text of a value. -/
def Binary64.text : Binary64 → String
  | .nan => "NaN"
  | .infinite negative => if negative then "-inf" else "inf"
  | .finite negative significand shift =>
    let magnitude := if significand = 0 then ['0', '.', '0'] else (Decimal.shortest significand shift).text
    String.ofList (if negative then '-' :: magnitude else magnitude)

end ToraCompiler
