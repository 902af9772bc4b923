import ToraCompiler.Binary64.Basic
import ToraCompiler.Text.Numeral

/-!
# Binary64 values from decimal text

The texts that denote a value: an optional sign, then either a name (`inf`, `infinity` or `nan`, in
capitals or not) or decimal digits with at most one point among them and an optional exponent.  At least
one digit stands before the exponent, on either side of the point.
-/

namespace ToraCompiler.Binary64

/-- The value nearest to `digits * 10 ^ exponent`.  Exponents far outside the range of the type are
settled by the number of digits, so that no huge power is ever computed. -/
def ofScientific (negative : Bool) (digits : Nat) (exponent : Int) : Binary64 :=
  let magnitude := exponent + (Nat.toDigits 10 digits).length
  if digits = 0 ∨ magnitude < -330 then zero negative
  else if 330 < magnitude then .infinite negative
  else ofRatio negative (digits * Nat.pow 10 exponent.toNat) (Nat.pow 10 (-exponent).toNat)

/-- The value that a name denotes. -/
def ofName? (negative : Bool) (cs : List Char) : Option Binary64 :=
  let name := String.ofList (cs.map Char.toLower)
  if name = "inf" ∨ name = "infinity" then some (.infinite negative)
  else if name = "nan" then some .nan
  else none

/-- Reads an exponent, or nothing at all for the exponent zero. -/
def exponent? : List Char → Option Int
  | [] => some 0
  | c :: cs =>
    if c = 'e' ∨ c = 'E' then
      let (negative, digits) := Numeral.splitSign cs
      (Numeral.natural? digits).map fun n => if negative then -(n : Int) else (n : Int)
    else none

/-- Splits off the digits behind a point, if there is a point. -/
def splitFraction : List Char → List Char × List Char
  | '.' :: cs => (cs.takeWhile Char.isDigit, cs.dropWhile Char.isDigit)
  | cs => ([], cs)

/-- Reads an unsigned decimal with an optional point and exponent. -/
def ofDigits? (negative : Bool) (cs : List Char) : Option Binary64 :=
  let whole := cs.takeWhile Char.isDigit
  let (fraction, rest) := splitFraction (cs.dropWhile Char.isDigit)
  if whole ++ fraction = [] then none
  else (exponent? rest).map fun e =>
    ofScientific negative (Numeral.value (whole ++ fraction)) (e - fraction.length)

/-- The value that a text denotes, if it denotes one. -/
def ofText? (cs : List Char) : Option Binary64 :=
  let (negative, rest) := Numeral.splitSign cs
  (ofName? negative rest).or (ofDigits? negative rest)

end ToraCompiler.Binary64
