/-!
# Decimal numerals

Whole numbers written with ASCII digits, with and without a sign, and the two ranges of machine words
that they are read into.
-/

namespace ToraCompiler.Numeral

/-- The number that a row of digits denotes. -/
def value (digits : List Char) : Nat :=
  digits.foldl (fun n c => 10 * n + (c.toNat - '0'.toNat)) 0

/-- Reads a non-empty row of digits, and nothing else. -/
def natural? (cs : List Char) : Option Nat :=
  if cs ≠ [] ∧ cs.all Char.isDigit then some (value cs) else none

/-- Splits off a sign: whether it is a minus, and what follows. -/
def splitSign : List Char → Bool × List Char
  | '-' :: cs => (true, cs)
  | '+' :: cs => (false, cs)
  | cs => (false, cs)

/-- Reads an integer of 64 signed bits, with an optional sign of either kind. -/
def int64? (cs : List Char) : Option Int :=
  let (negative, digits) := splitSign cs
  match natural? digits with
  | none => none
  | some n =>
    if negative then
      if n ≤ Nat.pow 2 63 then some (-(n : Int)) else none
    else
      if n < Nat.pow 2 63 then some (n : Int) else none

/-- Reads a number of 64 unsigned bits, with an optional plus. -/
def word64? (cs : List Char) : Option Nat :=
  let digits := match cs with
    | '+' :: rest => rest
    | _ => cs
  match natural? digits with
  | none => none
  | some n => if n < Nat.pow 2 64 then some n else none

end ToraCompiler.Numeral
