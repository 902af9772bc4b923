import ToraCompiler.Binary64.Decimal
import ToraCompiler.Binary64.Shortest

/-!
# Numbers of the language

A number with a point is a binary64 value.  One without is an integer; if it does not fit 64 signed bits
its digits are kept as written, because the integers of the host language are unbounded.
-/

namespace ToraCompiler

/-- A numeric literal. -/
inductive Number where
  /-- An integer of 64 signed bits. -/
  | int (value : Int)
  /-- A wider integer, as it is written. -/
  | wide (digits : String)
  /-- A number with a point. -/
  | float (value : Binary64)
deriving DecidableEq, Repr

namespace Number

/-- The text of a number in the host language. -/
def text : Number → String
  | .int value => toString value
  | .wide digits => digits
  | .float value => value.text

/-- The number that a literal denotes.  Only a text with a point can denote none. -/
def ofLiteral? (text : String) : Option Number :=
  if '.' ∈ text.toList then
    (Binary64.ofText? text.toList).map .float
  else
    match Numeral.int64? text.toList with
    | some value => some (.int value)
    | none => some (.wide text)

end Number

end ToraCompiler
