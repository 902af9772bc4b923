/-!
# String literals of the host language

A text between double quotes.  The backslash, the quote and three controls have an escape with a letter;
any other control is written with two hexadecimal digits.  All other characters stand for themselves.
-/

namespace ToraCompiler.Host

/-- Whether the character is a control that has to be written with digits. -/
def isControl (c : Char) : Bool :=
  c.toNat < 0x20 || c.toNat = 0x7F

/-- The hexadecimal digit of a number below 16. -/
def hexDigit (n : Nat) : Char :=
  Nat.digitChar n

/-- The letter behind the backslash, for the characters that are written that way. -/
def escapeLetter? : Char → Option Char
  | '\\' => some '\\'
  | '"' => some '"'
  | '\n' => some 'n'
  | '\r' => some 'r'
  | '\t' => some 't'
  | _ => none

/-- The written form of one character. -/
def literalChar (c : Char) : List Char :=
  match escapeLetter? c with
  | some letter => ['\\', letter]
  | none =>
    if isControl c then ['\\', 'x', hexDigit (c.toNat / 16), hexDigit (c.toNat % 16)] else [c]

/-- The literal that denotes a text. -/
def stringLiteral (value : String) : String :=
  String.ofList ('"' :: value.toList.flatMap literalChar ++ ['"'])

end ToraCompiler.Host
