import ToraCompiler.Text.Printable

/-!
# Quoted text

Messages show a text that may hold anything between double quotes.  The quote and the backslash get a
backslash, four controls get a letter or a digit, and a character without a shape of its own is written as
its code point in hexadecimal between braces, so that what is shown is one line of visible characters.
-/

namespace ToraCompiler.Quoted

/-- What stands behind the backslash, for the characters that are written that way. -/
def letter? : Char → Option Char
  | '\x00' => some '0'
  | '\t' => some 't'
  | '\r' => some 'r'
  | '\n' => some 'n'
  | '\\' => some '\\'
  | '"' => some '"'
  | _ => none

/-- The written form of one character. -/
def encodeChar (c : Char) : List Char :=
  match letter? c with
  | some letter => ['\\', letter]
  | none =>
    if isPrintable c then [c]
    else ['\\', 'u', '\x7b'] ++ Nat.toDigits 16 c.toNat ++ ['\x7d']

/-- The text between double quotes. -/
def quote (text : String) : String :=
  "\"" ++ String.ofList (text.toList.flatMap encodeChar) ++ "\""

end ToraCompiler.Quoted
