import ToraCompiler.Token.Basic

/-!
# What literal tokens denote

The text between the quotes of a string token is taken as it stands, except for six escapes.  A backslash
before any other character is kept, and so is one at the end.
-/

namespace ToraCompiler

/-- The character that a letter behind a backslash stands for. -/
def escapeValue? : Char → Option Char
  | 'n' => some '\n'
  | 't' => some '\t'
  | 'r' => some '\r'
  | '0' => some '\x00'
  | '\\' => some '\\'
  | '"' => some '"'
  | _ => none

/-- Resolves the escapes of a text. -/
def unescape : List Char → List Char
  | [] => []
  | c :: cs =>
    if c = '\\' then
      match cs with
      | [] => [c]
      | d :: ds =>
        match escapeValue? d with
        | some value => value :: unescape ds
        | none => c :: d :: unescape ds
    else c :: unescape cs

namespace Token

/-- The text that a string token denotes: what stands between its first and its last character. -/
def stringValue (t : Token) : String :=
  String.ofList (unescape t.text.toList.tail.dropLast)

/-- Whether the token is a number with a minus of its own. -/
def isNegativeNumber (t : Token) : Prop :=
  t.kind = .number ∧ t.text.toList.head? = some '-'

instance (t : Token) : Decidable t.isNegativeNumber :=
  inferInstanceAs (Decidable (_ ∧ _))

/-- The token without its first character. -/
def dropFirst (t : Token) : Token :=
  { t with
    text := String.ofList t.text.toList.tail
    position := ⟨t.position.line, t.position.column + 1⟩ }

end Token

end ToraCompiler
