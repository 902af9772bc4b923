import ToraCompiler.Token.Basic
import ToraCompiler.Text.Alphabetic

/-!
# Cutting a source into tokens

The source is a row of pieces: tokens, and gaps between them (blanks, line ends and comments).  What
piece starts at a character is decided by that character and at most a few that follow, and the piece
is then as long as its class allows.  A keyword is a whole word, so `printer` is an identifier.

`Scan.ofText` walks over the characters one by one and keeps the place of each, so the place of a token
is the place of its first character by construction.  At the first character where no piece starts the
scan stops.
-/

namespace ToraCompiler

/-! ## Pieces -/

/-- Whether a word may start with `c`: a letter, an underscore or a Han character. -/
def isWordStart (c : Char) : Bool :=
  c = '_' || isAlphabetic c || (0x4E00 ≤ c.toNat && c.toNat ≤ 0x9FFF)

/-- Whether a word may go on with `c`. -/
def isWordPart (c : Char) : Bool :=
  isWordStart c || c.isDigit

/-- Whether `c` separates tokens on one line. -/
def isSpacing (c : Char) : Bool :=
  c = ' ' || c = '\t' || c = '\r'

/-- The words with a meaning of their own. -/
def keywords : List (String × Kind) :=
  [("println", .printlnKeyword), ("print", .printKeyword), ("let", .letKeyword), ("fn", .fnKeyword),
    ("if", .ifKeyword), ("else", .elseKeyword), ("while", .whileKeyword), ("for", .forKeyword),
    ("return", .returnKeyword)]

/-- Operators and punctuation, a longer mark before its own beginning. -/
def marks : List (List Char × Kind) :=
  [(['=', '='], .equal), (['=' ], .assign), (['!', '='], .notEqual), (['<', '='], .lessEqual),
    (['>', '='], .greaterEqual), (['<'], .less), (['>'], .greater), (['+'], .plus), (['-'], .minus),
    (['*'], .star), (['/'], .slash), ([';'], .semicolon), ([':'], .colon), ([','], .comma),
    (['('], .openParen), ([')'], .closeParen), (['\x7b'], .openBrace), (['\x7d'], .closeBrace),
    (['['], .openBracket), ([']'], .closeBracket)]

/-- A piece of the source: a token of some kind, or a gap. -/
structure Piece where
  /-- The kind of the token, and nothing for a gap. -/
  kind : Option Kind
  /-- The characters of the piece. -/
  text : List Char
deriving DecidableEq, Repr

namespace Piece

/-- A whole word. -/
def word (text : List Char) : Piece :=
  ⟨some ((keywords.lookup (String.ofList text)).getD .identifier), text⟩

/-- The longest number without a sign at the head of the input: digits, and a point with more digits
if a digit follows the point. -/
def numberText (cs : List Char) : List Char :=
  let whole := cs.takeWhile Char.isDigit
  match cs.dropWhile Char.isDigit with
  | '.' :: rest =>
    let fraction := rest.takeWhile Char.isDigit
    if fraction = [] then whole else whole ++ '.' :: fraction
  | _ => whole

/-- The rest of a string literal, up to the quote that ends it.  A backslash takes the next character
with it, whatever that is, except for the end of the line or of the source, which leave the literal
without an end. -/
def stringTail? : List Char → Option (List Char)
  | [] => none
  | c :: cs =>
    if c = '"' then some [c]
    else if c = '\\' then
      match cs with
      | [] => none
      | d :: ds => if d = '\n' then none else (stringTail? ds).map fun tail => c :: d :: tail
    else (stringTail? cs).map fun tail => c :: tail

/-- The mark at the head of the input. -/
def mark? (cs : List Char) : Option Piece :=
  (marks.find? fun mark => mark.1.isPrefixOf cs).map fun mark => ⟨some mark.2, mark.1⟩

/-- The piece at the head of the input, if one starts there. -/
def first? : List Char → Option Piece
  | [] => none
  | c :: cs =>
    if isWordStart c then some (word (c :: cs.takeWhile isWordPart))
    else if c.isDigit then some ⟨some .number, numberText (c :: cs)⟩
    else if c = '-' ∧ cs.head?.any Char.isDigit then some ⟨some .number, c :: numberText cs⟩
    else if c = '"' then (stringTail? cs).map fun tail => ⟨some .string, c :: tail⟩
    else if isSpacing c then some ⟨none, c :: cs.takeWhile isSpacing⟩
    else if c = '\n' then some ⟨none, [c]⟩
    else if c = '/' ∧ cs.head? = some '/' then some ⟨none, c :: cs.takeWhile (· ≠ '\n')⟩
    else mark? (c :: cs)

end Piece

/-! ## The scan -/

/-- Why a scan stops before the end. -/
inductive ScanFault where
  /-- A quote that opens a string without an end. -/
  | unterminatedString
  /-- A character that starts nothing. -/
  | unexpected (c : Char)
deriving DecidableEq, Repr

/-- The words for a fault. -/
def ScanFault.message : ScanFault → String
  | .unterminatedString => "Unterminated string literal"
  | .unexpected c => "Unexpected character '" ++ String.singleton c ++ "'"

/-- The fault of a character at which no piece starts. -/
def ScanFault.ofChar (c : Char) : ScanFault :=
  if c = '"' then .unterminatedString else .unexpected c

/-- The outcome of cutting a source: its tokens in order and, if the scan stopped early, why and where.
A scan that reaches the end has the end as its last token. -/
structure Scan where
  /-- The tokens found. -/
  tokens : List Token
  /-- The fault at which the scan stopped. -/
  fault : Option (ScanFault × Position)
deriving DecidableEq, Repr

namespace Scan

/-- The scan with one more token in front. -/
def cons (t : Token) (s : Scan) : Scan :=
  { s with tokens := t :: s.tokens }

/-- The end of a source whose last line is that of `p`. -/
def finish (p : Position) : Scan where
  tokens := [⟨.endOfInput, "", ⟨p.line, 0⟩⟩]
  fault := none

/-- The scan of a source that is about to meet the characters at `p`, the first `pending` of which
belong to a piece already found. -/
def walk (p : Position) (pending : Nat) : List Char → Scan
  | [] => finish p
  | c :: cs =>
    match pending with
    | rest + 1 => walk (p.after c) rest cs
    | 0 =>
      match Piece.first? (c :: cs) with
      | none => ⟨[], some (ScanFault.ofChar c, p)⟩
      | some piece =>
        let later := walk (p.after c) (piece.text.length - 1) cs
        match piece.kind with
        | none => later
        | some kind => later.cons ⟨kind, String.ofList piece.text, p⟩

/-- The scan of a whole source. -/
def ofText (source : String) : Scan :=
  walk .start 0 source.toList

/-- What the user is told about the fault. -/
def diagnostic? (s : Scan) : Option Diagnostic :=
  s.fault.map fun (fault, place) =>
    Diagnostic.located { stage := .lexical, message := fault.message } place

end Scan

/-- The tokens of a source, the end included, or the first fault. -/
def tokensOf (source : String) : Except Diagnostic (List Token) :=
  let scan := Scan.ofText source
  match scan.diagnostic? with
  | none => .ok scan.tokens
  | some d => .error d

end ToraCompiler
