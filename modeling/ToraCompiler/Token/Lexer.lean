import ToraCompiler.Text.Slice
import ToraCompiler.Token.Scan

/-!
# Lexers

A lexer goes over a source by octets.  It knows the octet where it is, the number of the line, and the octet where
that line starts; the column of a character is counted afresh for every piece, in what stands between the start of
the line and the character.  Every part of the source that it looks at is cut out by octets, so there is no result
where it would cut out of range or inside a character, and none if it never came to an end.
-/

namespace ToraCompiler

/-- Where a lexer is in its source. -/
structure Lexer where
  /-- The octet of the next piece. -/
  index : Nat
  /-- The number of the line. -/
  line : Nat
  /-- The octet where the line starts. -/
  lineStart : Nat
deriving DecidableEq, Repr

namespace Lexer

/-- A lexer at the start of its source. -/
def start : Lexer where
  index := 0
  line := 1
  lineStart := 0

/-- The column of the character at an octet: one more than there are characters before it on its line. -/
def columnOf? (source : String) (x : Lexer) (offset : Nat) : Option Nat :=
  (slice? source x.lineStart offset).map fun before => before.length + 1

/-- Counts the lines that end among characters.  The first of these is `offset` octets behind the lexer. -/
def countLines (x : Lexer) (offset : Nat) : List Char → Lexer
  | [] => x
  | c :: cs =>
    let y := if c = '\n' then { x with line := x.line + 1, lineStart := x.index + offset + 1 } else x
    y.countLines (offset + c.utf8Size) cs

/-- Goes over so many octets. -/
def advance? (source : String) (x : Lexer) (octets : Nat) : Option Lexer :=
  (slice? source x.index (x.index + octets)).map fun consumed =>
    { x.countLines 0 consumed.toList with index := x.index + octets }

/-- What a lexer comes to next, and the lexer behind that: a token, or the fault at which it stops. -/
def next? (source : String) (x : Lexer) : Option (Except (ScanFault × Position) Token × Lexer) := do
  let rest ← slice? source x.index source.utf8ByteSize
  match rest.toList with
  | [] => return (.ok ⟨.endOfInput, "", ⟨x.line, 0⟩⟩, x)
  | c :: cs =>
    let place : Position := ⟨x.line, ← x.columnOf? source x.index⟩
    match Piece.first? (c :: cs) with
    | none => return (.error (.ofChar c, place), x)
    | some piece =>
      let text ← slice? rest 0 (String.ofList piece.text).utf8ByteSize
      let y ← x.advance? source text.utf8ByteSize
      match piece.kind with
      | some kind => return (.ok ⟨kind, text, place⟩, y)
      | none => y |>.next? source
partial_fixpoint

/-- All that a lexer comes to, up to the end of the source or a fault. -/
def scan? (source : String) (x : Lexer) : Option Scan := do
  match ← x.next? source with
  | (.error fault, _) => return ⟨[], some fault⟩
  | (.ok t, y) =>
    if t.kind = .endOfInput then return ⟨[t], none⟩
    else
      let later ← y |>.scan? source
      return later.cons t
partial_fixpoint

end Lexer

end ToraCompiler
