/-!
# Diagnostics

What the pipeline says about a source that it rejects: which stage refused it, in which words, and
where.  Every stage stops at its first finding, so there is never more than one.
-/

namespace ToraCompiler

/-- A place in a source text.  Lines and columns count from 1, columns in characters; the end of the
input has column 0. -/
structure Position where
  /-- The line. -/
  line : Nat
  /-- The column. -/
  column : Nat
deriving DecidableEq, Repr

/-- The start of every source. -/
def Position.start : Position where
  line := 1
  column := 1

/-- The place after the character `c`, when `c` stands at `p`. -/
def Position.after (p : Position) (c : Char) : Position :=
  if c = '\n' then ⟨p.line + 1, 1⟩ else ⟨p.line, p.column + 1⟩

/-- The stage that rejects a source. -/
inductive Stage where
  /-- Cutting the text into tokens. -/
  | lexical
  /-- Reading the tokens by the grammar. -/
  | grammatical
  /-- Checking the use of names. -/
  | semantic
deriving DecidableEq, Repr

/-- The word for a stage in messages. -/
def Stage.label : Stage → String
  | .lexical => "lexical"
  | .grammatical => "syntax"
  | .semantic => "semantic"

/-- A finding, with as much of its place as is known. -/
structure Diagnostic where
  /-- The stage that refused the source. -/
  stage : Stage
  /-- What is wrong, without the place. -/
  message : String
  /-- The line, if known. -/
  line : Option Nat := none
  /-- The column, if known. -/
  column : Option Nat := none
deriving DecidableEq, Repr

namespace Diagnostic

/-- The same finding, at a known place. -/
def located (d : Diagnostic) (p : Position) : Diagnostic :=
  { d with line := some p.line, column := some p.column }

/-- The words for the place.  A column means nothing without its line. -/
def whereabouts (d : Diagnostic) : String :=
  match d.line, d.column with
  | some line, some column => " at line " ++ toString line ++ ", column " ++ toString column
  | some line, none => " at line " ++ toString line
  | none, _ => ""

/-- The finding on one line, as the user sees it. -/
def render (d : Diagnostic) : String :=
  d.stage.label ++ " error: " ++ d.message ++ d.whereabouts

end Diagnostic

end ToraCompiler
