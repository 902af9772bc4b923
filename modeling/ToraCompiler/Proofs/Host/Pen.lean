import ToraCompiler.Proofs.Compilation.Batch
import ToraCompiler.Proofs.Host.Lines

/-!
# Writing with a pen

`stmtLines` is told the depth of its lines.  A `Pen` keeps it: it moves in before the lines of a block and out
again behind them, and it opens and closes the scopes of functions in the same way.  What it writes for a
statement is one text, with all lines of the statement joined.

A pen writes the same lines as `stmtLines` (`Pen.write_eq`), and behind every statement it is where it was
before.  So it is at rest between any two programs (`Pen.atRest_run`): outside of all blocks, with one set of
names.
-/

namespace ToraCompiler.Host

/-- Where the next line is written: the number of open blocks, and the names of the open scopes. -/
structure Pen where
  depth : Nat
  names : NameScopes

namespace Pen

/-! ## Strokes -/

/-- A pen that has written nothing yet. -/
def start : Pen := ⟨0, .ofGlobals []⟩

/-- Moves in by one block. -/
def indent (pen : Pen) : Pen := { pen with depth := pen.depth + 1 }

/-- Moves out by one block. -/
def dedent (pen : Pen) : Pen := { pen with depth := pen.depth - 1 }

/-- Introduces a name. -/
def declare (pen : Pen) (name : String) : Pen := { pen with names := pen.names.declare name }

/-- Opens the scope of a function. -/
def openScope (pen : Pen) (params : List String) : Pen := { pen with names := pen.names.push params }

/-- Closes the scope of a function. -/
def closeScope (pen : Pen) : Pen := { pen with names := pen.names.pop }

/-- A line where the pen is. -/
def line (pen : Pen) (text : String) : String := Line.render ⟨pen.depth, text⟩

/-- A block: the line that opens it, then what `body` writes further in. -/
def block (pen : Pen) (header : String) (body : Pen → List String × Pen) : String × Pen :=
  let (codes, inner) := body pen.indent
  (joinLines (pen.line header :: if codes = [] then [inner.line "pass"] else codes), inner.dedent)

mutual

/-- Writes a statement. -/
def stmt (pen : Pen) : Stmt → String × Pen
  | .declare name _ value =>
    let text := match value with
      | some e => exprText pen.names e
      | none => "None"
    ((pen.declare name.text).line (assignment name.text text), pen.declare name.text)
  | .function name params _ body =>
    let params := params.map (·.name.text)
    let (code, inner) := ((pen.declare name.text).openScope params).block ("def " ++ call name.text params ++ ":")
      fun pen => pen.stmts body
    (code, inner.closeScope)
  | .branch condition yes no =>
    let (code, pen₁) := pen.block ("if " ++ exprText pen.names condition ++ ":") fun pen => pen.stmts yes
    pen₁.otherwise code no
  | .loop condition body =>
    pen.block ("while " ++ exprText pen.names condition ++ ":") fun pen => pen.stmts body
  | .each item iterable body =>
    let header := "for " ++ item.text ++ " in " ++ exprText pen.names iterable ++ ":"
    (pen.declare item.text).block header fun pen => pen.stmts body
  | .print value newline => (pen.line (printing (exprText pen.names value) newline), pen)
  | .eval value => (pen.line (exprText pen.names value), pen)
  | .assign target value =>
    ((pen.declare target.text).line (assignment target.text (exprText pen.names value)), pen.declare target.text)

/-- Writes statements, each as a text of its own. -/
def stmts (pen : Pen) : List Stmt → List String × Pen
  | [] => ([], pen)
  | s :: rest =>
    let (code, pen₁) := pen.stmt s
    let (codes, pen₂) := pen₁.stmts rest
    (code :: codes, pen₂)

/-- Writes the second block of a branch below the first. -/
def otherwise (pen : Pen) (code : String) : Option (List Stmt) → String × Pen
  | none => (code, pen)
  | some body =>
    if body = [] then (code, pen)
    else
      let (other, pen') := pen.block "else:" fun pen => pen.stmts body
      (code ++ "\n" ++ other, pen')

end

/-- Writes a program. -/
def write (pen : Pen) (p : Program) : String × Pen :=
  let (codes, pen') := pen.stmts p
  (joinLines codes, pen')

/-! ## Joined lines -/

/-- The texts are the lines, some of them already joined. -/
structure Joins (codes : List String) (lines : List Line) : Prop where
  joined : joinLines codes = joinLines (lines.map Line.render)
  empty : codes = [] ↔ lines = []

theorem Joins.cons {codes : List String} {first lines : List Line} (nonempty : first ≠ [])
    (rest : Joins codes lines) : Joins (joinLines (first.map Line.render) :: codes) (first ++ lines) := by
  refine ⟨?_, by simp [nonempty]⟩
  by_cases none : lines = []
  · rw [rest.empty.2 none, none, List.append_nil]
    rfl
  · have more : codes ≠ [] := fun empty => none (rest.empty.1 empty)
    have right : lines.map Line.render ≠ [] := fun empty => none (List.map_eq_nil_iff.1 empty)
    have left : first.map Line.render ≠ [] := fun empty => nonempty (List.map_eq_nil_iff.1 empty)
    rw [joinLines_cons more, List.map_append, joinLines_append left right, rest.joined]

/-- What joins the body of a block, written further in, is joined by the block. -/
theorem block_eq {pen : Pen} {header : String} {body : Pen → List String × Pen} {lines : List Line}
    {names : NameScopes} (joins : Joins (body pen.indent).1 lines)
    (back : (body pen.indent).2 = ⟨pen.depth + 1, names⟩) :
    pen.block header body =
      (joinLines ((blockLines pen.depth header lines).map Line.render), ⟨pen.depth, names⟩) := by
  unfold block
  generalize body pen.indent = written at joins back
  rcases written with ⟨codes, inner⟩
  obtain rfl : inner = ⟨pen.depth + 1, names⟩ := back
  refine Prod.ext ?_ rfl
  by_cases none : codes = []
  · rw [joins.empty.1 none, none]
    rfl
  · have some : lines ≠ [] := fun empty => none (joins.empty.2 empty)
    dsimp only
    rw [if_neg none, blockLines, if_neg some]
    exact (Joins.cons (List.cons_ne_nil (Line.mk pen.depth header) []) joins).joined

end Pen

/-- The second block of a branch, if it has statements, is a block like others. -/
theorem elseLines_some {body : List Stmt} (nonempty : body ≠ []) (names : NameScopes) (depth : Nat) :
    elseLines names depth (some body) =
      (blockLines depth "else:" (stmtsLines names (depth + 1) body).1, (stmtsLines names (depth + 1) body).2) := by
  cases body with
  | nil => exact absurd rfl nonempty
  | cons s rest => simp only [elseLines, stmtsLines]

namespace Pen

/-! ## The lines of a pen -/

mutual

/-- A pen writes the lines of a statement, and is at the same depth behind it. -/
theorem stmt_eq : ∀ (pen : Pen) (s : Stmt),
    pen.stmt s = (joinLines ((stmtLines pen.names pen.depth s).1.map Line.render),
      ⟨pen.depth, (stmtLines pen.names pen.depth s).2⟩)
  | pen, .declare _ _ _ => by
    simp only [stmt, stmtLines]
    rfl
  | pen, .function name params _ body => by
    have ⟨joins, back⟩ := stmts_joins ((pen.declare name.text).openScope (params.map (·.name.text))).indent body
    simp only [stmt, stmtLines]
    rw [block_eq joins back]
    rfl
  | pen, .branch condition yes no => by
    have ⟨joins, back⟩ := stmts_joins pen.indent yes
    simp only [stmt, stmtLines]
    rw [block_eq joins back]
    exact otherwise_eq _ (List.cons_ne_nil _ _) no
  | pen, .loop condition body => by
    have ⟨joins, back⟩ := stmts_joins pen.indent body
    simp only [stmt, stmtLines]
    rw [block_eq joins back]
    rfl
  | pen, .each item iterable body => by
    have ⟨joins, back⟩ := stmts_joins (pen.declare item.text).indent body
    simp only [stmt, stmtLines]
    rw [block_eq joins back]
    rfl
  | pen, .print _ _ => by
    simp only [stmt, stmtLines]
    rfl
  | pen, .eval _ => by
    simp only [stmt, stmtLines]
    rfl
  | pen, .assign _ _ => by
    simp only [stmt, stmtLines]
    rfl

theorem stmts_joins : ∀ (pen : Pen) (p : List Stmt),
    Joins (pen.stmts p).1 (stmtsLines pen.names pen.depth p).1 ∧
      (pen.stmts p).2 = ⟨pen.depth, (stmtsLines pen.names pen.depth p).2⟩
  | pen, [] => by
    rw [stmts, stmtsLines]
    exact ⟨⟨rfl, by simp⟩, rfl⟩
  | pen, s :: rest => by
    have first := stmt_eq pen s
    have ⟨joins, back⟩ := stmts_joins ⟨pen.depth, (stmtLines pen.names pen.depth s).2⟩ rest
    simp only [stmts, stmtsLines, first]
    exact ⟨.cons (stmtLines_ne_nil _ _ s) joins, back⟩

theorem otherwise_eq : ∀ (pen : Pen) {first : List Line} (_ : first ≠ []) (no : Option (List Stmt)),
    pen.otherwise (joinLines (first.map Line.render)) no =
      (joinLines ((first ++ (elseLines pen.names pen.depth no).1).map Line.render),
        ⟨pen.depth, (elseLines pen.names pen.depth no).2⟩)
  | pen, first, _, none => by
    simp only [otherwise, elseLines, List.append_nil]
  | pen, first, nonempty, some body => by
    have ⟨joins, back⟩ := stmts_joins pen.indent body
    unfold otherwise
    by_cases none : body = []
    · rw [if_pos none, none, elseLines, List.append_nil]
    · rw [if_neg none, block_eq joins back, elseLines_some none]
      have left : first.map Line.render ≠ [] := fun empty => nonempty (List.map_eq_nil_iff.1 empty)
      rw [List.map_append, joinLines_append left (by simp [blockLines])]
      rfl

end

/-- A pen writes the lines of a program. -/
theorem write_eq (pen : Pen) (p : Program) :
    pen.write p = (joinLines ((stmtsLines pen.names pen.depth p).1.map Line.render),
      ⟨pen.depth, (stmtsLines pen.names pen.depth p).2⟩) := by
  have ⟨joins, back⟩ := stmts_joins pen p
  exact Prod.ext joins.joined back

/-! ## Between programs -/

/-- The pen is outside of all blocks, and there is exactly one set of names. -/
structure AtRest (pen : Pen) : Prop where
  depth : pen.depth = 0
  scopes : pen.names.toList.length = 1

theorem AtRest.start : start.AtRest := ⟨rfl, rfl⟩

/-- A pen at rest is given by the global names. -/
theorem AtRest.eq_ofGlobals {pen : Pen} (rest : pen.AtRest) : pen = ⟨0, .ofGlobals pen.names.globals⟩ := by
  rcases pen with ⟨depth, locals, globals⟩
  rcases rest with ⟨rfl, scopes⟩
  have noLocals : locals.length = 0 := by
    simpa [Scopes.toList] using scopes
  obtain rfl := List.length_eq_zero_iff.1 noLocals
  rfl

/-- A pen at rest writes a program as the text that it becomes on its own, and is at rest again. -/
theorem AtRest.write {pen : Pen} (rest : pen.AtRest) (p : Program) :
    (pen.write p).2.AtRest ∧
      ((pen.write p).1, (pen.write p).2.names.globals) = fragmentText pen.names.globals p := by
  obtain ⟨globals, rfl⟩ : ∃ globals, pen = ⟨0, .ofGlobals globals⟩ := ⟨_, rest.eq_ofGlobals⟩
  rw [write_eq]
  refine ⟨⟨rfl, ?_⟩, rfl⟩
  dsimp only
  rw [eq_ofGlobals_of_stmtsLines]
  rfl

/-- Writes one program after another. -/
def run (pen : Pen) : List Program → Pen
  | [] => pen
  | p :: rest => (pen.write p).2.run rest

/-- Between any two programs the pen is at rest. -/
theorem atRest_run {pen : Pen} (rest : pen.AtRest) (history : List Program) : (pen.run history).AtRest := by
  induction history generalizing pen with
  | nil => exact rest
  | cons p history ih => exact ih (rest.write p).1

end Pen
end ToraCompiler.Host
