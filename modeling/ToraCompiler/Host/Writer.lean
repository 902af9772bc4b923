import ToraCompiler.Host.Literal
import ToraCompiler.Host.Prologue
import ToraCompiler.Scope.Basic
import ToraCompiler.Tree.Basic

/-!
# Writing programs in the host language

A program becomes a list of lines, each with the depth of the block that it stands in.  An expression
becomes a piece of one line.  A name that the program itself has declared or assigned hides the built-in
of that name, so the writer keeps the names of the open scopes.
-/

namespace ToraCompiler.Host

/-! ## Names -/

/-- The names that the program has introduced in each open scope. -/
abbrev NameScopes := Scopes (List String)

namespace NameScopes

/-- Introduces a name in the innermost scope. -/
def declare (names : NameScopes) (name : String) : NameScopes :=
  names.modifyInnermost (·.insert name)

/-- Whether some open scope has the name. -/
def isDeclared (names : NameScopes) (name : String) : Bool :=
  names.toList.any (name ∈ ·)

end NameScopes

/-! ## Expressions -/

/-- Arguments or items, as a host text shows them. -/
def commaSeparated (items : List String) : String :=
  joinWith ", " items

/-- A call. -/
def call (callee : String) (args : List String) : String :=
  callee ++ "(" ++ commaSeparated args ++ ")"

/-- A call of the printing function, with the arguments already joined.  Without an end of line the host
has to be told so. -/
def printing (args : String) (newline : Bool) : String :=
  if newline then "print(" ++ args ++ ")"
  else if args = "" then "print(end='')"
  else "print(" ++ args ++ ", end='')"

/-- A call of a built-in function. -/
def builtinCall (b : Builtin) (args : List String) : String :=
  match b.form with
  | .byHostText => call b.host args
  | .byName => call b.name args
  | .parenthesized => call ("(" ++ b.host ++ ")") args
  | .printing newline => printing (commaSeparated args) newline
  | .append =>
    match args with
    | [list, item] => list ++ ".append(" ++ item ++ ")"
    | _ => call b.name args

/-- Whether a sum with such an operand can be a sum of numbers. -/
def mayBeNumber : Expr → Bool
  | .number _ => true
  | .name _ => true
  | _ => false

/-- Whether the text is a conversion to a string, judged by how it starts and ends. -/
def isConversion (text : String) : Bool :=
  "str(".toList.isPrefixOf text.toList && text.toList.getLast? = some ')'

/-- The text as an operand of a concatenation. -/
def asString (text : String) : String :=
  if isConversion text then text else "str(" ++ text ++ ")"

/-- A binary operation, from the texts of its operands.  A sum is one of numbers only if both operands
are numbers or names; any other sum concatenates strings. -/
def binaryText (op : BinaryOp) (left right : Expr) (leftText rightText : String) : String :=
  if op = .add ∧ ¬(mayBeNumber left ∧ mayBeNumber right) then
    asString leftText ++ " + " ++ asString rightText
  else "(" ++ leftText ++ " " ++ op.symbol ++ " " ++ rightText ++ ")"

/-- The words for truth values are names in this language, and constants of the host inside a list. -/
def itemText (text : String) : String :=
  if text = "true" then "True"
  else if text = "false" then "False"
  else text

/-- A name, or the host text of the constant that it stands for. -/
def nameText (names : NameScopes) (name : String) : String :=
  match Catalog.constant? name with
  | some constant => if names.isDeclared name then name else constant.host
  | none => name

/-- The built-in function that a call is taken for, unless the program has introduced the name. -/
def builtinFor? (names : NameScopes) (callee : String) : Option Builtin :=
  (Catalog.function? callee).filter fun _ => !names.isDeclared callee

/-- A call that is taken for one of a built-in function calls it by a name that the program has not introduced. -/
theorem mem_of_builtinFor? {names : NameScopes} {callee : String} {b : Builtin}
    (found : builtinFor? names callee = some b) :
    b ∈ Catalog.functions ∧ b.name = callee ∧ names.isDeclared callee = false := by
  obtain ⟨inCatalog, hidden⟩ := Option.filter_eq_some_iff.1 found
  have isName := List.find?_some inCatalog
  exact ⟨List.mem_of_find?_eq_some inCatalog, by simpa using isName, by simpa using hidden⟩

/-- A call of a named function, which may be a built-in one. -/
def callText (names : NameScopes) (callee : String) (args : List String) : String :=
  match builtinFor? names callee with
  | some builtin => builtinCall builtin args
  | none => call callee args

mutual

/-- The host text of an expression. -/
def exprText (names : NameScopes) : Expr → String
  | .binary op left right => binaryText op left right (exprText names left) (exprText names right)
  | .call callee args => callText names callee.text (exprTexts names args)
  | .name name => nameText names name.text
  | .number value => value.text
  | .str value => stringLiteral value
  | .list items => "[" ++ commaSeparated ((exprTexts names items).map itemText) ++ "]"

/-- The host texts of expressions. -/
def exprTexts (names : NameScopes) : List Expr → List String
  | [] => []
  | e :: rest => exprText names e :: exprTexts names rest

end

/-! ## Statements -/

/-- A line of host text. -/
structure Line where
  /-- How many blocks it stands in. -/
  depth : Nat
  /-- What it says. -/
  text : String
deriving DecidableEq, Repr

/-- The line with its indentation, four spaces for each block. -/
def Line.render (l : Line) : String :=
  String.ofList (List.replicate (4 * l.depth) ' ') ++ l.text

/-- A block: the line that opens it, then its lines.  The host does not allow an empty one. -/
def blockLines (depth : Nat) (header : String) (body : List Line) : List Line :=
  ⟨depth, header⟩ :: (if body = [] then [⟨depth + 1, "pass"⟩] else body)

/-- An assignment. -/
def assignment (target value : String) : String :=
  target ++ " = " ++ value

mutual

/-- The lines of a statement at some depth, and the names after it. -/
def stmtLines (names : NameScopes) (depth : Nat) : Stmt → List Line × NameScopes
  | .declare name _ value =>
    let text := match value with
      | some e => exprText names e
      | none => "None"
    ([⟨depth, assignment name.text text⟩], names.declare name.text)
  | .function name params _ body =>
    let params := params.map (·.name.text)
    let (lines, inner) := stmtsLines ((names.declare name.text).push params) (depth + 1) body
    (blockLines depth ("def " ++ call name.text params ++ ":") lines, inner.pop)
  | .branch condition yes no =>
    let header := "if " ++ exprText names condition ++ ":"
    let (yesLines, names₁) := stmtsLines names (depth + 1) yes
    let (noLines, names₂) := elseLines names₁ depth no
    (blockLines depth header yesLines ++ noLines, names₂)
  | .loop condition body =>
    let header := "while " ++ exprText names condition ++ ":"
    let (lines, names') := stmtsLines names (depth + 1) body
    (blockLines depth header lines, names')
  | .each item iterable body =>
    let header := "for " ++ item.text ++ " in " ++ exprText names iterable ++ ":"
    let (lines, names') := stmtsLines (names.declare item.text) (depth + 1) body
    (blockLines depth header lines, names')
  | .print value newline => ([⟨depth, printing (exprText names value) newline⟩], names)
  | .eval value => ([⟨depth, exprText names value⟩], names)
  | .assign target value =>
    ([⟨depth, assignment target.text (exprText names value)⟩], names.declare target.text)

/-- The lines of statements at some depth, and the names after them. -/
def stmtsLines (names : NameScopes) (depth : Nat) : List Stmt → List Line × NameScopes
  | [] => ([], names)
  | s :: rest =>
    let (first, names₁) := stmtLines names depth s
    let (others, names₂) := stmtsLines names₁ depth rest
    (first ++ others, names₂)

/-- The lines of the second block of a branch.  An empty one is left out, like a missing one. -/
def elseLines (names : NameScopes) (depth : Nat) : Option (List Stmt) → List Line × NameScopes
  | none => ([], names)
  | some [] => ([], names)
  | some (s :: rest) =>
    let (first, names₁) := stmtLines names (depth + 1) s
    let (others, names₂) := stmtsLines names₁ (depth + 1) rest
    (blockLines depth "else:" (first ++ others), names₂)

end

/-! ## Programs -/

/-- The lines of a program whose predecessors introduced `globals`, and the global names after it. -/
def programLines (globals : List String) (p : Program) : List String × List String :=
  let (lines, names) := stmtsLines (.ofGlobals globals) 0 p
  (lines.map Line.render, names.globals)

/-- The text of a program for a host that has run the prologue, and the global names after it. -/
def fragmentText (globals : List String) (p : Program) : String × List String :=
  let (lines, globals') := programLines globals p
  (joinLines lines, globals')

/-- The text of a program that stands alone, and the global names after it. -/
def moduleText (globals : List String) (p : Program) : String × List String :=
  let (lines, globals') := programLines globals p
  (joinLines (prologue :: "" :: lines), globals')

end ToraCompiler.Host
