import ToraCompiler.Text.Slice
import ToraCompiler.Tree.Grammar

/-!
# Reading a row by position

The grammar once more, for a row of tokens that stays whole and a position in it.  End tokens may stand
anywhere in the row, and there is one at its end.

A `Reader` takes tokens from a row that was cut at its first end token, and it is unrolled often enough.  Here
neither is built in.  A walk looks at the token at its position and at the one behind it, wherever these
stand.  It is a recursion without a bound, and a text is cut by octets: a walk that goes on for ever, or that
cuts a text where it cannot be cut, gives no result at all.
-/

namespace ToraCompiler

/-! ## Rows -/

/-- A row of tokens with an end token at its end. -/
structure Row where
  /-- The tokens. -/
  tokens : List Token
  /-- The last one is an end token. -/
  ended : ∃ t ∈ tokens.getLast?, t.kind = .endOfInput

namespace Row

/-- The row of the tokens.  If the last one is no end token, one is put behind it, on its line. -/
def ofTokens (ts : List Token) : Row :=
  if ended : ∃ t ∈ ts.getLast?, t.kind = .endOfInput then ⟨ts, ended⟩
  else
    { tokens := ts ++ [⟨.endOfInput, "", ⟨(ts.getLast?.map (·.position.line)).getD 1, 0⟩⟩]
      ended := ⟨_, List.getLast?_concat, rfl⟩ }

theorem length_pos (row : Row) : 0 < row.tokens.length := by
  obtain ⟨t, isLast, -⟩ := row.ended
  exact List.length_pos_iff.2 fun empty => by simp [empty] at isLast

/-- The token at a position, and the last token at every position beyond. -/
def token (row : Row) (p : Nat) : Token :=
  row.tokens.get ⟨min p (row.tokens.length - 1), by have := row.length_pos; omega⟩

/-- The position of the first end token. -/
def finish (row : Row) : Nat :=
  row.tokens.findIdx (·.kind = .endOfInput)

end Row

/-! ## Walks -/

/-- A way over a row: from a position on it gives a value or a finding, and the position where it stops. -/
abbrev Walk (α : Type) : Type :=
  ExceptT Diagnostic (StateT Nat Option) α

namespace Walk

variable {α : Type}

/-- What a walk gives from a position on, if it gives a result. -/
def result? (w : Walk α) (p : Nat) : Option (Except Diagnostic α × Nat) :=
  w.run.run p

/-- Stops at the token `t`. -/
def refuse (reason : Refusal) (t : Token) : Walk α :=
  throw (reason.diagnostic t.position)

/-- Cuts a part out of a text. -/
def cut (text : String) (low high : Nat) : Walk String :=
  liftM (slice? text low high)

/-- The number that a token denotes. -/
def literal (t : Token) : Walk Expr :=
  match Number.ofLiteral? t.text with
  | some value => return .number value
  | none => refuse (.badNumber t.text t.position) t

/-- The text that a string token denotes. -/
def stringLiteral (t : Token) : Walk Expr := do
  let body ← cut t.text 1 (t.text.utf8ByteSize - 1)
  return .str (String.ofList (unescape body.toList))

/-- The token without the minus that it starts with. -/
def magnitude (t : Token) : Walk Token := do
  let text ← cut t.text 1 t.text.utf8ByteSize
  return { t with text, position := ⟨t.position.line, t.position.column + 1⟩ }

end Walk

namespace Row

open Walk

/-- The token at the position. -/
def current (row : Row) : Walk Token := do
  return row.token (← get)

/-- The token behind the one at the position. -/
def following (row : Row) : Walk Token := do
  return row.token ((← get) + 1)

/-- Whether the token at the position is of this kind. -/
def isAt (row : Row) (kind : Kind) : Walk Bool := do
  return (← row.current).kind = kind

/-- Goes over the token at the position, unless it is an end token. -/
def advance (row : Row) : Walk Token := do
  let t ← row.current
  if t.kind ≠ .endOfInput then modify (· + 1)
  return t

/-- Goes over a token of this kind. -/
def expect (row : Row) (kind : Kind) : Walk Token := do
  let t ← row.current
  if t.kind = kind then row.advance else refuse (.expected kind (some t)) t

/-- Reads a name. -/
def name (row : Row) : Walk Name := do
  let t ← row.expect .identifier
  return t.toName

/-! ## Expressions -/

mutual

/-- Reads an expression. -/
def expression (row : Row) : Walk Expr :=
  row |>.comparison
partial_fixpoint

/-- Reads a comparison of sums. -/
def comparison (row : Row) : Walk Expr := do
  let first ← row |>.sum
  row |>.moreComparisons first
partial_fixpoint

/-- Goes on with comparisons, after the operand `left`. -/
def moreComparisons (row : Row) (left : Expr) : Walk Expr := do
  let t ← row.current
  match t.kind.comparison? with
  | none => return left
  | some op =>
    let _ ← row.advance
    let right ← row |>.sum
    row |>.moreComparisons (.binary op left right)
partial_fixpoint

/-- Reads a sum of products. -/
def sum (row : Row) : Walk Expr := do
  let first ← row |>.product
  row |>.moreTerms first
partial_fixpoint

/-- Goes on with the terms of a sum, after the sum `left`. -/
def moreTerms (row : Row) (left : Expr) : Walk Expr := do
  let t ← row.current
  match t.kind.sum? with
  | some op =>
    let _ ← row.advance
    let right ← row |>.product
    row |>.moreTerms (.binary op left right)
  | none =>
    if t.isNegativeNumber then
      let _ ← row.advance
      let first ← literal (← magnitude t)
      let right ← row |>.moreFactors first
      row |>.moreTerms (.binary .sub left right)
    else return left
partial_fixpoint

/-- Reads a product of operands. -/
def product (row : Row) : Walk Expr := do
  let first ← row |>.operand
  row |>.moreFactors first
partial_fixpoint

/-- Goes on with the factors of a product, after the product `left`. -/
def moreFactors (row : Row) (left : Expr) : Walk Expr := do
  let t ← row.current
  match t.kind.product? with
  | none => return left
  | some op =>
    let _ ← row.advance
    let right ← row |>.operand
    row |>.moreFactors (.binary op left right)
partial_fixpoint

/-- Reads an operand: a literal, a name, a call, a list, or an expression in parentheses. -/
def operand (row : Row) : Walk Expr := do
  let t ← row.current
  match t.kind with
  | .number =>
    let _ ← row.advance
    literal t
  | .string =>
    let _ ← row.advance
    stringLiteral t
  | .identifier =>
    if (← row.following).kind = .openParen then row |>.call
    else
      let _ ← row.advance
      return .name t.toName
  | .openParen =>
    let _ ← row.advance
    let inner ← row |>.expression
    let _ ← row.expect .closeParen
    return inner
  | .openBracket =>
    let _ ← row.advance
    let items ← row |>.expressionsUntil .closeBracket
    return .list items
  | .endOfInput => refuse (.unexpected none) t
  | _ => refuse (.unexpected (some t)) t
partial_fixpoint

/-- Reads a call. -/
def call (row : Row) : Walk Expr := do
  let callee ← row.name
  let _ ← row.expect .openParen
  let args ← row |>.expressionsUntil .closeParen
  return .call callee args
partial_fixpoint

/-- Reads expressions with commas between them, up to and with the token that closes the list. -/
def expressionsUntil (row : Row) (close : Kind) : Walk (List Expr) := do
  if ← row.isAt close then
    let _ ← row.expect close
    return []
  else
    let first ← row |>.expression
    let rest ← row |>.moreExpressions
    let _ ← row.expect close
    return first :: rest
partial_fixpoint

/-- Goes on with expressions, each after a comma. -/
def moreExpressions (row : Row) : Walk (List Expr) := do
  if ← row.isAt .comma then
    let _ ← row.advance
    let first ← row |>.expression
    let rest ← row |>.moreExpressions
    return first :: rest
  else return []
partial_fixpoint

end

/-! ## Statements -/

/-- Reads the type after a colon, if there is a colon. -/
def typeAfterColon (row : Row) : Walk (Option String) := do
  if ← row.isAt .colon then
    let _ ← row.advance
    let t ← row.current
    if t.kind = .identifier then
      let _ ← row.advance
      return some t.text
    else refuse (.expectedType (some t)) t
  else return none

/-- Reads a parameter. -/
def param (row : Row) : Walk Param := do
  let name ← row.name
  let type ← row.typeAfterColon
  return { name, type }

/-- Goes on with parameters, each after a comma. -/
def moreParams (row : Row) : Walk (List Param) := do
  if ← row.isAt .comma then
    let _ ← row.advance
    let first ← row.param
    let rest ← row |>.moreParams
    return first :: rest
  else return []
partial_fixpoint

/-- Reads parameters in parentheses. -/
def params (row : Row) : Walk (List Param) := do
  let _ ← row.expect .openParen
  if ← row.isAt .closeParen then
    let _ ← row.expect .closeParen
    return []
  else
    let first ← row.param
    let rest ← row.moreParams
    let _ ← row.expect .closeParen
    return first :: rest

/-- Reads an expression in parentheses. -/
def inParens (row : Row) : Walk Expr := do
  let _ ← row.expect .openParen
  let inner ← row.expression
  let _ ← row.expect .closeParen
  return inner

/-- Reads an expression with a semicolon after it. -/
def expressionLine (row : Row) : Walk Expr := do
  let value ← row.expression
  let _ ← row.expect .semicolon
  return value

/-- Reads a declaration of a variable. -/
def declaration (row : Row) : Walk Stmt := do
  let _ ← row.expect .letKeyword
  let name ← row.name
  let type ← row.typeAfterColon
  let _ ← row.expect .assign
  let value ← row.expressionLine
  return .declare name type (some value)

/-- Reads a print statement, whose keyword says whether a line ends behind it. -/
def printing (row : Row) : Walk Stmt := do
  let keyword ← row.advance
  let value ← row.inParens
  let _ ← row.expect .semicolon
  return .print value (keyword.kind = .printlnKeyword)

/-- Reads a returned expression. -/
def returning (row : Row) : Walk Stmt := do
  let _ ← row.expect .returnKeyword
  return .eval (← row.expressionLine)

/-- Reads an assignment. -/
def assignment (row : Row) : Walk Stmt := do
  let target ← row.name
  let _ ← row.expect .assign
  let value ← row.expressionLine
  return .assign target value

/-- Reads an expression that is a statement. -/
def evaluation (row : Row) : Walk Stmt := do
  return .eval (← row.expressionLine)

/-- Goes over the word `in`, if it comes next. -/
def skipIn (row : Row) : Walk Unit := do
  let t ← row.current
  if t.kind = .identifier ∧ t.text = "in" then
    let _ ← row.advance
    return ()
  else return ()

/-- Reads the condition of a loop.  A parenthesis at the start always encloses the whole condition. -/
def loopCondition (row : Row) : Walk Expr := do
  if ← row.isAt .openParen then row.inParens else row.expression

mutual

/-- Reads a statement. -/
def statement (row : Row) : Walk Stmt := do
  let t ← row.current
  match t.kind with
  | .letKeyword => row.declaration
  | .fnKeyword => row |>.functionDeclaration
  | .ifKeyword => row |>.branch
  | .whileKeyword => row |>.conditionLoop
  | .forKeyword => row |>.listLoop
  | .printKeyword => row.printing
  | .printlnKeyword => row.printing
  | .returnKeyword => row.returning
  | .identifier => if (← row.following).kind = .assign then row.assignment else row.evaluation
  | _ => row.evaluation
partial_fixpoint

/-- Reads statements in braces. -/
def block (row : Row) : Walk (List Stmt) := do
  let _ ← row.expect .openBrace
  let body ← row |>.statementsUntilBrace
  let _ ← row.expect .closeBrace
  return body
partial_fixpoint

/-- Reads statements up to a closing brace or an end token. -/
def statementsUntilBrace (row : Row) : Walk (List Stmt) := do
  let t ← row.current
  if t.kind = .closeBrace ∨ t.kind = .endOfInput then return []
  else
    let first ← row |>.statement
    let rest ← row |>.statementsUntilBrace
    return first :: rest
partial_fixpoint

/-- Reads a declaration of a function. -/
def functionDeclaration (row : Row) : Walk Stmt := do
  let _ ← row.expect .fnKeyword
  let name ← row.name
  let params ← row.params
  let result ← row.typeAfterColon
  let body ← row |>.block
  return .function name params result body
partial_fixpoint

/-- Reads a choice between blocks. -/
def branch (row : Row) : Walk Stmt := do
  let _ ← row.expect .ifKeyword
  let condition ← row.inParens
  let yes ← row |>.block
  if ← row.isAt .elseKeyword then
    let _ ← row.advance
    let no ← row |>.block
    return .branch condition yes (some no)
  else return .branch condition yes none
partial_fixpoint

/-- Reads a loop with a condition. -/
def conditionLoop (row : Row) : Walk Stmt := do
  let _ ← row.expect .whileKeyword
  let condition ← row.loopCondition
  let body ← row |>.block
  return .loop condition body
partial_fixpoint

/-- Reads a loop over a list. -/
def listLoop (row : Row) : Walk Stmt := do
  let _ ← row.expect .forKeyword
  let item ← row.name
  row.skipIn
  let iterable ← row.expression
  let body ← row |>.block
  return .each item iterable body
partial_fixpoint

end

/-- Reads statements up to an end token. -/
def program (row : Row) : Walk Program := do
  let t ← row.current
  if t.kind = .endOfInput then return []
  else
    let first ← row.statement
    let rest ← row |>.program
    return first :: rest
partial_fixpoint

/-! ## Calls in a row -/

/-- What `n` calls of `expression` and then one of `program` give on a row, each call from the position where
the one before it stopped, refused or not.  Each outcome comes with the position behind it. -/
def calls (row : Row) :
    Nat → Nat → Option (List (Except Diagnostic Expr × Nat) × Except Diagnostic Program × Nat)
  | 0, p => do
    let last ← row.program.result? p
    return ([], last)
  | n + 1, p => do
    let (outcome, q) ← row.expression.result? p
    let (outcomes, last) ← row.calls n q
    return ((outcome, q) :: outcomes, last)

end Row

/-- The program that a source spells, read by position.  A source that cannot be cut into tokens is not read. -/
def Program.walk? (source : String) : Option (Except Diagnostic Program) :=
  match tokensOf source with
  | .error d => some (.error d)
  | .ok ts => ((Row.ofTokens ts).program.result? 0).map (·.1)

end ToraCompiler
