import ToraCompiler.Token.Literal
import ToraCompiler.Token.Scan
import ToraCompiler.Tree.Basic
import ToraCompiler.Tree.Reader

/-!
# The grammar

Readers for expressions, statements and programs.  An expression has three levels: comparisons of sums of
products of operands.  Each level goes from left to right, so `a - b - c` is `(a - b) - c`.  A statement
is known by its first token, and an assignment by its second.

Two habits of the language show here.  A number with a minus of its own, in the place of an operator, is
a subtraction of what follows its minus: `a -1` is `a - 1`.  And the word `in` after a loop variable
is optional, but when it stands there it is never the loop's list.
-/

namespace ToraCompiler

/-- The operator of a comparison. -/
def Kind.comparison? : Kind → Option BinaryOp
  | .equal => some .eq
  | .notEqual => some .ne
  | .lessEqual => some .le
  | .greaterEqual => some .ge
  | .less => some .lt
  | .greater => some .gt
  | _ => none

/-- The operator of a product. -/
def Kind.product? : Kind → Option BinaryOp
  | .star => some .mul
  | .slash => some .div
  | _ => none

/-- The operator of a sum. -/
def Kind.sum? : Kind → Option BinaryOp
  | .plus => some .add
  | .minus => some .sub
  | _ => none

/-- The name that a token spells. -/
def Token.toName (t : Token) : Name where
  text := t.text
  position := t.position

namespace Reader

/-! ## Expressions -/

/-- Reads a name. -/
def name : Reader Name := do
  let t ← expect .identifier
  return t.toName

/-- The number that a token denotes.  The token has been taken already. -/
def literal (t : Token) : Reader Expr :=
  match Number.ofLiteral? t.text with
  | some value => return .number value
  | none => refuse (.badNumber t.text t.position)

/-- Goes on with operators and operands, after the operand `left`. -/
def operations (operand : Reader Expr) (operator? : Kind → Option BinaryOp) : Expr → Reader Expr :=
  recurse fun again left => do
    let next ← peek
    match next.bind fun t => operator? t.kind with
    | none => return left
    | some op =>
      skip
      let right ← operand
      again (.binary op left right)

/-- Goes on with items, each after a comma. -/
def moreItems {α : Type} (item : Reader α) : Reader (List α) :=
  recurse (fun again _ => do
    if ← isNext .comma then
      skip
      let first ← item
      let rest ← again ()
      return first :: rest
    else return []) ()

/-- Reads items with commas between them, up to and with the token that closes the list. -/
def itemsUntil {α : Type} (close : Kind) (item : Reader α) : Reader (List α) := do
  if ← isNext close then
    skip
    return []
  else
    let first ← item
    let rest ← moreItems item
    let _ ← expect close
    return first :: rest

/-- Reads an operand: a literal, a name, a call, a list, or an expression in parentheses. -/
def operand (expression : Reader Expr) : Reader Expr := do
  match ← peek with
  | none => refuse (.unexpected none)
  | some t =>
    match t.kind with
    | .number =>
      skip
      literal t
    | .string =>
      skip
      return .str t.stringValue
    | .identifier =>
      skip
      if ← isNext .openParen then
        skip
        let args ← itemsUntil .closeParen expression
        return .call t.toName args
      else return .name t.toName
    | .openParen =>
      skip
      let inner ← expression
      let _ ← expect .closeParen
      return inner
    | .openBracket =>
      skip
      let items ← itemsUntil .closeBracket expression
      return .list items
    | _ => refuse (.unexpected (some t))

/-- Reads a product of operands. -/
def product (expression : Reader Expr) : Reader Expr := do
  let first ← operand expression
  operations (operand expression) Kind.product? first

/-- Goes on with the terms of a sum, after the sum `left`. -/
def moreTerms (expression : Reader Expr) : Expr → Reader Expr :=
  recurse fun again left => do
    match ← peek with
    | none => return left
    | some t =>
      match t.kind.sum? with
      | some op =>
        skip
        let right ← product expression
        again (.binary op left right)
      | none =>
        if t.isNegativeNumber then
          skip
          let first ← literal t.dropFirst
          let right ← operations (operand expression) Kind.product? first
          again (.binary .sub left right)
        else return left

/-- Reads a sum of products. -/
def sum (expression : Reader Expr) : Reader Expr := do
  let first ← product expression
  moreTerms expression first

/-- Reads a comparison of sums. -/
def comparison (expression : Reader Expr) : Reader Expr := do
  let first ← sum expression
  operations (sum expression) Kind.comparison? first

/-- Reads an expression. -/
def expression : Reader Expr :=
  recurse (fun again _ => comparison (again ())) ()

/-! ## Statements -/

/-- Reads the type after a colon, if there is a colon. -/
def typeAfterColon : Reader (Option String) := do
  if ← isNext .colon then
    skip
    match ← peek with
    | none => refuse (.expectedType none)
    | some t =>
      if t.kind = .identifier then
        skip
        return some t.text
      else refuse (.expectedType (some t))
  else return none

/-- Reads a parameter. -/
def param : Reader Param := do
  let name ← name
  let type ← typeAfterColon
  return { name, type }

/-- Reads parameters in parentheses. -/
def params : Reader (List Param) := do
  let _ ← expect .openParen
  itemsUntil .closeParen param

/-- Reads statements up to a closing brace or the end of the input. -/
def statementsUntilBrace (statement : Reader Stmt) : Reader (List Stmt) :=
  recurse (fun again _ => do
    match ← peek with
    | none => return []
    | some t =>
      if t.kind = .closeBrace then return []
      else
        let first ← statement
        let rest ← again ()
        return first :: rest) ()

/-- Reads statements in braces. -/
def block (statement : Reader Stmt) : Reader (List Stmt) := do
  let _ ← expect .openBrace
  let body ← statementsUntilBrace statement
  let _ ← expect .closeBrace
  return body

/-- Reads an expression in parentheses. -/
def inParens : Reader Expr := do
  let _ ← expect .openParen
  let inner ← expression
  let _ ← expect .closeParen
  return inner

/-- Reads an expression with a semicolon after it. -/
def expressionLine : Reader Expr := do
  let value ← expression
  let _ ← expect .semicolon
  return value

/-- Reads a declaration of a variable, after its keyword. -/
def declaration : Reader Stmt := do
  let name ← name
  let type ← typeAfterColon
  let _ ← expect .assign
  let value ← expressionLine
  return .declare name type (some value)

/-- Reads a declaration of a function, after its keyword. -/
def functionDeclaration (statement : Reader Stmt) : Reader Stmt := do
  let name ← name
  let params ← params
  let result ← typeAfterColon
  let body ← block statement
  return .function name params result body

/-- Reads a choice between blocks, after its keyword. -/
def branch (statement : Reader Stmt) : Reader Stmt := do
  let condition ← inParens
  let yes ← block statement
  if ← isNext .elseKeyword then
    skip
    let no ← block statement
    return .branch condition yes (some no)
  else return .branch condition yes none

/-- Reads a loop with a condition, after its keyword.  A parenthesis at the start always encloses the
whole condition. -/
def conditionLoop (statement : Reader Stmt) : Reader Stmt := do
  let condition ← if ← isNext .openParen then inParens else expression
  let body ← block statement
  return .loop condition body

/-- Takes the word `in`, if it comes next. -/
def skipIn : Reader Unit := do
  match ← peek with
  | none => return ()
  | some t => if t.kind = .identifier ∧ t.text = "in" then skip else return ()

/-- Reads a loop over a list, after its keyword. -/
def listLoop (statement : Reader Stmt) : Reader Stmt := do
  let item ← name
  skipIn
  let iterable ← expression
  let body ← block statement
  return .each item iterable body

/-- Reads a print statement, after its keyword. -/
def printing (newline : Bool) : Reader Stmt := do
  let value ← inParens
  let _ ← expect .semicolon
  return .print value newline

/-- Reads an assignment. -/
def assignment : Reader Stmt := do
  let target ← name
  let _ ← expect .assign
  let value ← expressionLine
  return .assign target value

/-- Reads a statement whose blocks hold statements read by `statement`.  A returned expression is a
statement like any other expression. -/
def statementWith (statement : Reader Stmt) : Reader Stmt := do
  match (← peek).map Token.kind with
  | some .letKeyword =>
    skip
    declaration
  | some .fnKeyword =>
    skip
    functionDeclaration statement
  | some .ifKeyword =>
    skip
    branch statement
  | some .whileKeyword =>
    skip
    conditionLoop statement
  | some .forKeyword =>
    skip
    listLoop statement
  | some .printKeyword =>
    skip
    printing false
  | some .printlnKeyword =>
    skip
    printing true
  | some .returnKeyword =>
    skip
    return .eval (← expressionLine)
  | some .identifier =>
    if (← peekSecond).any (·.kind = .assign) then assignment
    else return .eval (← expressionLine)
  | _ => return .eval (← expressionLine)

/-- Reads a statement. -/
def statement : Reader Stmt :=
  recurse (fun again _ => statementWith (again ())) ()

/-- Reads statements up to the end of the input. -/
def program : Reader Program :=
  recurse (fun again _ => do
    match ← peek with
    | none => return []
    | some _ =>
      let first ← statement
      let rest ← again ()
      return first :: rest) ()

end Reader

/-! ## Token rows with an end -/

/-- The tokens before the end of an input, and the place of the end. -/
structure Input where
  /-- The tokens that have not been read. -/
  tokens : List Token
  /-- Where the input ends. -/
  finish : Position
deriving DecidableEq, Repr

namespace Input

/-- The input that a row of tokens stands for.  Its first end token ends it; a row without one ends on
the line of its last token. -/
def ofTokens (ts : List Token) : Input where
  tokens := ts.takeWhile (·.kind ≠ .endOfInput)
  finish :=
    match ts.find? (·.kind = .endOfInput) with
    | some t => t.position
    | none => ⟨(ts.getLast?.map (·.position.line)).getD 1, 0⟩

/-- Reads from the input.  What is left is the same kind of input, also after a refusal. -/
def read {α : Type} (input : Input) (reader : Reader α) : Except Diagnostic α × Input :=
  match reader input.tokens with
  | .accept value rest => (.ok value, { input with tokens := rest })
  | .refuse reason rest => (.error (reason.diagnostic input.finish), { input with tokens := rest })

end Input

/-- The program that a row of tokens spells. -/
def Program.ofTokens (ts : List Token) : Except Diagnostic Program :=
  ((Input.ofTokens ts).read .program).1

/-- The program that a source spells. -/
def Program.ofSource (source : String) : Except Diagnostic Program := do
  let ts ← tokensOf source
  Program.ofTokens ts

end ToraCompiler
