import ToraCompiler.Scope.Basic
import ToraCompiler.Tree.Basic

/-!
# Checking the use of names

A program may use only names that are declared before, may declare a name only once in a scope, and may
call only functions.  The check goes through the program once, in order; the global scope that it ends
with is where the next program starts.
-/

namespace ToraCompiler

/-- The part that a declared name plays. -/
inductive Role where
  | variable
  | function
  | parameter
deriving DecidableEq, Repr

/-- The word for a role in messages. -/
def Role.label : Role → String
  | .variable => "Variable"
  | .function => "Function"
  | .parameter => "Parameter"

/-- A wrong use of a name. -/
inductive Misuse where
  /-- The scope declares the name already. -/
  | redeclared (role : Role) (name : Name)
  /-- A function that nobody declared is called. -/
  | unknownFunction (name : Name)
  /-- Something other than a function is called. -/
  | notFunction (name : Name)
  /-- A name that nobody declared is used. -/
  | unknownVariable (name : Name)
deriving DecidableEq, Repr

namespace Misuse

/-- The name that is used wrongly. -/
def name : Misuse → Name
  | .redeclared _ name | .unknownFunction name | .notFunction name | .unknownVariable name => name

/-- The words for a misuse. -/
def message : Misuse → String
  | .redeclared role name => role.label ++ " '" ++ name.text ++ "' already declared"
  | .unknownFunction name => "Function '" ++ name.text ++ "' not declared"
  | .notFunction name => "'" ++ name.text ++ "' is not a function"
  | .unknownVariable name => "Variable '" ++ name.text ++ "' not declared"

/-- What the user is told. -/
def diagnostic (m : Misuse) : Diagnostic :=
  Diagnostic.located { stage := .semantic, message := m.message } m.name.position

end Misuse

namespace SymbolTable

/-- Declares a name that the program writes. -/
def declareName (t : SymbolTable) (role : Role) (name : Name) (symbol : Symbol) :
    Except Misuse SymbolTable :=
  match t.declare name.text symbol with
  | .ok t' => .ok t'
  | .error _ => .error (.redeclared role name)

/-- Declares parameters in order. -/
def declareParams (t : SymbolTable) : List Param → Except Misuse SymbolTable
  | [] => .ok t
  | p :: rest => do
    let t' ← t.declareName .parameter p.name (.variable p.type)
    t'.declareParams rest

/-- Declares a loop variable, unless the innermost scope has a variable of that name. -/
def declareItem (t : SymbolTable) (item : Name) : Except Misuse SymbolTable :=
  match t.lookupInnermost item.text with
  | some (.variable _) => .ok t
  | _ => t.declareName .variable item (.variable none)

/-- Checks that a function of this name can be called. -/
def checkCallee (t : SymbolTable) (callee : Name) : Except Misuse Unit :=
  match t.lookup callee.text with
  | none => .error (.unknownFunction callee)
  | some .function => .ok ()
  | some _ => .error (.notFunction callee)

mutual

/-- Checks an expression. -/
def checkExpr (t : SymbolTable) : Expr → Except Misuse Unit
  | .binary _ left right => do
    t.checkExpr left
    t.checkExpr right
  | .call callee args => do
    t.checkCallee callee
    t.checkExprs args
  | .name name =>
    match t.lookup name.text with
    | some _ => .ok ()
    | none => .error (.unknownVariable name)
  | .number _ => .ok ()
  | .str _ => .ok ()
  | .list items => t.checkExprs items

/-- Checks expressions in order. -/
def checkExprs (t : SymbolTable) : List Expr → Except Misuse Unit
  | [] => .ok ()
  | e :: rest => do
    t.checkExpr e
    t.checkExprs rest

end

mutual

/-- Checks a statement, and gives the scopes after it.  A variable is declared before its value is
checked, so the value may use it. -/
def checkStmt (t : SymbolTable) : Stmt → Except Misuse SymbolTable
  | .declare name type value => do
    let t' ← t.declareName .variable name (.variable type)
    match value with
    | some e => t'.checkExpr e
    | none => .ok ()
    return t'
  | .function name params _ body => do
    let t' ← t.declareName .function name .function
    let inner ← declareParams (t'.push []) params
    let inner' ← inner.checkStmts body
    return inner'.pop
  | .branch condition yes no => do
    t.checkExpr condition
    let t' ← t.checkStmts yes
    t'.checkElse no
  | .loop condition body => do
    t.checkExpr condition
    t.checkStmts body
  | .each item iterable body => do
    t.checkExpr iterable
    let t' ← t.declareItem item
    t'.checkStmts body
  | .print value _ => do
    t.checkExpr value
    return t
  | .eval value => do
    t.checkExpr value
    return t
  | .assign _ value => do
    t.checkExpr value
    return t

/-- Checks statements in order. -/
def checkStmts (t : SymbolTable) : List Stmt → Except Misuse SymbolTable
  | [] => .ok t
  | s :: rest => do
    let t' ← t.checkStmt s
    t'.checkStmts rest

/-- Checks the second block of a branch, if there is one. -/
def checkElse (t : SymbolTable) : Option (List Stmt) → Except Misuse SymbolTable
  | none => .ok t
  | some body => t.checkStmts body

end

end SymbolTable

/-- Checks a program whose predecessors declared `globals`, and gives the global scope after it. -/
def Program.check (globals : Scope) (p : Program) : Except Diagnostic Scope :=
  match (SymbolTable.checkStmts (.ofGlobals globals) p) with
  | .ok t => .ok t.globals
  | .error m => .error m.diagnostic

end ToraCompiler
