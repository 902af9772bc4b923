import ToraCompiler.Scope.Check

/-!
# Analyzers

An analyzer keeps its scopes from one program to the next, in one row: the built-in names, the global scope,
and a scope for each function body that is open.  It goes through a program in place.  A misuse stops it where
it is met, with functions open and names declared; then what is open is closed and the global scope is put back.
-/

namespace ToraCompiler

/-- The built-in names with what they stand for. -/
def Catalog.scope : Scope :=
  Catalog.functions.map (fun b => (b.name, .function)) ++
    Catalog.constants.map (fun c => (c.name, .constant))

/-- An analyzer. -/
structure Analyzer where
  /-- The open scopes, the innermost last. -/
  scopes : List Scope
deriving DecidableEq, Repr

namespace Analyzer

/-- An analyzer between two programs: the built-in names and a global scope. -/
def ofGlobals (globals : Scope) : Analyzer where
  scopes := [Catalog.scope, globals]

/-- An analyzer that has not met a program. -/
def new : Analyzer :=
  ofGlobals []

/-- The number of open scopes. -/
def depth (a : Analyzer) : Nat :=
  a.scopes.length

/-- The global scope. -/
def globals (a : Analyzer) : Scope :=
  a.scopes[1]?.getD []

/-- What `name` stands for in the innermost scope. -/
def lookupInnermost (a : Analyzer) (name : String) : Option Symbol :=
  a.scopes.getLast?.bind (·.lookup name)

/-- What `name` stands for: the innermost scope that has it decides. -/
def lookup (a : Analyzer) (name : String) : Option Symbol :=
  a.scopes.reverse.findSome? (·.lookup name)

/-- Opens a scope. -/
def push (a : Analyzer) : Analyzer where
  scopes := a.scopes ++ [[]]

/-- Closes the innermost scope.  The built-in names and the global scope stay open. -/
def pop (a : Analyzer) : Analyzer where
  scopes := if 2 < a.scopes.length then a.scopes.dropLast else a.scopes

/-- Changes the innermost scope. -/
def modifyInnermost (a : Analyzer) (f : Scope → Scope) : Analyzer where
  scopes := a.scopes.dropLast ++ (a.scopes.getLast?.map f).toList

/-! ## Going through a program -/

/-- A visit goes through a part of a program in place.  At a misuse it leaves the scopes as they are then. -/
abbrev Visit := EStateM Misuse Analyzer Unit

/-- Declares a name that the program writes, in the innermost scope. -/
def declareName (role : Role) (name : Name) (symbol : Symbol) : Visit := do
  match (← get).lookupInnermost name.text with
  | some _ => throw (.redeclared role name)
  | none => modify fun a => a.modifyInnermost ((name.text, symbol) :: ·)

/-- Declares parameters in order. -/
def declareParams : List Param → Visit
  | [] => pure ()
  | p :: rest => do
    declareName .parameter p.name (.variable p.type)
    declareParams rest

/-- Declares a loop variable, unless the innermost scope has a variable of that name. -/
def declareItem (item : Name) : Visit := do
  match (← get).lookupInnermost item.text with
  | some (.variable _) => pure ()
  | _ => declareName .variable item (.variable none)

/-- Checks that a function of this name can be called. -/
def visitCallee (callee : Name) : Visit := do
  match (← get).lookup callee.text with
  | none => throw (.unknownFunction callee)
  | some .function => pure ()
  | some _ => throw (.notFunction callee)

/-- Checks that a name is known. -/
def visitName (name : Name) : Visit := do
  if ((← get).lookup name.text).isSome ∨ (Catalog.constant? name.text).isSome then pure ()
  else throw (.unknownVariable name)

/-- Runs the visit of a function body, and closes its scope, also after a misuse. -/
def closing (body : Visit) : Visit := fun a =>
  match body a with
  | .ok () reached => .ok () reached.pop
  | .error m reached => .error m reached.pop

mutual

/-- Visits an expression. -/
def visitExpr : Expr → Visit
  | .binary _ left right => do
    visitExpr left
    visitExpr right
  | .call callee args => do
    visitCallee callee
    visitExprs args
  | .name name => visitName name
  | .number _ => pure ()
  | .str _ => pure ()
  | .list items => visitExprs items

/-- Visits expressions in order. -/
def visitExprs : List Expr → Visit
  | [] => pure ()
  | e :: rest => do
    visitExpr e
    visitExprs rest

end

mutual

/-- Visits a statement. -/
def visitStmt : Stmt → Visit
  | .declare name type value => do
    declareName .variable name (.variable type)
    match value with
    | some e => visitExpr e
    | none => pure ()
  | .function name params _ body => do
    declareName .function name .function
    modify push
    closing do
      declareParams params
      visitStmts body
  | .branch condition yes no => do
    visitExpr condition
    visitStmts yes
    visitElse no
  | .loop condition body => do
    visitExpr condition
    visitStmts body
  | .each item iterable body => do
    visitExpr iterable
    declareItem item
    visitStmts body
  | .print value _ => visitExpr value
  | .eval value => visitExpr value
  | .assign _ value => visitExpr value

/-- Visits statements in order. -/
def visitStmts : List Stmt → Visit
  | [] => pure ()
  | s :: rest => do
    visitStmt s
    visitStmts rest

/-- Visits the second block of a branch, if there is one. -/
def visitElse : Option (List Stmt) → Visit
  | none => pure ()
  | some body => visitStmts body

end

/-! ## Whole programs -/

/-- Closes all scopes but the built-in names and the global scope. -/
def truncate (a : Analyzer) : Analyzer where
  scopes := a.scopes.take 2

/-- Checks a program.  What is open at the end is closed, and after a misuse the global scope becomes what it
was before. -/
def analyze (a : Analyzer) (p : Program) : Except Diagnostic Unit × Analyzer :=
  match visitStmts p a with
  | .ok () reached => (.ok (), reached.truncate)
  | .error m reached => (.error m.diagnostic, { scopes := reached.truncate.scopes.set 1 a.globals })

end Analyzer

/-- What can be asked of an analyzer: to check one more program, or to forget all of them. -/
inductive CheckRequest where
  | check (p : Program)
  | reset

namespace Analyzer

/-- The analyzer after a request. -/
def serve (a : Analyzer) : CheckRequest → Analyzer
  | .check p => (a.analyze p).2
  | .reset => new

/-- The analyzer after requests, the first one to a new analyzer. -/
def after (requests : List CheckRequest) : Analyzer :=
  requests.foldl serve new

end Analyzer

end ToraCompiler
