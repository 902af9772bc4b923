import ToraCompiler.Diagnostic
import ToraCompiler.Number

/-!
# Program trees

What a program says, without how it is laid out.  Names keep the place where they were written, for
the messages of later stages.
-/

namespace ToraCompiler

/-- A name, as written at some place. -/
structure Name where
  /-- The name itself. -/
  text : String
  /-- Where it stands. -/
  position : Position
deriving DecidableEq, Repr

/-- The binary operators. -/
inductive BinaryOp where
  | eq
  | ne
  | le
  | ge
  | lt
  | gt
  | add
  | sub
  | mul
  | div
deriving DecidableEq, Repr

namespace BinaryOp

/-- All operators. -/
def all : List BinaryOp := [eq, ne, le, ge, lt, gt, add, sub, mul, div]

/-- How an operator is written, in this language and in the host language. -/
def symbol : BinaryOp → String
  | eq => "=="
  | ne => "!="
  | le => "<="
  | ge => ">="
  | lt => "<"
  | gt => ">"
  | add => "+"
  | sub => "-"
  | mul => "*"
  | div => "/"

/-- The operator that is written so. -/
def ofSymbol? (symbol : String) : Option BinaryOp :=
  all.find? (·.symbol = symbol)

/-- Every operator is the one that is written like it. -/
@[simp]
theorem ofSymbol?_symbol (op : BinaryOp) : ofSymbol? op.symbol = some op := by
  cases op <;> decide

end BinaryOp

/-- Expressions. -/
inductive Expr where
  /-- An operator between two operands. -/
  | binary (op : BinaryOp) (left right : Expr)
  /-- A call of a named function. -/
  | call (callee : Name) (args : List Expr)
  /-- A name that stands for its value. -/
  | name (name : Name)
  /-- A number. -/
  | number (value : Number)
  /-- A text, as it is after its escapes have been resolved. -/
  | str (value : String)
  /-- A list of expressions. -/
  | list (items : List Expr)
deriving Repr

/-- Whether the expression is a call of the function `name`. -/
def Expr.isCallOf (e : Expr) (name : String) : Bool :=
  match e with
  | .call callee _ => callee.text = name
  | _ => false

/-- A parameter, with the type that it is annotated with. -/
structure Param where
  /-- The name. -/
  name : Name
  /-- The type, as written. -/
  type : Option String
deriving DecidableEq, Repr

/-- Statements. -/
inductive Stmt where
  /-- Declares a variable. -/
  | declare (name : Name) (type : Option String) (value : Option Expr)
  /-- Declares a function. -/
  | function (name : Name) (params : List Param) (result : Option String) (body : List Stmt)
  /-- Runs one of two blocks.  A missing second block is not the same as an empty one. -/
  | branch (condition : Expr) (yes : List Stmt) (no : Option (List Stmt))
  /-- Repeats a block while the condition holds. -/
  | loop (condition : Expr) (body : List Stmt)
  /-- Runs a block for each item of a list. -/
  | each (item : Name) (iterable : Expr) (body : List Stmt)
  /-- Shows a value, with or without an end of line after it. -/
  | print (value : Expr) (newline : Bool)
  /-- Evaluates an expression for its effect. -/
  | eval (value : Expr)
  /-- Gives a variable a value. -/
  | assign (target : Name) (value : Expr)
deriving Repr

/-- A program is a row of statements. -/
abbrev Program := List Stmt

end ToraCompiler
