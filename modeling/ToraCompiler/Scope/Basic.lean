import ToraCompiler.Catalog

/-!
# Scopes

A program has one global scope and, inside function bodies, one more scope for each open body.  `Scopes`
is that stack, for whatever a scope holds.  A symbol table is a stack of named symbols; the built-in names
lie below its global scope and can be hidden but not changed.
-/

namespace ToraCompiler

/-- The open scopes of a program, for scopes of type `α`. -/
structure Scopes (α : Type) where
  /-- The scopes of the open function bodies, the innermost first. -/
  locals : List α
  /-- The global scope. -/
  globals : α
deriving DecidableEq, Repr

namespace Scopes

variable {α : Type}

/-- Only the global scope. -/
def ofGlobals (globals : α) : Scopes α where
  locals := []
  globals := globals

/-- All open scopes, the innermost first. -/
def toList (s : Scopes α) : List α :=
  s.locals ++ [s.globals]

/-- Opens a scope. -/
def push (s : Scopes α) (scope : α) : Scopes α :=
  { s with locals := scope :: s.locals }

/-- Closes the innermost scope.  The global scope stays open. -/
def pop (s : Scopes α) : Scopes α :=
  { s with locals := s.locals.tail }

/-- The innermost scope. -/
def innermost (s : Scopes α) : α :=
  s.locals.head?.getD s.globals

/-- Changes the innermost scope. -/
def modifyInnermost (s : Scopes α) (f : α → α) : Scopes α :=
  match s.locals with
  | [] => { s with globals := f s.globals }
  | scope :: outer => { s with locals := f scope :: outer }

/-- Closing the scope just opened leads back. -/
@[simp]
theorem pop_push (s : Scopes α) (scope : α) : (s.push scope).pop = s := rfl

/-- The scope just opened is the innermost one. -/
@[simp]
theorem innermost_push (s : Scopes α) (scope : α) : (s.push scope).innermost = scope := rfl

/-- The scope just opened comes first. -/
@[simp]
theorem toList_push (s : Scopes α) (scope : α) : (s.push scope).toList = scope :: s.toList := rfl

/-- Changing the innermost scope changes what is found there. -/
@[simp]
theorem innermost_modifyInnermost (s : Scopes α) (f : α → α) :
    (s.modifyInnermost f).innermost = f s.innermost := by
  rcases s with ⟨_ | ⟨scope, outer⟩, globals⟩ <;> rfl

end Scopes

/-- What a name stands for. -/
inductive Symbol where
  /-- A variable, with the type that it is annotated with. -/
  | variable (type : Option String)
  /-- A function. -/
  | function
  /-- A constant. -/
  | constant
deriving DecidableEq, Repr

/-- Whether the symbol is a variable. -/
def Symbol.isVariable : Symbol → Bool
  | .variable _ => true
  | _ => false

/-- A scope: the names declared in it, each once, with what they stand for. -/
abbrev Scope := List (String × Symbol)

/-- What a built-in name stands for. -/
def Catalog.symbol? (name : String) : Option Symbol :=
  match function? name, constant? name with
  | some _, _ => some .function
  | none, some _ => some .constant
  | none, none => none

/-- The open scopes of a program that is being checked. -/
abbrev SymbolTable := Scopes Scope

namespace SymbolTable

/-- The table of a program that has declared nothing. -/
def empty : SymbolTable := .ofGlobals []

/-- The number of scopes, the one of the built-in names included. -/
def depth (t : SymbolTable) : Nat :=
  t.toList.length + 1

/-- What `name` stands for in the innermost scope. -/
def lookupInnermost (t : SymbolTable) (name : String) : Option Symbol :=
  t.innermost.lookup name

/-- What `name` stands for: the innermost scope that declares it decides, and the catalog if none
does. -/
def lookup (t : SymbolTable) (name : String) : Option Symbol :=
  (t.toList.findSome? (·.lookup name)).or (Catalog.symbol? name)

/-- Declares `name` in the innermost scope, or returns what it stands for there already. -/
def declare (t : SymbolTable) (name : String) (symbol : Symbol) : Except Symbol SymbolTable :=
  match t.lookupInnermost name with
  | some existing => .error existing
  | none => .ok (t.modifyInnermost ((name, symbol) :: ·))

/-- A declaration succeeds exactly if the innermost scope does not have the name yet. -/
theorem declare_eq_ok_iff {t t' : SymbolTable} {name : String} {symbol : Symbol} :
    t.declare name symbol = .ok t' ↔
      t.lookupInnermost name = none ∧ t' = t.modifyInnermost ((name, symbol) :: ·) := by
  unfold declare
  cases t.lookupInnermost name with
  | none => simp [eq_comm]
  | some existing => simp

end SymbolTable

end ToraCompiler
