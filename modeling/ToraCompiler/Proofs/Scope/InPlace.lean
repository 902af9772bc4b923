import ToraCompiler.Proofs.Scope.Events
import ToraCompiler.Scope.Analyzer

/-!
# Analysis in place

An analyzer changes one row of scopes as it goes, while the check of a program gives a new stack for each step and
keeps the built-in names below it.  Both do the same (`Analyzer.Mirrors`): a visit that comes to its end has made
of the scopes what the check says, and one that is stopped has left scopes that some stack describes, so the
built-in names are still in front and the global scope is next.  That is all that has to be known of them, since
then what is open is closed and the global scope is put back.  So between two programs an analyzer is a check with
a global scope (`Analyzer.analyze_ofGlobals`).
-/

namespace ToraCompiler

/-! ## The built-in names as a scope -/

theorem lookup_map_const {α : Type} (entries : List α) (key : α → String) (symbol : Symbol)
    (name : String) :
    (entries.map fun a => (key a, symbol)).lookup name =
      (entries.find? fun a => key a = name).map fun _ => symbol := by
  induction entries with
  | nil => rfl
  | cons a entries ih =>
    rw [List.map_cons, List.lookup_cons, List.find?_cons, ih]
    by_cases same : key a = name
    · simp [same]
    · have differs : (name == key a) = false := beq_false_of_ne (Ne.symm same)
      simp [same, differs]

theorem Catalog.symbol?_eq_lookup (name : String) : Catalog.symbol? name = Catalog.scope.lookup name := by
  unfold symbol? scope function? constant?
  rw [List.lookup_append, lookup_map_const, lookup_map_const]
  cases Catalog.functions.find? fun b => b.name = name with
  | some b => rfl
  | none =>
    cases Catalog.constants.find? fun c => c.name = name with
    | some c => rfl
    | none => rfl

namespace Analyzer

/-! ## Stacks in a row -/

/-- The analyzer with these scopes behind the built-in names. -/
def ofTable (t : SymbolTable) : Analyzer where
  scopes := Catalog.scope :: t.globals :: t.locals.reverse

/-- The scope of the innermost function body comes last. -/
theorem scopes_ofTable_cons (scope : Scope) (locals : List Scope) (globals : Scope) :
    (ofTable ⟨scope :: locals, globals⟩).scopes = (ofTable ⟨locals, globals⟩).scopes ++ [scope] := by
  simp only [ofTable, List.reverse_cons, List.cons_append]

theorem lookupInnermost_ofTable (t : SymbolTable) (name : String) :
    (ofTable t).lookupInnermost name = t.lookupInnermost name := by
  rcases t with ⟨_ | ⟨scope, locals⟩, globals⟩
  · rfl
  · rw [lookupInnermost, scopes_ofTable_cons, List.getLast?_concat]
    rfl

theorem lookup_ofTable (t : SymbolTable) (name : String) : (ofTable t).lookup name = t.lookup name := by
  have row : (ofTable t).scopes.reverse = t.toList ++ [Catalog.scope] := by simp [ofTable, Scopes.toList]
  rw [lookup, row, List.findSome?_append, SymbolTable.lookup, Catalog.symbol?_eq_lookup]
  simp

theorem push_ofTable (t : SymbolTable) : (ofTable t).push = ofTable (t.push []) := by
  simp [push, ofTable, Scopes.push]

theorem pop_ofTable (t : SymbolTable) : (ofTable t).pop = ofTable t.pop := by
  rcases t with ⟨_ | ⟨scope, locals⟩, globals⟩
  · rfl
  · have more : 2 < (ofTable ⟨scope :: locals, globals⟩).scopes.length := by simp [ofTable]
    rw [pop, if_pos more, scopes_ofTable_cons, List.dropLast_concat]
    rfl

theorem modifyInnermost_ofTable (f : Scope → Scope) (t : SymbolTable) :
    (ofTable t).modifyInnermost f = ofTable (t.modifyInnermost f) := by
  rcases t with ⟨_ | ⟨scope, locals⟩, globals⟩
  · rfl
  · rw [modifyInnermost, scopes_ofTable_cons, List.dropLast_concat, List.getLast?_concat, Option.map_some,
      Option.toList_some, ← scopes_ofTable_cons]
    rfl

/-! ## Visits and checks -/

/-- How a visit ends where the check has this outcome: with the scopes of the check, or with a misuse and the scopes
of some stack. -/
inductive Reflects : EStateM.Result Misuse Analyzer Unit → Except Misuse SymbolTable → Prop
  | ok (t : SymbolTable) : Reflects (.ok () (ofTable t)) (.ok t)
  | error (m : Misuse) (t : SymbolTable) : Reflects (.error m (ofTable t)) (.error m)

/-- The visit does in place what the check does. -/
def Mirrors (visit : Visit) (check : SymbolTable → Except Misuse SymbolTable) : Prop :=
  ∀ t, Reflects (visit (ofTable t)) (check t)

/-- The visit does in place what the test does, which leaves the scopes as they are. -/
def MirrorsTest (visit : Visit) (test : SymbolTable → Except Misuse Unit) : Prop :=
  Mirrors visit fun t => test t >>= fun _ => .ok t

namespace Mirrors

variable {first second : Visit} {check check' : SymbolTable → Except Misuse SymbolTable}

protected theorem pure : Mirrors (pure ()) .ok :=
  fun t => .ok t

protected theorem throw (m : Misuse) : Mirrors (throw m) fun _ => .error m :=
  fun t => .error m t

theorem modify {f : Analyzer → Analyzer} {g : SymbolTable → SymbolTable}
    (same : ∀ t, f (ofTable t) = ofTable (g t)) : Mirrors (modify f) fun t => .ok (g t) := by
  intro t
  show Reflects (.ok () (f (ofTable t))) (.ok (g t))
  rw [same]
  exact .ok _

theorem bind (before : Mirrors first check) (after : Mirrors second check') :
    Mirrors (do first; second) fun t => check t >>= check' := by
  intro t
  show Reflects (EStateM.bind first (fun _ => second) (ofTable t)) (check t >>= check')
  have outcome := before t
  unfold EStateM.bind
  generalize first (ofTable t) = result, check t = checked at outcome
  cases outcome with
  | ok t' => exact after t'
  | error m t' => exact .error m t'

/-- The scope of a function body is closed in either case. -/
theorem closing (inside : Mirrors first check) :
    Mirrors (closing first) fun t => check t >>= fun t' => .ok t'.pop := by
  intro t
  have outcome := inside t
  unfold Analyzer.closing
  dsimp only
  generalize first (ofTable t) = result, check t = checked at outcome
  cases outcome with
  | ok t' =>
    dsimp only
    rw [pop_ofTable]
    exact .ok _
  | error m t' =>
    dsimp only
    rw [pop_ofTable]
    exact .error m _

end Mirrors

namespace MirrorsTest

variable {first second : Visit} {test test' : SymbolTable → Except Misuse Unit}

protected theorem pure : MirrorsTest (pure ()) fun _ => .ok () :=
  Mirrors.pure

theorem before {check : SymbolTable → Except Misuse SymbolTable} (tested : MirrorsTest first test)
    (after : Mirrors second check) : Mirrors (do first; second) fun t => test t >>= fun _ => check t := by
  intro t
  have outcome := Mirrors.bind tested after t
  dsimp only at outcome ⊢
  rwa [bind_assoc] at outcome

theorem bind (tested : MirrorsTest first test) (after : MirrorsTest second test') :
    MirrorsTest (do first; second) fun t => test t >>= fun _ => test' t := by
  intro t
  have outcome := tested.before after t
  dsimp only at outcome ⊢
  rwa [bind_assoc]

end MirrorsTest

/-! ## Names -/

/-- A visit may look at the scopes before it goes on. -/
theorem get_bind (visit : Analyzer → Visit) (a : Analyzer) : (do visit (← get)) a = visit a a :=
  rfl

theorem mirrors_declareName (role : Role) (name : Name) (symbol : Symbol) :
    Mirrors (declareName role name symbol) fun t => t.declareName role name symbol := by
  intro t
  rw [declareName, get_bind, lookupInnermost_ofTable]
  unfold SymbolTable.declareName SymbolTable.declare
  dsimp only
  cases t.lookupInnermost name.text with
  | some existing => exact .error _ t
  | none => exact Mirrors.modify (f := fun a => a.modifyInnermost _) (modifyInnermost_ofTable _) t

theorem mirrors_declareParams : ∀ params : List Param,
    Mirrors (declareParams params) fun t => t.declareParams params
  | [] => .pure
  | _ :: rest => .bind (mirrors_declareName _ _ _) (mirrors_declareParams rest)

theorem mirrors_declareItem (item : Name) : Mirrors (declareItem item) fun t => t.declareItem item := by
  intro t
  rw [declareItem, get_bind, lookupInnermost_ofTable]
  unfold SymbolTable.declareItem
  dsimp only
  rcases t.lookupInnermost item.text with _ | (type | - | -)
  · exact mirrors_declareName _ _ _ t
  · exact .ok t
  · exact mirrors_declareName _ _ _ t
  · exact mirrors_declareName _ _ _ t

theorem mirrors_visitCallee (callee : Name) : MirrorsTest (visitCallee callee) fun t => t.checkCallee callee := by
  intro t
  rw [visitCallee, get_bind, lookup_ofTable]
  unfold SymbolTable.checkCallee
  dsimp only
  rcases t.lookup callee.text with _ | (type | - | -)
  · exact .error _ t
  · exact .error _ t
  · exact .ok t
  · exact .error _ t

/-- A constant has a symbol, so it need not be looked for a second time. -/
theorem symbol_of_constant {name : String} (t : SymbolTable) (constant : (Catalog.constant? name).isSome) :
    (t.lookup name).isSome := by
  unfold SymbolTable.lookup Catalog.symbol?
  rw [Option.isSome_or]
  cases Catalog.function? name with
  | some b => simp
  | none =>
    obtain ⟨c, found⟩ := Option.isSome_iff_exists.1 constant
    rw [found]
    simp

theorem mirrors_visitName (name : Name) :
    MirrorsTest (visitName name) fun t => t.checkExpr (.name name) := by
  intro t
  rw [visitName, get_bind, lookup_ofTable]
  dsimp only
  rw [SymbolTable.checkExpr]
  cases found : t.lookup name.text with
  | some symbol =>
    rw [if_pos (.inl rfl)]
    exact .ok t
  | none =>
    have unknown : ¬ ((none : Option Symbol).isSome ∨ (Catalog.constant? name.text).isSome) := by
      rintro (none | constant)
      · cases none
      · have known := symbol_of_constant t constant
        rw [found] at known
        cases known
    rw [if_neg unknown]
    exact .error _ t

/-! ## Trees -/

mutual

theorem mirrors_visitExpr : ∀ e : Expr, MirrorsTest (visitExpr e) fun t => t.checkExpr e
  | .binary _ left right => .bind (mirrors_visitExpr left) (mirrors_visitExpr right)
  | .call callee args => .bind (mirrors_visitCallee callee) (mirrors_visitExprs args)
  | .name name => mirrors_visitName name
  | .number _ => .pure
  | .str _ => .pure
  | .list items => mirrors_visitExprs items

theorem mirrors_visitExprs : ∀ es : List Expr, MirrorsTest (visitExprs es) fun t => t.checkExprs es
  | [] => .pure
  | e :: rest => .bind (mirrors_visitExpr e) (mirrors_visitExprs rest)

end

mutual

theorem mirrors_visitStmt : ∀ s : Stmt, Mirrors (visitStmt s) fun t => t.checkStmt s
  | .declare name type none => .bind (mirrors_declareName _ _ _) .pure
  | .declare name type (some value) => .bind (mirrors_declareName _ _ _) (mirrors_visitExpr value)
  | .function name params result body => by
    have inside := ((mirrors_declareParams params).bind (mirrors_visitStmts body)).closing
    simp only [bind_assoc] at inside
    exact (mirrors_declareName .function name .function).bind ((Mirrors.modify push_ofTable).bind inside)
  | .branch condition yes no =>
    MirrorsTest.before (mirrors_visitExpr condition) (.bind (mirrors_visitStmts yes) (mirrors_visitElse no))
  | .loop condition body => MirrorsTest.before (mirrors_visitExpr condition) (mirrors_visitStmts body)
  | .each item iterable body =>
    MirrorsTest.before (mirrors_visitExpr iterable) (.bind (mirrors_declareItem item) (mirrors_visitStmts body))
  | .print value _ => mirrors_visitExpr value
  | .eval value => mirrors_visitExpr value
  | .assign _ value => mirrors_visitExpr value

theorem mirrors_visitStmts : ∀ p : List Stmt, Mirrors (visitStmts p) fun t => t.checkStmts p
  | [] => .pure
  | s :: rest => .bind (mirrors_visitStmt s) (mirrors_visitStmts rest)

theorem mirrors_visitElse : ∀ no : Option (List Stmt), Mirrors (visitElse no) fun t => t.checkElse no
  | none => .pure
  | some body => mirrors_visitStmts body

end

/-! ## Programs -/

/-- Between programs an analyzer is a check that keeps the global scope if it fails. -/
theorem analyze_ofGlobals (globals : Scope) (p : Program) :
    (ofGlobals globals).analyze p =
      match p.check globals with
      | .ok globals' => (.ok (), ofGlobals globals')
      | .error d => (.error d, ofGlobals globals) := by
  have outcome := mirrors_visitStmts p (.ofGlobals globals)
  unfold analyze Program.check
  change Reflects (visitStmts p (ofGlobals globals)) _ at outcome
  dsimp only at outcome ⊢
  generalize visitStmts p (ofGlobals globals) = result,
    SymbolTable.checkStmts (.ofGlobals globals) p = checked at outcome
  cases outcome with
  | ok t => rfl
  | error m t => rfl

theorem serve_check_ofGlobals (globals : Scope) (p : Program) :
    (ofGlobals globals).serve (.check p) =
      match p.check globals with
      | .ok globals' => ofGlobals globals'
      | .error _ => ofGlobals globals := by
  unfold serve
  dsimp only
  rw [analyze_ofGlobals]
  cases p.check globals with
  | ok globals' => rfl
  | error d => rfl

/-- The analyzer after one more program. -/
theorem after_check (requests : List CheckRequest) (p : Program) :
    after (requests ++ [.check p]) = ((after requests).analyze p).2 :=
  List.foldl_append ..

end Analyzer

end ToraCompiler
