import ToraCompiler.Proofs.Scope.Stack
import ToraCompiler.Scope.Check

/-!
# What a program does with names

To the check of names a program is a row of events: names are declared, used and called, and scopes are
opened and closed.  `Program.events` lists them in the order in which the check meets them, and
`SymbolTable.run` goes through such a row.  The check of a program is the run over its events
(`SymbolTable.checkStmts_eq_run`), so what holds along a run holds along a check.

The scopes that a program opens it also closes.  `NameEvent.depthAfterAll?` follows the number of open
scopes through a row of events, and `NameEvent.balanced_eventsAll` says that a program ends in the scope
where it began.
-/

namespace ToraCompiler

/-- What a name stands for that is declared in a role, with the type that it is annotated with. -/
def Role.symbol (role : Role) (type : Option String) : Symbol :=
  match role with
  | .function => .function
  | .variable | .parameter => .variable type

/-- Something that a program does with names. -/
inductive NameEvent where
  /-- Declares a name. -/
  | declare (role : Role) (name : Name) (type : Option String)
  /-- Makes a name the variable of a loop. -/
  | item (name : Name)
  /-- Uses the value of a name. -/
  | use (name : Name)
  /-- Calls a name. -/
  | call (callee : Name)
  /-- Opens a scope. -/
  | openScope
  /-- Closes the innermost scope. -/
  | closeScope
deriving DecidableEq, Repr

/-! ## The events of a program -/

mutual

/-- The events of an expression: a call comes before its arguments. -/
def Expr.events : Expr → List NameEvent
  | .binary _ left right => left.events ++ right.events
  | .call callee args => .call callee :: Expr.eventsAll args
  | .name n => [.use n]
  | .number _ => []
  | .str _ => []
  | .list items => Expr.eventsAll items

/-- The events of expressions in order. -/
def Expr.eventsAll : List Expr → List NameEvent
  | [] => []
  | e :: rest => e.events ++ Expr.eventsAll rest

end

/-- The event of a parameter. -/
def Param.event (p : Param) : NameEvent :=
  .declare .parameter p.name p.type

mutual

/-- The events of a statement.  A variable is declared before its value is looked at, and a loop variable
after the list; the target of an assignment is no event. -/
def Stmt.events : Stmt → List NameEvent
  | .declare name type value =>
    .declare .variable name type :: (value.map Expr.events).getD []
  | .function name params _ body =>
    .declare .function name none :: .openScope ::
      (params.map Param.event ++ Stmt.eventsAll body ++ [.closeScope])
  | .branch condition yes no => condition.events ++ Stmt.eventsAll yes ++ Stmt.eventsElse no
  | .loop condition body => condition.events ++ Stmt.eventsAll body
  | .each item iterable body => iterable.events ++ .item item :: Stmt.eventsAll body
  | .print value _ => value.events
  | .eval value => value.events
  | .assign _ value => value.events

/-- The events of statements in order. -/
def Stmt.eventsAll : List Stmt → List NameEvent
  | [] => []
  | s :: rest => s.events ++ Stmt.eventsAll rest

/-- The events of the second block of a branch. -/
def Stmt.eventsElse : Option (List Stmt) → List NameEvent
  | none => []
  | some body => Stmt.eventsAll body

end

/-- The events of a program. -/
def Program.events (p : Program) : List NameEvent :=
  Stmt.eventsAll p

theorem Stmt.eventsAll_append (p q : List Stmt) :
    Stmt.eventsAll (p ++ q) = Stmt.eventsAll p ++ Stmt.eventsAll q := by
  induction p with
  | nil => rfl
  | cons s p ih => rw [List.cons_append, Stmt.eventsAll, ih, Stmt.eventsAll, List.append_assoc]

theorem bind_eq_ok_iff {ε α β : Type} {x : Except ε α} {next : α → Except ε β} {b : β} :
    (x >>= next) = .ok b ↔ ∃ a, x = .ok a ∧ next a = .ok b := by
  cases x with
  | error e => simp [bind, Except.bind]
  | ok a => simp [bind, Except.bind]

namespace SymbolTable

/-! ## Runs over events -/

/-- The scopes after an event, if it is no misuse. -/
def step (t : SymbolTable) : NameEvent → Except Misuse SymbolTable
  | .declare role name type => t.declareName role name (role.symbol type)
  | .item name => t.declareItem name
  | .use name =>
    match t.lookup name.text with
    | some _ => .ok t
    | none => .error (.unknownVariable name)
  | .call callee => do
    t.checkCallee callee
    return t
  | .openScope => .ok (t.push [])
  | .closeScope => .ok t.pop

/-- The scopes after a row of events, up to the first misuse. -/
def run (t : SymbolTable) : List NameEvent → Except Misuse SymbolTable
  | [] => .ok t
  | e :: rest => do
    let t' ← t.step e
    t'.run rest

theorem run_cons (t : SymbolTable) (e : NameEvent) (es : List NameEvent) :
    t.run (e :: es) = t.step e >>= fun t' => t'.run es := rfl

theorem run_append (t : SymbolTable) (es es' : List NameEvent) :
    t.run (es ++ es') = t.run es >>= fun t' => t'.run es' := by
  induction es generalizing t with
  | nil => rfl
  | cons e es ih =>
    rw [List.cons_append, run_cons, run_cons]
    cases t.step e with
    | error m => rfl
    | ok t' => exact ih t'

/-! ## The check is a run -/

/-- A check without effect, seen as a run. -/
theorem bind_ok_bind {check : Except Misuse Unit} {t : SymbolTable}
    (next : SymbolTable → Except Misuse SymbolTable) :
    ((check >>= fun _ => .ok t) >>= next) = check >>= fun _ => next t := by
  cases check <;> rfl

mutual

theorem run_exprEvents (t : SymbolTable) : ∀ e : Expr,
    t.run e.events = t.checkExpr e >>= fun _ => .ok t
  | .binary op left right => by
    rw [Expr.events, run_append, run_exprEvents t left, bind_ok_bind, run_exprEvents t right, checkExpr]
    cases t.checkExpr left <;> rfl
  | .call callee args => by
    rw [Expr.events, run_cons, checkExpr]
    simp only [step]
    cases t.checkCallee callee with
    | error m => rfl
    | ok _ => exact run_exprsEvents t args
  | .name n => by
    rw [Expr.events, run_cons, checkExpr]
    simp only [step]
    cases t.lookup n.text <;> rfl
  | .number _ => rfl
  | .str _ => rfl
  | .list items => by
    rw [Expr.events, run_exprsEvents t items, checkExpr]

theorem run_exprsEvents (t : SymbolTable) : ∀ es : List Expr,
    t.run (Expr.eventsAll es) = t.checkExprs es >>= fun _ => .ok t
  | [] => rfl
  | e :: rest => by
    rw [Expr.eventsAll, run_append, run_exprEvents t e, bind_ok_bind, run_exprsEvents t rest, checkExprs]
    cases t.checkExpr e <;> rfl

end

theorem run_paramEvents (t : SymbolTable) (params : List Param) :
    t.run (params.map Param.event) = t.declareParams params := by
  induction params generalizing t with
  | nil => rfl
  | cons p params ih =>
    rw [List.map_cons, run_cons, declareParams]
    simp only [Param.event, step, Role.symbol]
    cases t.declareName .parameter p.name (.variable p.type) with
    | error m => rfl
    | ok t' => exact ih t'

mutual

theorem checkStmt_eq_run : ∀ (t : SymbolTable) (s : Stmt), t.checkStmt s = t.run s.events
  | t, .declare name type value => by
    rw [Stmt.events, run_cons, checkStmt]
    simp only [step, Role.symbol]
    cases t.declareName .variable name (.variable type) with
    | error m => rfl
    | ok t' =>
      cases value with
      | none => rfl
      | some e => exact (run_exprEvents t' e).symm
  | t, .function name params _ body => by
    rw [Stmt.events, run_cons, checkStmt]
    simp only [step, Role.symbol]
    cases t.declareName .function name .function with
    | error m => rfl
    | ok t' =>
      show _ = SymbolTable.run (t'.push []) _
      rw [run_append, run_append, run_paramEvents]
      dsimp only [bind, Except.bind]
      cases declareParams (t'.push []) params with
      | error m => rfl
      | ok inner =>
        dsimp only
        rw [checkStmts_eq_run inner body]
        cases inner.run (Stmt.eventsAll body) <;> rfl
  | t, .branch condition yes no => by
    rw [Stmt.events, run_append, run_append, run_exprEvents, bind_ok_bind, checkStmt,
      ← checkStmts_eq_run t yes]
    cases t.checkExpr condition with
    | error m => rfl
    | ok _ =>
      dsimp only [bind, Except.bind]
      cases t.checkStmts yes with
      | error m => rfl
      | ok t' => exact checkElse_eq_run t' no
  | t, .loop condition body => by
    rw [Stmt.events, run_append, run_exprEvents, bind_ok_bind, checkStmt, ← checkStmts_eq_run t body]
  | t, .each item iterable body => by
    rw [Stmt.events, run_append, run_exprEvents, bind_ok_bind, checkStmt]
    simp only [run_cons, step]
    cases t.checkExpr iterable with
    | error m => rfl
    | ok _ =>
      dsimp only [bind, Except.bind]
      cases t.declareItem item with
      | error m => rfl
      | ok t' => exact checkStmts_eq_run t' body
  | t, .print value _ => by rw [Stmt.events, run_exprEvents, checkStmt]; rfl
  | t, .eval value => by rw [Stmt.events, run_exprEvents, checkStmt]; rfl
  | t, .assign _ value => by rw [Stmt.events, run_exprEvents, checkStmt]; rfl

/-- The check of statements is the run over their events. -/
theorem checkStmts_eq_run : ∀ (t : SymbolTable) (p : List Stmt),
    t.checkStmts p = t.run (Stmt.eventsAll p)
  | t, [] => rfl
  | t, s :: rest => by
    rw [Stmt.eventsAll, run_append, checkStmts, ← checkStmt_eq_run t s]
    cases t.checkStmt s with
    | error m => rfl
    | ok t' => exact checkStmts_eq_run t' rest

theorem checkElse_eq_run : ∀ (t : SymbolTable) (no : Option (List Stmt)),
    t.checkElse no = t.run (Stmt.eventsElse no)
  | _, none => rfl
  | t, some body => checkStmts_eq_run t body

end

theorem checkStmts_append (t : SymbolTable) (p q : List Stmt) :
    t.checkStmts (p ++ q) = t.checkStmts p >>= fun t' => t'.checkStmts q := by
  simp only [checkStmts_eq_run, Stmt.eventsAll_append, run_append]

end SymbolTable

/-! ## Open scopes -/

namespace NameEvent

/-- How many scopes are open inside some scope, if there were `depth` before the event.  Nothing, if the
event closes that scope itself. -/
def depthAfter? (depth : Nat) : NameEvent → Option Nat
  | .openScope => some (depth + 1)
  | .closeScope => if depth = 0 then none else some (depth - 1)
  | _ => some depth

/-- The same for a row of events. -/
def depthAfterAll? (depth : Nat) (es : List NameEvent) : Option Nat :=
  es.foldlM depthAfter? depth

theorem depthAfterAll?_cons (depth : Nat) (e : NameEvent) (es : List NameEvent) :
    depthAfterAll? depth (e :: es) = (depthAfter? depth e).bind (depthAfterAll? · es) := rfl

theorem depthAfterAll?_singleton (depth : Nat) (e : NameEvent) :
    depthAfterAll? depth [e] = depthAfter? depth e := by
  rw [depthAfterAll?_cons]
  cases depthAfter? depth e <;> rfl

theorem depthAfterAll?_append (depth : Nat) (es es' : List NameEvent) :
    depthAfterAll? depth (es ++ es') =
      (depthAfterAll? depth es).bind (depthAfterAll? · es') :=
  List.foldlM_append

/-- Whether a row of events closes exactly the scopes that it opens. -/
def Balanced (es : List NameEvent) : Prop :=
  ∀ depth, depthAfterAll? depth es = some depth

theorem Balanced.nil : Balanced [] := fun _ => rfl

theorem Balanced.append {es es' : List NameEvent} (left : Balanced es) (right : Balanced es') :
    Balanced (es ++ es') := by
  intro depth
  rw [depthAfterAll?_append, left depth]
  exact right depth

theorem Balanced.cons {e : NameEvent} {es : List NameEvent}
    (plain : ∀ depth, depthAfter? depth e = some depth) (rest : Balanced es) : Balanced (e :: es) := by
  intro depth
  rw [depthAfterAll?_cons, plain depth]
  exact rest depth

theorem Balanced.scope {es : List NameEvent} (inner : Balanced es) :
    Balanced (.openScope :: (es ++ [.closeScope])) := by
  intro depth
  rw [depthAfterAll?_cons]
  show depthAfterAll? (depth + 1) (es ++ [.closeScope]) = some depth
  rw [depthAfterAll?_append, inner (depth + 1)]
  rfl

mutual

theorem balanced_exprEvents : ∀ e : Expr, Balanced e.events
  | .binary _ left right => (balanced_exprEvents left).append (balanced_exprEvents right)
  | .call _ args => (balanced_exprsEvents args).cons fun _ => rfl
  | .name _ => Balanced.nil.cons fun _ => rfl
  | .number _ => .nil
  | .str _ => .nil
  | .list items => balanced_exprsEvents items

theorem balanced_exprsEvents : ∀ es : List Expr, Balanced (Expr.eventsAll es)
  | [] => .nil
  | e :: rest => (balanced_exprEvents e).append (balanced_exprsEvents rest)

end

theorem balanced_paramEvents (params : List Param) : Balanced (params.map Param.event) := by
  induction params with
  | nil => exact .nil
  | cons p params ih => exact ih.cons fun _ => rfl

mutual

theorem balanced_events : ∀ s : Stmt, Balanced s.events
  | .declare _ _ none => Balanced.nil.cons fun _ => rfl
  | .declare _ _ (some e) => (balanced_exprEvents e).cons fun _ => rfl
  | .function _ params _ body =>
    (((balanced_paramEvents params).append (balanced_eventsAll body)).scope).cons fun _ => rfl
  | .branch condition yes no =>
    ((balanced_exprEvents condition).append (balanced_eventsAll yes)).append (balanced_eventsElse no)
  | .loop condition body => (balanced_exprEvents condition).append (balanced_eventsAll body)
  | .each _ iterable body =>
    (balanced_exprEvents iterable).append ((balanced_eventsAll body).cons fun _ => rfl)
  | .print value _ => balanced_exprEvents value
  | .eval value => balanced_exprEvents value
  | .assign _ value => balanced_exprEvents value

/-- A program closes exactly the scopes that it opens. -/
theorem balanced_eventsAll : ∀ p : List Stmt, Balanced (Stmt.eventsAll p)
  | [] => .nil
  | s :: rest => (balanced_events s).append (balanced_eventsAll rest)

theorem balanced_eventsElse : ∀ no : Option (List Stmt), Balanced (Stmt.eventsElse no)
  | none => .nil
  | some body => balanced_eventsAll body

end

end NameEvent

namespace SymbolTable

open NameEvent

/-! ## What single events do -/

theorem declareName_eq_ok_iff {t t' : SymbolTable} {role : Role} {name : Name} {symbol : Symbol} :
    t.declareName role name symbol = .ok t' ↔
      t.lookupInnermost name.text = none ∧ t' = t.modifyInnermost ((name.text, symbol) :: ·) := by
  rw [← declare_eq_ok_iff]
  unfold declareName
  cases t.declare name.text symbol with
  | ok t'' => simp
  | error existing => simp

theorem declareName_eq_error_iff {t : SymbolTable} {role : Role} {name : Name} {symbol : Symbol}
    {m : Misuse} :
    t.declareName role name symbol = .error m ↔
      (t.lookupInnermost name.text).isSome ∧ m = .redeclared role name := by
  unfold declareName declare
  cases t.lookupInnermost name.text with
  | none => simp
  | some existing => simp [eq_comm]

/-- A loop variable is declared unless the innermost scope has a variable of that name. -/
theorem declareItem_eq (t : SymbolTable) (name : Name) :
    t.declareItem name =
      if (t.lookupInnermost name.text).any Symbol.isVariable then .ok t
      else t.declareName .variable name (.variable none) := by
  unfold declareItem
  cases t.lookupInnermost name.text with
  | none => rfl
  | some symbol => cases symbol <;> rfl

theorem checkCallee_eq_ok_iff {t : SymbolTable} {callee : Name} :
    t.checkCallee callee = .ok () ↔ t.lookup callee.text = some .function := by
  unfold checkCallee
  cases t.lookup callee.text with
  | none => simp
  | some symbol => cases symbol <;> simp

theorem length_locals_declareName {t t' : SymbolTable} {role : Role} {name : Name} {symbol : Symbol}
    (h : t.declareName role name symbol = .ok t') : t'.locals.length = t.locals.length := by
  obtain ⟨-, rfl⟩ := declareName_eq_ok_iff.1 h
  exact Scopes.length_locals_modifyInnermost _ _

theorem step_call_eq_ok_iff {t t' : SymbolTable} {callee : Name} :
    t.step (.call callee) = .ok t' ↔ t.lookup callee.text = some .function ∧ t' = t := by
  rw [← checkCallee_eq_ok_iff]
  simp only [step]
  cases t.checkCallee callee with
  | error m => simp [bind, Except.bind]
  | ok u => simp [bind, Except.bind, pure, Except.pure, eq_comm]

theorem step_use_eq_ok_iff {t t' : SymbolTable} {name : Name} :
    t.step (.use name) = .ok t' ↔ (t.lookup name.text).isSome ∧ t' = t := by
  simp only [step]
  cases t.lookup name.text with
  | none => simp
  | some symbol => simp [eq_comm]

/-- The number of local scopes follows the events. -/
theorem length_locals_step {t t' : SymbolTable} {e : NameEvent} (h : t.step e = .ok t')
    {depth : Nat} (below : depthAfter? t.locals.length e = some depth) :
    t'.locals.length = depth := by
  cases e with
  | declare role name type =>
    obtain rfl := Option.some.inj below
    exact length_locals_declareName h
  | item name =>
    obtain rfl := Option.some.inj below
    simp only [step, declareItem_eq] at h
    split at h
    · cases h
      rfl
    · exact length_locals_declareName h
  | use name =>
    obtain rfl := Option.some.inj below
    rw [(step_use_eq_ok_iff.1 h).2]
  | call callee =>
    obtain rfl := Option.some.inj below
    rw [(step_call_eq_ok_iff.1 h).2]
  | openScope =>
    obtain rfl := Option.some.inj below
    cases h
    rfl
  | closeScope =>
    cases h
    simp only [depthAfter?] at below
    split at below
    · cases below
    · obtain rfl := Option.some.inj below
      exact List.length_tail

theorem length_locals_run {t t' : SymbolTable} {es : List NameEvent} (h : t.run es = .ok t')
    {depth : Nat} (below : depthAfterAll? t.locals.length es = some depth) :
    t'.locals.length = depth := by
  induction es generalizing t with
  | nil =>
    cases h
    exact Option.some.inj below
  | cons e es ih =>
    rw [depthAfterAll?_cons, Option.bind_eq_some_iff] at below
    obtain ⟨middle, first, rest⟩ := below
    obtain ⟨t₁, stepped, later⟩ := bind_eq_ok_iff.1 h
    refine ih later ?_
    rwa [length_locals_step stepped first]

/-- A program that starts in the global scope ends there. -/
theorem eq_ofGlobals_of_checkStmts {globals : Scope} {t : SymbolTable} {p : List Stmt}
    (h : checkStmts (.ofGlobals globals) p = .ok t) : t = .ofGlobals t.globals := by
  rw [checkStmts_eq_run] at h
  have noLocals : t.locals.length = 0 := length_locals_run h (balanced_eventsAll p 0)
  rcases t with ⟨locals, globals'⟩
  obtain rfl := List.length_eq_zero_iff.1 noLocals
  rfl

/-! ## What an accepted statement has passed -/

variable {t t' : SymbolTable}

theorem checkStmt_declare {name : Name} {type : Option String} {value : Option Expr}
    (accepted : t.checkStmt (.declare name type value) = .ok t') :
    ∃ t₁, t.declareName .variable name (.variable type) = .ok t₁ ∧
      (∀ e ∈ value, t₁.checkExpr e = .ok ()) ∧ t' = t₁ := by
  rw [checkStmt] at accepted
  obtain ⟨t₁, declared, rest⟩ := bind_eq_ok_iff.1 accepted
  cases value with
  | none =>
    cases rest
    exact ⟨_, declared, by simp, rfl⟩
  | some e =>
    obtain ⟨_, checked, same⟩ := bind_eq_ok_iff.1 rest
    cases same
    refine ⟨_, declared, fun e' member => ?_, rfl⟩
    cases member
    exact checked

theorem checkStmt_function {name : Name} {params : List Param} {result : Option String}
    {body : List Stmt} (accepted : t.checkStmt (.function name params result body) = .ok t') :
    ∃ t₁ inner inner', t.declareName .function name .function = .ok t₁ ∧
      declareParams (t₁.push []) params = .ok inner ∧ inner.checkStmts body = .ok inner' ∧
      t' = inner'.pop := by
  rw [checkStmt] at accepted
  obtain ⟨t₁, declared, rest⟩ := bind_eq_ok_iff.1 accepted
  obtain ⟨inner, params, rest⟩ := bind_eq_ok_iff.1 rest
  obtain ⟨inner', checked, same⟩ := bind_eq_ok_iff.1 rest
  cases same
  exact ⟨t₁, inner, inner', declared, params, checked, rfl⟩

theorem checkStmt_branch {condition : Expr} {yes : List Stmt} {no : Option (List Stmt)}
    (accepted : t.checkStmt (.branch condition yes no) = .ok t') :
    ∃ t₁, t.checkExpr condition = .ok () ∧ t.checkStmts yes = .ok t₁ ∧ t₁.checkElse no = .ok t' := by
  rw [checkStmt] at accepted
  obtain ⟨_, checked, rest⟩ := bind_eq_ok_iff.1 accepted
  obtain ⟨t₁, checkedYes, checkedNo⟩ := bind_eq_ok_iff.1 rest
  exact ⟨t₁, checked, checkedYes, checkedNo⟩

theorem checkStmt_loop {condition : Expr} {body : List Stmt}
    (accepted : t.checkStmt (.loop condition body) = .ok t') :
    t.checkExpr condition = .ok () ∧ t.checkStmts body = .ok t' := by
  rw [checkStmt] at accepted
  obtain ⟨_, checked, rest⟩ := bind_eq_ok_iff.1 accepted
  exact ⟨checked, rest⟩

theorem checkStmt_each {item : Name} {iterable : Expr} {body : List Stmt}
    (accepted : t.checkStmt (.each item iterable body) = .ok t') :
    ∃ t₁, t.checkExpr iterable = .ok () ∧ t.declareItem item = .ok t₁ ∧
      t₁.checkStmts body = .ok t' := by
  rw [checkStmt] at accepted
  obtain ⟨_, checked, rest⟩ := bind_eq_ok_iff.1 accepted
  obtain ⟨t₁, declared, rest⟩ := bind_eq_ok_iff.1 rest
  exact ⟨t₁, checked, declared, rest⟩

/-- A statement that is only an expression to the check. -/
theorem bind_pure_eq_ok {e : Expr} (accepted : (t.checkExpr e >>= fun _ => pure t) = .ok t') :
    t.checkExpr e = .ok () ∧ t' = t := by
  obtain ⟨_, checked, same⟩ := bind_eq_ok_iff.1 accepted
  cases same
  exact ⟨checked, rfl⟩

theorem checkStmt_print {value : Expr} {newline : Bool}
    (accepted : t.checkStmt (.print value newline) = .ok t') :
    t.checkExpr value = .ok () ∧ t' = t :=
  bind_pure_eq_ok (by rwa [checkStmt] at accepted)

theorem checkStmt_eval {value : Expr} (accepted : t.checkStmt (.eval value) = .ok t') :
    t.checkExpr value = .ok () ∧ t' = t :=
  bind_pure_eq_ok (by rwa [checkStmt] at accepted)

theorem checkStmt_assign {target : Name} {value : Expr}
    (accepted : t.checkStmt (.assign target value) = .ok t') :
    t.checkExpr value = .ok () ∧ t' = t :=
  bind_pure_eq_ok (by rwa [checkStmt] at accepted)

theorem checkStmts_cons {s : Stmt} {rest : List Stmt} (accepted : t.checkStmts (s :: rest) = .ok t') :
    ∃ t₁, t.checkStmt s = .ok t₁ ∧ t₁.checkStmts rest = .ok t' := by
  rw [checkStmts] at accepted
  exact bind_eq_ok_iff.1 accepted

end SymbolTable

theorem Program.check_eq_ok_iff {globals globals' : Scope} {p : Program} :
    p.check globals = .ok globals' ↔
      SymbolTable.checkStmts (.ofGlobals globals) p = .ok (.ofGlobals globals') := by
  unfold Program.check
  cases checked : SymbolTable.checkStmts (.ofGlobals globals) p with
  | error m => simp
  | ok t =>
    rw [SymbolTable.eq_ofGlobals_of_checkStmts checked]
    simp [Scopes.ofGlobals]

theorem Program.check_eq_error_iff {globals : Scope} {p : Program} {d : Diagnostic} :
    p.check globals = .error d ↔
      ∃ m, SymbolTable.checkStmts (.ofGlobals globals) p = .error m ∧ d = m.diagnostic := by
  unfold Program.check
  cases SymbolTable.checkStmts (.ofGlobals globals) p with
  | error m => simp [eq_comm]
  | ok t => simp

end ToraCompiler
