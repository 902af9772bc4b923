import ToraCompiler.Host.Writer
import ToraCompiler.Proofs.Scope.Events
import ToraCompiler.Proofs.Tree.Relocation

/-!
# Places in later stages

Places matter to the check of names only for its messages, and to the writer not at all: a program with its
names moved is checked to the same end, with the misuse moved (`SymbolTable.checkStmts_movedAll`), and
is written as the same lines (`Host.stmtsLines_movedAll`).
-/

namespace ToraCompiler

variable (f : Position → Position)

/-! ## Events -/

/-- The event with its name moved. -/
def NameEvent.moved : NameEvent → NameEvent
  | .declare role name type => .declare role (name.moved f) type
  | .item name => .item (name.moved f)
  | .use name => .use (name.moved f)
  | .call callee => .call (callee.moved f)
  | .openScope => .openScope
  | .closeScope => .closeScope

mutual

theorem Expr.events_moved : ∀ e : Expr, (e.moved f).events = e.events.map (NameEvent.moved f)
  | .binary op left right => by
    rw [Expr.moved, Expr.events, Expr.events, List.map_append, events_moved left, events_moved right]
  | .call callee args => by
    rw [Expr.moved, Expr.events, Expr.events, List.map_cons, eventsAll_movedAll args]
    rfl
  | .name n => rfl
  | .number value => rfl
  | .str value => rfl
  | .list items => by rw [Expr.moved, Expr.events, Expr.events, eventsAll_movedAll items]

theorem Expr.eventsAll_movedAll : ∀ es : List Expr,
    Expr.eventsAll (Expr.movedAll f es) = (Expr.eventsAll es).map (NameEvent.moved f)
  | [] => rfl
  | e :: rest => by
    rw [Expr.movedAll, Expr.eventsAll, Expr.eventsAll, List.map_append, events_moved e,
      eventsAll_movedAll rest]

end

mutual

theorem Stmt.events_moved : ∀ s : Stmt, (s.moved f).events = s.events.map (NameEvent.moved f)
  | .declare name type none => rfl
  | .declare name type (some e) => by
    rw [Stmt.moved, Stmt.events, Stmt.events, List.map_cons]
    exact congrArg _ (Expr.events_moved f e)
  | .function name params result body => by
    have sameParams : (params.map (Param.moved f)).map Param.event =
        (params.map Param.event).map (NameEvent.moved f) := by
      simp only [List.map_map]
      rfl
    simp only [Stmt.moved, Stmt.events, List.map_cons, List.map_append, sameParams,
      eventsAll_movedAll body]
    rfl
  | .branch condition yes no => by
    rw [Stmt.moved, Stmt.events, Stmt.events, List.map_append, List.map_append,
      Expr.events_moved f condition, eventsAll_movedAll yes, eventsElse_movedElse no]
  | .loop condition body => by
    rw [Stmt.moved, Stmt.events, Stmt.events, List.map_append, Expr.events_moved f condition,
      eventsAll_movedAll body]
  | .each item iterable body => by
    rw [Stmt.moved, Stmt.events, Stmt.events, List.map_append, List.map_cons,
      Expr.events_moved f iterable, eventsAll_movedAll body]
    rfl
  | .print value _ => Expr.events_moved f value
  | .eval value => Expr.events_moved f value
  | .assign _ value => Expr.events_moved f value

theorem Stmt.eventsAll_movedAll : ∀ p : List Stmt,
    Stmt.eventsAll (Stmt.movedAll f p) = (Stmt.eventsAll p).map (NameEvent.moved f)
  | [] => rfl
  | s :: rest => by
    rw [Stmt.movedAll, Stmt.eventsAll, Stmt.eventsAll, List.map_append, events_moved s,
      eventsAll_movedAll rest]

theorem Stmt.eventsElse_movedElse : ∀ no : Option (List Stmt),
    Stmt.eventsElse (Stmt.movedElse f no) = (Stmt.eventsElse no).map (NameEvent.moved f)
  | none => rfl
  | some body => eventsAll_movedAll body

end

/-! ## The check -/

/-- The misuse with its name moved. -/
def Misuse.moved : Misuse → Misuse
  | .redeclared role name => .redeclared role (name.moved f)
  | .unknownFunction name => .unknownFunction (name.moved f)
  | .notFunction name => .notFunction (name.moved f)
  | .unknownVariable name => .unknownVariable (name.moved f)

theorem Misuse.message_moved (m : Misuse) : (m.moved f).message = m.message := by
  cases m <;> rfl

theorem Misuse.position_moved (m : Misuse) : (m.moved f).name.position = f m.name.position := by
  cases m <;> rfl

namespace SymbolTable

theorem declareName_moved (t : SymbolTable) (role : Role) (name : Name) (symbol : Symbol) :
    t.declareName role (name.moved f) symbol =
      (t.declareName role name symbol).mapError (Misuse.moved f) := by
  unfold declareName
  rw [Name.moved_text]
  cases t.declare name.text symbol <;> rfl

/-- A moved event does the same, up to the place of its misuse. -/
theorem step_moved (t : SymbolTable) (e : NameEvent) :
    t.step (e.moved f) = (t.step e).mapError (Misuse.moved f) := by
  cases e with
  | declare role name type => exact declareName_moved f t role name _
  | item name =>
    show t.declareItem (name.moved f) = (t.declareItem name).mapError (Misuse.moved f)
    rw [declareItem_eq, declareItem_eq, Name.moved_text]
    by_cases known : (t.lookupInnermost name.text).any Symbol.isVariable
    · rw [if_pos known, if_pos known]
      rfl
    · rw [if_neg known, if_neg known]
      exact declareName_moved f t _ name _
  | use name =>
    simp only [NameEvent.moved, step, Name.moved_text]
    cases t.lookup name.text <;> rfl
  | call callee =>
    simp only [NameEvent.moved, step, checkCallee, Name.moved_text]
    cases t.lookup callee.text with
    | none => rfl
    | some symbol => cases symbol <;> rfl
  | openScope => rfl
  | closeScope => rfl

theorem run_moved (t : SymbolTable) (es : List NameEvent) :
    t.run (es.map (NameEvent.moved f)) = (t.run es).mapError (Misuse.moved f) := by
  induction es generalizing t with
  | nil => rfl
  | cons e es ih =>
    rw [List.map_cons, run_cons, run_cons, step_moved]
    cases t.step e with
    | error m => rfl
    | ok t' => exact ih t'

/-- A moved program is checked to the same end, with the misuse moved. -/
theorem checkStmts_movedAll (t : SymbolTable) (p : List Stmt) :
    t.checkStmts (Stmt.movedAll f p) = (t.checkStmts p).mapError (Misuse.moved f) := by
  rw [checkStmts_eq_run, checkStmts_eq_run, Stmt.eventsAll_movedAll, run_moved]

end SymbolTable

/-! ## The writer -/

namespace Host

theorem mayBeNumber_moved (e : Expr) : mayBeNumber (e.moved f) = mayBeNumber e := by
  cases e <;> rfl

theorem binaryText_moved (op : BinaryOp) (left right : Expr) (leftText rightText : String) :
    binaryText op (left.moved f) (right.moved f) leftText rightText =
      binaryText op left right leftText rightText := by
  unfold binaryText
  rw [mayBeNumber_moved, mayBeNumber_moved]

mutual

theorem exprText_moved (names : NameScopes) : ∀ e : Expr, exprText names (e.moved f) = exprText names e
  | .binary op left right => by
    rw [Expr.moved, exprText, exprText, binaryText_moved, exprText_moved names left,
      exprText_moved names right]
  | .call callee args => by
    rw [Expr.moved, exprText, exprText, exprTexts_movedAll names args]
    rfl
  | .name n => rfl
  | .number value => rfl
  | .str value => rfl
  | .list items => by rw [Expr.moved, exprText, exprText, exprTexts_movedAll names items]

theorem exprTexts_movedAll (names : NameScopes) : ∀ es : List Expr,
    exprTexts names (Expr.movedAll f es) = exprTexts names es
  | [] => rfl
  | e :: rest => by
    rw [Expr.movedAll, exprTexts, exprTexts, exprText_moved names e, exprTexts_movedAll names rest]

end

mutual

theorem stmtLines_moved : ∀ (names : NameScopes) (depth : Nat) (s : Stmt),
    stmtLines names depth (s.moved f) = stmtLines names depth s
  | names, depth, .declare name type none => rfl
  | names, depth, .declare name type (some e) => by
    simp only [Stmt.moved, stmtLines, Option.map_some, exprText_moved, Name.moved_text]
  | names, depth, .function name params result body => by
    have sameParams : (params.map (Param.moved f)).map (·.name.text) = params.map (·.name.text) := by
      rw [List.map_map]
      rfl
    simp only [Stmt.moved, stmtLines, sameParams, Name.moved_text, stmtsLines_movedAll _ _ body]
  | names, depth, .branch condition yes no => by
    simp only [Stmt.moved, stmtLines, exprText_moved, stmtsLines_movedAll _ _ yes,
      elseLines_movedElse _ _ no]
  | names, depth, .loop condition body => by
    simp only [Stmt.moved, stmtLines, exprText_moved, stmtsLines_movedAll _ _ body]
  | names, depth, .each item iterable body => by
    simp only [Stmt.moved, stmtLines, exprText_moved, Name.moved_text, stmtsLines_movedAll _ _ body]
  | names, depth, .print value newline => by simp only [Stmt.moved, stmtLines, exprText_moved]
  | names, depth, .eval value => by simp only [Stmt.moved, stmtLines, exprText_moved]
  | names, depth, .assign target value => by
    simp only [Stmt.moved, stmtLines, exprText_moved, Name.moved_text]

/-- A moved program is written as the same lines. -/
theorem stmtsLines_movedAll : ∀ (names : NameScopes) (depth : Nat) (p : List Stmt),
    stmtsLines names depth (Stmt.movedAll f p) = stmtsLines names depth p
  | names, depth, [] => rfl
  | names, depth, s :: rest => by
    simp only [Stmt.movedAll, stmtsLines, stmtLines_moved _ _ s, stmtsLines_movedAll _ _ rest]

theorem elseLines_movedElse : ∀ (names : NameScopes) (depth : Nat) (no : Option (List Stmt)),
    elseLines names depth (Stmt.movedElse f no) = elseLines names depth no
  | names, depth, none => rfl
  | names, depth, some [] => rfl
  | names, depth, some (s :: rest) => by
    simp only [Stmt.movedElse, Stmt.movedAll, elseLines, stmtLines_moved _ _ s,
      stmtsLines_movedAll _ _ rest]

end

end Host

end ToraCompiler
