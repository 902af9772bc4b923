import ToraCompiler.Proofs.Compilation.Fragments

/-!
# The check and the writer resolve names alike

The check and the writer go through a program on their own, each with its own scopes.  `Moment` holds both,
and the assignment targets met so far, which only the writer takes for names of the program.  `Lockstep` says
what relates them: a set of names for every scope, with the names of the scope and the targets met in it.
It is kept by every statement (`Lockstep.stmt`), so it holds at every moment at which a statement of an
accepted program is met (`Session.names_resolve_alike`), in whatever session the program is compiled.
-/

namespace ToraCompiler

/-! ## Assignment targets -/

mutual

/-- The targets met in each open scope after a statement. -/
def Stmt.targets (met : Scopes (List String)) : Stmt → Scopes (List String)
  | .declare _ _ _ => met
  | .function _ _ _ body => (Stmt.targetsAll (met.push []) body).pop
  | .branch _ yes no => Stmt.targetsElse (Stmt.targetsAll met yes) no
  | .loop _ body => Stmt.targetsAll met body
  | .each _ _ body => Stmt.targetsAll met body
  | .print _ _ => met
  | .eval _ => met
  | .assign target _ => met.modifyInnermost (·.insert target.text)

/-- The targets met in each open scope after statements. -/
def Stmt.targetsAll (met : Scopes (List String)) : List Stmt → Scopes (List String)
  | [] => met
  | s :: rest => Stmt.targetsAll (s.targets met) rest

/-- The targets met in each open scope after the second block of a branch. -/
def Stmt.targetsElse (met : Scopes (List String)) : Option (List Stmt) → Scopes (List String)
  | none => met
  | some body => Stmt.targetsAll met body

end

theorem Scopes.length_toList {α : Type} (s : Scopes α) : s.toList.length = s.locals.length + 1 := by
  unfold toList
  rw [List.length_append]
  rfl

namespace SymbolTable

/-! ## Lengths and parameters -/

variable {t t' : SymbolTable}

theorem declareParams_spec {params : List Param} (declared : t.declareParams params = .ok t') :
    t'.locals.length = t.locals.length ∧
      ∀ depth name, (t'.lookupAt depth name).isSome ↔
        depth = 0 ∧ name ∈ params.map (·.name.text) ∨ (t.lookupAt depth name).isSome := by
  induction params generalizing t with
  | nil =>
    cases declared
    exact ⟨rfl, by simp⟩
  | cons p params ih =>
    rw [declareParams] at declared
    obtain ⟨t₁, first, others⟩ := bind_eq_ok_iff.1 declared
    obtain ⟨sameLength, found⟩ := ih others
    refine ⟨sameLength.trans (length_locals_declareName first), fun depth name => ?_⟩
    obtain ⟨-, rfl⟩ := declareName_eq_ok_iff.1 first
    rw [found, lookupAt_modifyInnermost, List.map_cons, List.mem_cons]
    by_cases here : depth = 0 ∧ name = p.name.text
    · simp [here]
    · rw [if_neg here]
      grind

theorem length_locals_checkStmts {p : List Stmt} (accepted : t.checkStmts p = .ok t') :
    t'.locals.length = t.locals.length := by
  rw [checkStmts_eq_run] at accepted
  exact length_locals_run accepted (NameEvent.balanced_eventsAll p _)

end SymbolTable

/-! ## What relates the scopes -/

/-- The writer has one set of names for every scope of the check, and the set has the names of that scope
and the targets met in it. -/
structure Lockstep (t : SymbolTable) (names : Host.NameScopes) (met : Scopes (List String)) : Prop where
  sets : names.toList.length = t.depth - 1
  targets : met.toList.length = names.toList.length
  names : ∀ depth name,
    names.HasAt depth name ↔ (t.lookupAt depth name).isSome ∨ met.HasAt depth name

namespace Lockstep

variable {t t' : SymbolTable} {names : Host.NameScopes} {met : Scopes (List String)}

theorem length_locals (step : Lockstep t names met) :
    names.locals.length = t.locals.length ∧ met.locals.length = t.locals.length := by
  have sets := step.sets
  have targets := step.targets
  simp only [SymbolTable.depth, Scopes.length_toList] at sets targets
  omega

theorem of_length_locals (sets : names.locals.length = t.locals.length)
    (targets : met.locals.length = t.locals.length)
    (same : ∀ depth name,
      names.HasAt depth name ↔ (t.lookupAt depth name).isSome ∨ met.HasAt depth name) :
    Lockstep t names met := by
  refine ⟨?_, ?_, same⟩
  · simp only [SymbolTable.depth, Scopes.length_toList]
    omega
  · simp only [Scopes.length_toList]
    omega

/-- A name that both declare in the innermost scope. -/
theorem declareName (step : Lockstep t names met) {role : Role} {name : Name} {symbol : Symbol}
    (declared : t.declareName role name symbol = .ok t') :
    Lockstep t' (names.declare name.text) met := by
  obtain ⟨sets, targets⟩ := step.length_locals
  have sameLength := SymbolTable.length_locals_declareName declared
  obtain ⟨-, rfl⟩ := SymbolTable.declareName_eq_ok_iff.1 declared
  refine of_length_locals ?_ (targets.trans sameLength.symm) fun depth other => ?_
  · rw [sameLength]
    exact (Host.length_locals_declare names name.text).trans sets
  · rw [Host.NameScopes.declare, Scopes.hasAt_insert, SymbolTable.lookupAt_modifyInnermost,
      step.names]
    by_cases here : depth = 0 ∧ other = name.text
    · simp [here]
    · simp [here]

/-- A loop variable. -/
theorem declareItem (step : Lockstep t names met) {item : Name} (declared : t.declareItem item = .ok t') :
    Lockstep t' (names.declare item.text) met := by
  rw [SymbolTable.declareItem_eq] at declared
  split at declared
  · next isVariable =>
    cases declared
    obtain ⟨sets, targets⟩ := step.length_locals
    refine of_length_locals ?_ targets fun depth other => ?_
    · exact (Host.length_locals_declare names item.text).trans sets
    · rw [Host.NameScopes.declare, Scopes.hasAt_insert, step.names]
      constructor
      · rintro (⟨rfl, rfl⟩ | known)
        · rw [SymbolTable.lookupAt_zero]
          exact .inl (Option.isSome_of_any isVariable)
        · exact known
      · exact .inr
  · exact step.declareName declared

/-- An assignment target, which only the writer takes for a name. -/
theorem assign (step : Lockstep t names met) (target : String) :
    Lockstep t (names.declare target) (met.modifyInnermost (·.insert target)) := by
  obtain ⟨sets, targets⟩ := step.length_locals
  refine of_length_locals ?_ ?_ fun depth other => ?_
  · exact (Host.length_locals_declare names target).trans sets
  · exact (Scopes.length_locals_modifyInnermost met _).trans targets
  · rw [Host.NameScopes.declare, Scopes.hasAt_insert, Scopes.hasAt_insert, step.names]
    constructor
    · rintro (here | declared | assigned)
      · exact .inr (.inl here)
      · exact .inl declared
      · exact .inr (.inr assigned)
    · rintro (declared | here | assigned)
      · exact .inr (.inl declared)
      · exact .inl here
      · exact .inr (.inr assigned)

/-- The end of a function body. -/
theorem pop (step : Lockstep t names met) (inner : t.locals ≠ []) : Lockstep t.pop names.pop met.pop := by
  obtain ⟨sets, targets⟩ := step.length_locals
  have positive := List.length_pos_iff.2 inner
  have innerNames : names.locals ≠ [] := List.length_pos_iff.1 (by omega)
  have innerTargets : met.locals ≠ [] := List.length_pos_iff.1 (by omega)
  refine of_length_locals ?_ ?_ fun depth name => ?_
  · simp only [Scopes.pop, List.length_tail]
    omega
  · simp only [Scopes.pop, List.length_tail]
    omega
  · rw [Scopes.hasAt_pop innerNames, Scopes.hasAt_pop innerTargets, SymbolTable.lookupAt_pop inner,
      step.names]

/-- The start of a function body, with the parameters declared. -/
theorem push (step : Lockstep t names met) {inner : SymbolTable} {params : List Param}
    (declared : SymbolTable.declareParams (t.push []) params = .ok inner) :
    Lockstep inner (names.push (params.map (·.name.text))) (met.push []) := by
  obtain ⟨sets, targets⟩ := step.length_locals
  obtain ⟨sameLength, found⟩ := SymbolTable.declareParams_spec declared
  have outerLength : (t.push []).locals.length = t.locals.length + 1 := rfl
  refine of_length_locals ?_ ?_ fun depth name => ?_
  · rw [sameLength, outerLength, ← sets]
    rfl
  · rw [sameLength, outerLength, ← targets]
    rfl
  · rw [Scopes.hasAt_push, Scopes.hasAt_push, found, SymbolTable.lookupAt_push]
    cases depth with
    | zero => simp
    | succ depth => simp [step.names]

mutual

/-- Every statement that is accepted keeps the check and the writer in lockstep. -/
theorem stmt : ∀ (s : Stmt) {t t' : SymbolTable} {names : Host.NameScopes}
    {met : Scopes (List String)} (depth : Nat), Lockstep t names met → t.checkStmt s = .ok t' →
    Lockstep t' (Host.stmtLines names depth s).2 (s.targets met)
  | .declare name type value, t, t', names, met, depth, step, accepted => by
    obtain ⟨t₁, declared, -, rfl⟩ := SymbolTable.checkStmt_declare accepted
    exact step.declareName declared
  | .function name params result body, t, t', names, met, depth, step, accepted => by
    obtain ⟨t₁, inner, inner', declared, params, checked, rfl⟩ :=
      SymbolTable.checkStmt_function accepted
    have entered := (step.declareName declared).push params
    have left := stmts body (depth + 1) entered checked
    -- The scope that the body leaves is the one that was opened for it.
    refine left.pop (List.length_pos_iff.1 ?_)
    rw [SymbolTable.length_locals_checkStmts checked, (SymbolTable.declareParams_spec params).1]
    exact Nat.succ_pos _
  | .branch condition yes no, t, t', names, met, depth, step, accepted => by
    obtain ⟨t₁, -, checkedYes, checkedNo⟩ := SymbolTable.checkStmt_branch accepted
    exact elseStmts no depth (stmts yes (depth + 1) step checkedYes) checkedNo
  | .loop condition body, t, t', names, met, depth, step, accepted => by
    obtain ⟨-, checked⟩ := SymbolTable.checkStmt_loop accepted
    exact stmts body (depth + 1) step checked
  | .each item iterable body, t, t', names, met, depth, step, accepted => by
    obtain ⟨t₁, -, declared, checked⟩ := SymbolTable.checkStmt_each accepted
    exact stmts body (depth + 1) (step.declareItem declared) checked
  | .print value newline, t, t', names, met, depth, step, accepted => by
    obtain ⟨-, rfl⟩ := SymbolTable.checkStmt_print accepted
    exact step
  | .eval value, t, t', names, met, depth, step, accepted => by
    obtain ⟨-, rfl⟩ := SymbolTable.checkStmt_eval accepted
    exact step
  | .assign target value, t, t', names, met, depth, step, accepted => by
    obtain ⟨-, rfl⟩ := SymbolTable.checkStmt_assign accepted
    exact step.assign target.text

theorem stmts : ∀ (p : List Stmt) {t t' : SymbolTable} {names : Host.NameScopes}
    {met : Scopes (List String)} (depth : Nat), Lockstep t names met → t.checkStmts p = .ok t' →
    Lockstep t' (Host.stmtsLines names depth p).2 (Stmt.targetsAll met p)
  | [], t, t', names, met, depth, step, accepted => by
    cases accepted
    exact step
  | s :: rest, t, t', names, met, depth, step, accepted => by
    obtain ⟨t₁, first, others⟩ := SymbolTable.checkStmts_cons accepted
    exact stmts rest depth (stmt s depth step first) others

theorem elseStmts : ∀ (no : Option (List Stmt)) {t t' : SymbolTable} {names : Host.NameScopes}
    {met : Scopes (List String)} (depth : Nat), Lockstep t names met → t.checkElse no = .ok t' →
    Lockstep t' (Host.elseLines names depth no).2 (Stmt.targetsElse met no)
  | none, t, t', names, met, depth, step, accepted => by
    cases accepted
    exact step
  | some [], t, t', names, met, depth, step, accepted => by
    cases accepted
    exact step
  | some (s :: rest), t, t', names, met, depth, step, accepted => by
    obtain ⟨t₁, first, others⟩ := SymbolTable.checkStmts_cons accepted
    exact stmts rest (depth + 1) (stmt s (depth + 1) step first) others

end

end Lockstep

/-! ## Moments -/

/-- Where the check and the writer are before a statement: their scopes, the targets met so far, and the
depth of the next line. -/
structure Moment where
  /-- The scopes of the check. -/
  table : SymbolTable
  /-- The sets of names of the writer. -/
  names : Host.NameScopes
  /-- The assignment targets met in each scope. -/
  targets : Scopes (List String)
  /-- How many blocks the next line stands in. -/
  depth : Nat

namespace Moment

/-- At the first moment a statement begins that has this block, and the block begins at the second. -/
inductive Enters (m : Moment) : Stmt → Moment → List Stmt → Prop
  | function {name : Name} {params : List Param} {result : Option String} {body : List Stmt}
      {t inner : SymbolTable} :
    m.table.declareName .function name .function = .ok t →
    SymbolTable.declareParams (t.push []) params = .ok inner →
    Enters m (.function name params result body)
      ⟨inner, (m.names.declare name.text).push (params.map (·.name.text)), m.targets.push [],
        m.depth + 1⟩ body
  | yes {condition : Expr} {yes : List Stmt} {no : Option (List Stmt)} :
    Enters m (.branch condition yes no) ⟨m.table, m.names, m.targets, m.depth + 1⟩ yes
  | no {condition : Expr} {yes no : List Stmt} {t : SymbolTable} :
    m.table.checkStmts yes = .ok t →
    Enters m (.branch condition yes (some no))
      ⟨t, (Host.stmtsLines m.names (m.depth + 1) yes).2, Stmt.targetsAll m.targets yes,
        m.depth + 1⟩ no
  | loop {condition : Expr} {body : List Stmt} :
    Enters m (.loop condition body) ⟨m.table, m.names, m.targets, m.depth + 1⟩ body
  | each {item : Name} {iterable : Expr} {body : List Stmt} {t : SymbolTable} :
    m.table.declareItem item = .ok t →
    Enters m (.each item iterable body) ⟨t, m.names.declare item.text, m.targets, m.depth + 1⟩ body

/-- Going through statements from the first moment on, the check and the writer come to a statement at the
second. -/
inductive Meets : Moment → List Stmt → Moment → Stmt → Prop
  | here {m : Moment} {s : Stmt} {rest : List Stmt} : Meets m (s :: rest) m s
  | later {m n : Moment} {s u : Stmt} {rest : List Stmt} {t : SymbolTable} :
    m.table.checkStmt s = .ok t →
    Meets ⟨t, (Host.stmtLines m.names m.depth s).2, s.targets m.targets, m.depth⟩ rest n u →
    Meets m (s :: rest) n u
  | inside {m m' n : Moment} {s u : Stmt} {rest body : List Stmt} :
    Enters m s m' body → Meets m' body n u → Meets m (s :: rest) n u

theorem Enters.lockstep {m m' : Moment} {s : Stmt} {body : List Stmt} (enters : Enters m s m' body)
    (step : Lockstep m.table m.names m.targets) : Lockstep m'.table m'.names m'.targets := by
  cases enters with
  | function declared params => exact (step.declareName declared).push params
  | yes => exact step
  | no checked => exact Lockstep.stmts _ (m.depth + 1) step checked
  | loop => exact step
  | each declared => exact step.declareItem declared

/-- The blocks of an accepted statement are accepted. -/
theorem Enters.accepted {m m' : Moment} {s : Stmt} {body : List Stmt} {t : SymbolTable}
    (enters : Enters m s m' body) (accepted : m.table.checkStmt s = .ok t) :
    ∃ t', m'.table.checkStmts body = .ok t' := by
  cases enters with
  | function declared params =>
    obtain ⟨t₁, inner, inner', declared', params', checked, -⟩ :=
      SymbolTable.checkStmt_function accepted
    cases declared.symm.trans declared'
    cases params.symm.trans params'
    exact ⟨inner', checked⟩
  | yes =>
    obtain ⟨t₁, -, checked, -⟩ := SymbolTable.checkStmt_branch accepted
    exact ⟨t₁, checked⟩
  | no checked =>
    obtain ⟨t₁, -, checked', checkedNo⟩ := SymbolTable.checkStmt_branch accepted
    cases checked.symm.trans checked'
    exact ⟨t, checkedNo⟩
  | loop => exact ⟨t, (SymbolTable.checkStmt_loop accepted).2⟩
  | each declared =>
    obtain ⟨t₁, -, declared', checked⟩ := SymbolTable.checkStmt_each accepted
    cases declared.symm.trans declared'
    exact ⟨t, checked⟩

/-- The lines of a block are among the lines of its statement. -/
theorem Enters.lines {m m' : Moment} {s : Stmt} {body : List Stmt} (enters : Enters m s m' body)
    (nonempty : body ≠ []) :
    (Host.stmtsLines m'.names m'.depth body).1 <:+: (Host.stmtLines m.names m.depth s).1 := by
  have inBlock : ∀ (depth : Nat) (header : String) (names : Host.NameScopes) (inner : Nat),
      (Host.stmtsLines names inner body).1 <:+:
        Host.blockLines depth header (Host.stmtsLines names inner body).1 := by
    intro depth header names inner
    have some : (Host.stmtsLines names inner body).1 ≠ [] := by
      rwa [Ne, Host.stmtsLines_eq_nil_iff]
    rw [Host.blockLines, if_neg some]
    exact (List.suffix_cons _ _).isInfix
  cases enters with
  | function declared params => exact inBlock ..
  | yes => exact (inBlock ..).trans (List.prefix_append _ _).isInfix
  | no checked =>
    cases body with
    | nil => exact (nonempty rfl).elim
    | cons s rest => exact (inBlock ..).trans (List.suffix_append _ _).isInfix
  | loop => exact inBlock ..
  | each declared => exact inBlock ..

/-- What holds at every moment at which a statement of an accepted program is met: the check and the writer
are in lockstep, the check accepts the statement, and the lines that the writer makes of it are among those of
the program. -/
theorem Meets.spec {m n : Moment} {p : List Stmt} {s : Stmt} (meets : Meets m p n s)
    (step : Lockstep m.table m.names m.targets) {t : SymbolTable}
    (accepted : m.table.checkStmts p = .ok t) :
    Lockstep n.table n.names n.targets ∧ (∃ t', n.table.checkStmt s = .ok t') ∧
      (Host.stmtLines n.names n.depth s).1 <:+: (Host.stmtsLines m.names m.depth p).1 := by
  induction meets generalizing t with
  | here =>
    obtain ⟨t₁, first, -⟩ := SymbolTable.checkStmts_cons accepted
    exact ⟨step, ⟨t₁, first⟩, (List.prefix_append _ _).isInfix⟩
  | @later m n s u rest t₁ first _ ih =>
    obtain ⟨t₁', first', others⟩ := SymbolTable.checkStmts_cons accepted
    cases first.symm.trans first'
    obtain ⟨step', checked, lines⟩ := ih (Lockstep.stmt s m.depth step first) others
    exact ⟨step', checked, lines.trans (List.suffix_append _ _).isInfix⟩
  | @inside m m' n s u rest body enters later ih =>
    obtain ⟨t₁, first, -⟩ := SymbolTable.checkStmts_cons accepted
    obtain ⟨t₂, inner⟩ := enters.accepted first
    obtain ⟨step', checked, lines⟩ := ih (enters.lockstep step) inner
    have nonempty : body ≠ [] := by
      rintro rfl
      cases later
    exact ⟨step', checked,
      (lines.trans (enters.lines nonempty)).trans (List.prefix_append _ _).isInfix⟩

end Moment

/-! ## Every statement is met -/

/-- The blocks of a statement. -/
def Stmt.blocks : Stmt → List (List Stmt)
  | .function _ _ _ body => [body]
  | .branch _ yes no => yes :: no.toList
  | .loop _ body => [body]
  | .each _ _ body => [body]
  | _ => []

/-- The statement is one of these, or stands in a block of one of them, at any depth. -/
inductive Stmt.Within : Stmt → List Stmt → Prop
  | here {s : Stmt} {rest : List Stmt} : Within s (s :: rest)
  | later {s u : Stmt} {rest : List Stmt} : Within u rest → Within u (s :: rest)
  | inside {s u : Stmt} {rest body : List Stmt} :
    body ∈ s.blocks → Within u body → Within u (s :: rest)

/-- Every block of an accepted statement is entered. -/
theorem Moment.exists_enters {m : Moment} {s : Stmt} {t : SymbolTable} {body : List Stmt}
    (accepted : m.table.checkStmt s = .ok t) (block : body ∈ s.blocks) :
    ∃ m', Enters m s m' body := by
  cases s with
  | declare => cases block
  | function =>
    obtain rfl := List.mem_singleton.1 block
    obtain ⟨t₁, inner, inner', declared, params, -, -⟩ := SymbolTable.checkStmt_function accepted
    exact ⟨_, .function declared params⟩
  | branch condition yes no =>
    obtain ⟨t₁, -, checked, -⟩ := SymbolTable.checkStmt_branch accepted
    rcases List.mem_cons.1 block with rfl | second
    · exact ⟨_, .yes⟩
    · cases no with
      | none => cases second
      | some no =>
        obtain rfl := List.mem_singleton.1 second
        exact ⟨_, .no checked⟩
  | loop =>
    obtain rfl := List.mem_singleton.1 block
    exact ⟨_, .loop⟩
  | each =>
    obtain rfl := List.mem_singleton.1 block
    obtain ⟨t₁, -, declared, -⟩ := SymbolTable.checkStmt_each accepted
    exact ⟨_, .each declared⟩
  | print => cases block
  | eval => cases block
  | assign => cases block

/-- Every statement of an accepted program is met. -/
theorem Moment.exists_meets {m : Moment} {p : List Stmt} {s : Stmt} (within : s.Within p)
    {t : SymbolTable} (accepted : m.table.checkStmts p = .ok t) : ∃ n, Meets m p n s := by
  induction within generalizing m t with
  | here => exact ⟨m, .here⟩
  | later _ ih =>
    obtain ⟨t₁, first, others⟩ := SymbolTable.checkStmts_cons accepted
    obtain ⟨n, meets⟩ :=
      @ih ⟨t₁, (Host.stmtLines m.names m.depth _).2, Stmt.targets m.targets _, m.depth⟩ t others
    exact ⟨n, .later first meets⟩
  | inside block _ ih =>
    obtain ⟨t₁, first, -⟩ := SymbolTable.checkStmts_cons accepted
    obtain ⟨m', enters⟩ := exists_enters first block
    obtain ⟨t₂, inner⟩ := enters.accepted first
    obtain ⟨n, meets⟩ := ih inner
    exact ⟨n, .inside enters meets⟩

/-! ## Calls -/

/-- No scope of the program has the name, and the catalog has it. -/
def SymbolTable.ResolvesToBuiltin (t : SymbolTable) (name : String) : Prop :=
  (∀ depth, t.lookupAt depth name = none) ∧ (Catalog.symbol? name).isSome

/-- The statement, met with the first table, has an expression that is checked with the second. -/
inductive SymbolTable.Evaluates (t : SymbolTable) : Stmt → SymbolTable → Expr → Prop
  | value {name : Name} {type : Option String} {e : Expr} {t' : SymbolTable} :
    t.declareName .variable name (.variable type) = .ok t' →
    Evaluates t (.declare name type (some e)) t' e
  | branch {e : Expr} {yes : List Stmt} {no : Option (List Stmt)} : Evaluates t (.branch e yes no) t e
  | loop {e : Expr} {body : List Stmt} : Evaluates t (.loop e body) t e
  | each {item : Name} {e : Expr} {body : List Stmt} : Evaluates t (.each item e body) t e
  | print {e : Expr} {newline : Bool} : Evaluates t (.print e newline) t e
  | eval {e : Expr} : Evaluates t (.eval e) t e
  | assign {target : Name} {e : Expr} : Evaluates t (.assign target e) t e

theorem SymbolTable.Evaluates.accepted {t t' t₁ : SymbolTable} {s : Stmt} {e : Expr}
    (evaluates : t.Evaluates s t' e) (accepted : t.checkStmt s = .ok t₁) :
    t'.checkExpr e = .ok () := by
  cases evaluates with
  | value declared =>
    obtain ⟨t₂, declared', checked, -⟩ := checkStmt_declare accepted
    cases declared.symm.trans declared'
    exact checked e rfl
  | branch =>
    obtain ⟨-, checked, -⟩ := checkStmt_branch accepted
    exact checked
  | loop => exact (checkStmt_loop accepted).1
  | each =>
    obtain ⟨-, checked, -⟩ := checkStmt_each accepted
    exact checked
  | print => exact (checkStmt_print accepted).1
  | eval => exact (checkStmt_eval accepted).1
  | assign => exact (checkStmt_assign accepted).1

namespace SymbolTable

mutual

/-- Every name that an accepted expression calls is a function. -/
theorem lookup_of_call {t : SymbolTable} {callee : Name} : ∀ e : Expr, t.checkExpr e = .ok () →
    .call callee ∈ e.events → t.lookup callee.text = some .function
  | .binary op left right, accepted, member => by
    rw [checkExpr] at accepted
    obtain ⟨_, first, second⟩ := bind_eq_ok_iff.1 accepted
    rcases List.mem_append.1 member with inLeft | inRight
    · exact lookup_of_call left first inLeft
    · exact lookup_of_call right second inRight
  | .call name args, accepted, member => by
    rw [checkExpr] at accepted
    obtain ⟨_, first, others⟩ := bind_eq_ok_iff.1 accepted
    rcases List.mem_cons.1 member with same | inArgs
    · cases same
      exact checkCallee_eq_ok_iff.1 first
    · exact lookup_of_calls args others inArgs
  | .name n, _, member => by
    cases List.mem_singleton.1 member
  | .number value, _, member => by cases member
  | .str value, _, member => by cases member
  | .list items, accepted, member => by
    rw [checkExpr] at accepted
    exact lookup_of_calls items accepted member

theorem lookup_of_calls {t : SymbolTable} {callee : Name} : ∀ es : List Expr,
    t.checkExprs es = .ok () → .call callee ∈ Expr.eventsAll es →
    t.lookup callee.text = some .function
  | [], _, member => by cases member
  | e :: rest, accepted, member => by
    rw [checkExprs] at accepted
    obtain ⟨_, first, others⟩ := bind_eq_ok_iff.1 accepted
    rcases List.mem_append.1 member with inFirst | inRest
    · exact lookup_of_call e first inFirst
    · exact lookup_of_calls rest others inRest

end

/-- A variable just declared is no function, so a name that is one is as it was. -/
theorem lookupAt_of_declareName {t t' : SymbolTable} {role : Role} {name : Name}
    {type : Option String} {callee : String}
    (declared : t.declareName role name (.variable type) = .ok t')
    (function : t'.lookup callee = some .function) (depth : Nat) :
    t'.lookupAt depth callee = t.lookupAt depth callee := by
  obtain ⟨-, rfl⟩ := declareName_eq_ok_iff.1 declared
  rw [lookupAt_modifyInnermost]
  -- In its own value the variable hides what had its name, but it cannot be called there.
  refine if_neg fun here => ?_
  have found : lookupAt (t.modifyInnermost ((name.text, .variable type) :: ·)) 0 callee =
      some (.variable type) := by
    rw [lookupAt_modifyInnermost, if_pos ⟨rfl, here.2⟩]
  rw [lookup_of_lookupAt found (by simp)] at function
  cases function

theorem Evaluates.lookupAt {t t' : SymbolTable} {s : Stmt} {e : Expr} {callee : String}
    (evaluates : t.Evaluates s t' e) (function : t'.lookup callee = some .function) (depth : Nat) :
    t'.lookupAt depth callee = t.lookupAt depth callee := by
  cases evaluates with
  | value declared => exact lookupAt_of_declareName declared function depth
  | _ => rfl

end SymbolTable

theorem Host.NameScopes.isDeclared_iff {names : NameScopes} {name : String} :
    names.isDeclared name ↔ ∃ depth, names.HasAt depth name := by
  unfold isDeclared Scopes.HasAt
  rw [List.any_eq_true]
  constructor
  · rintro ⟨scope, member, has⟩
    obtain ⟨depth, found⟩ := List.mem_iff_getElem?.1 member
    exact ⟨depth, scope, found, by simpa using has⟩
  · rintro ⟨depth, scope, found, has⟩
    exact ⟨scope, List.mem_of_getElem? found, by simpa using has⟩

/-- The catalog has every function that a name stands for which no scope has. -/
theorem Catalog.isSome_function?_of_symbol? {name : String} (h : symbol? name = some .function) :
    (function? name).isSome := by
  unfold symbol? at h
  cases found : function? name with
  | some builtin => rfl
  | none =>
    rw [found] at h
    split at h <;> simp_all

theorem Catalog.isSome_symbol?_of_function? {name : String} (h : (function? name).isSome) :
    (symbol? name).isSome := by
  unfold symbol?
  cases found : function? name with
  | some builtin => rfl
  | none =>
    rw [found] at h
    cases h

/-- A function that is no assignment target is taken for a built-in one by the writer exactly if the check
finds it in the catalog. -/
theorem Lockstep.builtinFor?_isSome_iff {t t' : SymbolTable} {names : Host.NameScopes}
    {met : Scopes (List String)} {callee : String} (step : Lockstep t names met)
    (same : ∀ depth, t'.lookupAt depth callee = t.lookupAt depth callee)
    (function : t'.lookup callee = some .function) (notMet : ∀ depth, ¬ met.HasAt depth callee) :
    (Host.builtinFor? names callee).isSome ↔ t'.ResolvesToBuiltin callee := by
  have declared : names.isDeclared callee ↔ ∃ depth, (t'.lookupAt depth callee).isSome := by
    rw [Host.NameScopes.isDeclared_iff]
    simp only [step.names, notMet, or_false, same]
  unfold Host.builtinFor? SymbolTable.ResolvesToBuiltin
  rw [Option.isSome_filter, Option.any_eq_true]
  constructor
  · rintro ⟨builtin, found, notDeclared⟩
    refine ⟨fun depth => ?_, Catalog.isSome_symbol?_of_function? (by rw [found]; rfl)⟩
    cases inScope : t'.lookupAt depth callee with
    | none => rfl
    | some symbol =>
      rw [declared.2 ⟨depth, by rw [inScope]; rfl⟩] at notDeclared
      cases notDeclared
  · rintro ⟨nowhere, -⟩
    have inCatalog : Catalog.symbol? callee = some .function := by
      rw [← SymbolTable.lookup_of_nowhere nowhere, function]
    obtain ⟨builtin, found⟩ :=
      Option.isSome_iff_exists.1 (Catalog.isSome_function?_of_symbol? inCatalog)
    refine ⟨builtin, found, ?_⟩
    cases isDeclared : names.isDeclared callee with
    | false => rfl
    | true =>
      obtain ⟨depth, inScope⟩ := declared.1 isDeclared
      rw [nowhere] at inScope
      cases inScope

/-! ## Sessions -/

/-- What can be asked of a session: to compile one more fragment, or to forget all of them. -/
inductive SessionRequest where
  | compile (source : String)
  | reset

/-- A session between two requests, and the targets that its fragments assigned in the global scope. -/
structure SessionLog where
  /-- The session. -/
  session : Session := {}
  /-- The targets that the accepted fragments have assigned since the last reset. -/
  met : List String := []

namespace SessionLog

/-- The log after a request.  A fragment that is rejected leaves no trace. -/
def next (l : SessionLog) : SessionRequest → SessionLog
  | .compile source =>
    match Program.ofSource source, l.session.compile source with
    | .ok p, .ok (_, session) => ⟨session, (Stmt.targetsAll (.ofGlobals l.met) p).globals⟩
    | _, _ => l
  | .reset => {}

/-- The log after requests, the first one to a new session. -/
def after (requests : List SessionRequest) : SessionLog :=
  requests.foldl next {}

/-- The moment at which the next fragment begins. -/
def moment (l : SessionLog) : Moment where
  table := .ofGlobals l.session.symbols
  names := .ofGlobals l.session.names
  targets := .ofGlobals l.met
  depth := 0

/-- The check and the writer are in lockstep between two fragments. -/
def Aligned (l : SessionLog) : Prop :=
  Lockstep l.moment.table l.moment.names l.moment.targets

theorem aligned_new : Aligned {} := by
  refine ⟨rfl, rfl, fun depth name => ?_⟩
  cases depth with
  | zero => simp [moment, Scopes.HasAt, Scopes.ofGlobals, Scopes.toList, SymbolTable.lookupAt]
  | succ depth => simp [moment, Scopes.HasAt, Scopes.ofGlobals, Scopes.toList, SymbolTable.lookupAt]

theorem Aligned.next {l : SessionLog} (step : l.Aligned) (request : SessionRequest) :
    (l.next request).Aligned := by
  cases request with
  | reset => exact aligned_new
  | compile source =>
    unfold SessionLog.next
    dsimp only
    split
    · next p text session read compiled =>
      obtain ⟨p', read', checked, names, -⟩ := Session.of_compile_eq_ok compiled
      obtain rfl : p = p' := Except.ok.inj (read.symm.trans read')
      have after := Lockstep.stmts p 0 step checked
      have global : Stmt.targetsAll l.moment.targets p =
          .ofGlobals (Stmt.targetsAll l.moment.targets p).globals := by
        have noLocals := after.length_locals.2
        generalize Stmt.targetsAll l.moment.targets p = met at noLocals ⊢
        rcases met with ⟨locals, globals⟩
        obtain rfl := List.length_eq_zero_iff.1 noLocals
        rfl
      rw [global] at after
      change Lockstep _ (Host.stmtsLines (.ofGlobals l.session.names) 0 p).2 _ at after
      rw [names] at after
      exact after
    · exact step

theorem aligned_after (requests : List SessionRequest) : (after requests).Aligned := by
  have along : ∀ l : SessionLog, l.Aligned → (requests.foldl SessionLog.next l).Aligned := by
    induction requests with
    | nil => exact fun l step => step
    | cons request requests ih => exact fun l step => ih _ (step.next request)
  exact along {} aligned_new

/-- The session goes on from one request to the next. -/
theorem session_after_concat (requests : List SessionRequest) (source : String) :
    (after (requests ++ [.compile source])).session =
      match (after requests).session.compile source with
      | .ok (_, session) => session
      | .error _ => (after requests).session := by
  unfold after
  rw [List.foldl_append, List.foldl_cons, List.foldl_nil]
  generalize requests.foldl next {} = l
  cases compiled : l.session.compile source with
  | error d =>
    simp only [next, compiled]
    cases Program.ofSource source <;> rfl
  | ok result =>
    obtain ⟨p, read, -⟩ := Session.of_compile_eq_ok compiled
    simp only [next, compiled, read]

end SessionLog

/-- The check and the writer resolve names alike, in every program that is accepted after any requests to a
session, each of which goes on from the session that the one before left.  Every statement is met, at every depth, and whenever one is met, the writer has one set of names
for every scope of the check, with the names of that scope and the targets met in it.  So a call of a name
that is no target met in an open scope is written as one of a built-in function exactly if the check finds
the name in the catalog. -/
theorem Session.names_resolve_alike (requests : List SessionRequest) (p : Program) {globals : Scope}
    (accepted : p.check (SessionLog.after requests).session.symbols = .ok globals) :
    let m := (SessionLog.after requests).moment
    (∀ source, (SessionLog.after (requests ++ [.compile source])).session =
      match (SessionLog.after requests).session.compile source with
      | .ok (_, session) => session
      | .error _ => (SessionLog.after requests).session) ∧
    (∀ s, s.Within p → ∃ n, m.Meets p n s) ∧
    ∀ n s, m.Meets p n s →
      Lockstep n.table n.names n.targets ∧
      (∃ t, n.table.checkStmt s = .ok t) ∧
      (Host.stmtLines n.names n.depth s).1 <:+: (Host.stmtsLines m.names m.depth p).1 ∧
      ∀ t e, n.table.Evaluates s t e → ∀ callee, .call callee ∈ e.events →
        (∀ depth, ¬ n.targets.HasAt depth callee.text) →
        ((Host.builtinFor? n.names callee.text).isSome ↔ t.ResolvesToBuiltin callee.text) := by
  intro m
  have checked : m.table.checkStmts p = .ok (.ofGlobals globals) :=
    Program.check_eq_ok_iff.1 accepted
  refine ⟨SessionLog.session_after_concat requests, fun s within => Moment.exists_meets within checked,
    fun n s meets => ?_⟩
  obtain ⟨step, ⟨t₁, acceptedHere⟩, lines⟩ := meets.spec (SessionLog.aligned_after requests) checked
  refine ⟨step, ⟨t₁, acceptedHere⟩, lines, fun t' e evaluates callee called notMet => ?_⟩
  have function := SymbolTable.lookup_of_call e (evaluates.accepted acceptedHere) called
  exact step.builtinFor?_isSome_iff (evaluates.lookupAt function) function notMet

/-- A call after two fragments, of which one declares a function and assigns in its body. -/
theorem names_resolve_alike_sqrt :
    let requests : List SessionRequest :=
      [.compile "fn len(a) \x7b max = a; \x7d", .reset, .compile "fn len(a) \x7b max = a; \x7d x = 1;"]
    let m := (SessionLog.after requests).moment
    Program.check (SessionLog.after requests).session.symbols
        [.eval (.call ⟨"sqrt", ⟨1, 1⟩⟩ [.call ⟨"len", ⟨1, 6⟩⟩ []])] = .ok [("len", .function)] ∧
      ((Host.builtinFor? m.names "sqrt").isSome ↔ m.table.ResolvesToBuiltin "sqrt") := by
  intro requests m
  have accepted : Program.check (SessionLog.after requests).session.symbols
      [.eval (.call ⟨"sqrt", ⟨1, 1⟩⟩ [.call ⟨"len", ⟨1, 6⟩⟩ []])] = .ok [("len", .function)] := by
    have symbols : (SessionLog.after requests).session.symbols = [("len", .function)] := by
      decide +kernel
    rw [symbols]
    rfl
  have met : (SessionLog.after requests).met = ["x"] := by decide +kernel
  refine ⟨accepted, ?_⟩
  obtain ⟨-, -, -, calls⟩ := (Session.names_resolve_alike requests _ accepted).2.2 m _ .here
  refine calls _ _ .eval ⟨"sqrt", ⟨1, 1⟩⟩ (by simp [Expr.events]) ?_
  rintro depth ⟨scope, found, member⟩
  unfold m SessionLog.moment at found
  dsimp only at found
  rw [met] at found
  cases depth with
  | zero =>
    cases found
    simp [Scopes.ofGlobals] at member
  | succ depth => cases found

end ToraCompiler
