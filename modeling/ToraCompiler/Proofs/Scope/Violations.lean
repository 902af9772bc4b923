import ToraCompiler.Proofs.Scope.InPlace

/-!
# The check is exact

Which uses of names are wrong, said about the row of events alone: an event is a violation or not because
of the declarations before it whose scopes are still open.  `DeclaredAt` finds such a declaration and
says how far out its scope is, and `Violation` lists the rules.  The symbol table is a record of
`DeclaredAt` along a run (`SymbolTable.Records.run`), so the check stops at the first violation and
nowhere else.

For programs in a row the rules alone say which of them are accepted (`Accepts`), and the global scope of an
analyzer is a record of those (`Analyzer.exists_record_of_requests`).  So the check is exact after any requests
(`Program.check_exact`).
-/

namespace ToraCompiler

namespace NameEvent

/-! ## The rules -/

/-- The name that the event declares, and whether it is a variable. -/
def declared? : NameEvent → Option (String × Bool)
  | .declare role name _ => some (name.text, role ≠ .function)
  | .item name => some (name.text, true)
  | _ => none

/-- One of the events declared the name, as a variable or as a function, in a scope that is still open
after them, with `depth` more scopes open inside it. -/
def DeclaredAt (before : List NameEvent) (name : String) (isVariable : Bool) (depth : Nat) : Prop :=
  ∃ pre e post, before = pre ++ e :: post ∧ e.declared? = some (name, isVariable) ∧
    depthAfterAll? 0 post = some depth

/-- No scope that is open after the events has the name. -/
def Undeclared (before : List NameEvent) (name : String) : Prop :=
  ∀ isVariable depth, ¬ DeclaredAt before name isVariable depth

/-- The event, coming after the others, is a misuse. -/
inductive Violation (before : List NameEvent) : NameEvent → Misuse → Prop
  /-- A name is used that no open scope has, and that is not built in. -/
  | unknown {name : Name} :
    Undeclared before name.text → Catalog.symbol? name.text = none →
    Violation before (.use name) (.unknownVariable name)
  /-- A name is called that is a variable in the innermost scope that has it. -/
  | calledVariable {callee : Name} {depth : Nat} :
    DeclaredAt before callee.text true depth →
    (∀ isVariable inner, inner < depth → ¬ DeclaredAt before callee.text isVariable inner) →
    Violation before (.call callee) (.notFunction callee)
  /-- A built-in constant is called. -/
  | calledConstant {callee : Name} :
    Undeclared before callee.text → Catalog.symbol? callee.text = some .constant →
    Violation before (.call callee) (.notFunction callee)
  /-- A name is called that no open scope has, and that is not built in. -/
  | unknownFunction {callee : Name} :
    Undeclared before callee.text → Catalog.symbol? callee.text = none →
    Violation before (.call callee) (.unknownFunction callee)
  /-- A name is declared that the same scope has already. -/
  | redeclared {role : Role} {name : Name} {type : Option String} {isVariable : Bool} :
    DeclaredAt before name.text isVariable 0 →
    Violation before (.declare role name type) (.redeclared role name)
  /-- A loop variable has the name of a function of the same scope. -/
  | itemOfFunction {item : Name} :
    DeclaredAt before item.text false 0 → Violation before (.item item) (.redeclared .variable item)

/-- No event of a row is a violation, coming after those before it. -/
def Clean (before es : List NameEvent) : Prop :=
  ∀ pre e post m, es = pre ++ e :: post → ¬ Violation (before ++ pre) e m

/-- The first violation in a row of events is this misuse. -/
def FirstViolation (before es : List NameEvent) (m : Misuse) : Prop :=
  ∃ pre e post, es = pre ++ e :: post ∧ Clean before pre ∧ Violation (before ++ pre) e m

/-! ## One more event -/

theorem not_declaredAt_nil {name : String} {isVariable : Bool} {depth : Nat} :
    ¬ DeclaredAt [] name isVariable depth := by
  rintro ⟨pre, e, post, split, -⟩
  cases pre <;> cases split

/-- What is declared after one more event: what the event declares, and what was declared before, with the
depth after the event. -/
theorem declaredAt_concat {before : List NameEvent} {e : NameEvent} {name : String}
    {isVariable : Bool} {depth : Nat} :
    DeclaredAt (before ++ [e]) name isVariable depth ↔
      e.declared? = some (name, isVariable) ∧ depth = 0 ∨
        ∃ outer, DeclaredAt before name isVariable outer ∧ depthAfter? outer e = some depth := by
  constructor
  · rintro ⟨pre, d, post, split, declares, below⟩
    -- The declaration is the last event itself, or the last event comes some time after it.
    rcases List.eq_nil_or_concat post with rfl | ⟨post, last, rfl⟩
    · obtain ⟨-, same⟩ := List.append_inj' split rfl
      cases same
      cases below
      exact .inl ⟨declares, rfl⟩
    · rw [List.concat_eq_append, ← List.cons_append, ← List.append_assoc] at split
      obtain ⟨rfl, same⟩ := List.append_inj' split rfl
      cases same
      rw [List.concat_eq_append, depthAfterAll?_append, Option.bind_eq_some_iff] at below
      obtain ⟨outer, inside, last⟩ := below
      refine .inr ⟨outer, ⟨pre, d, post, rfl, declares, inside⟩, ?_⟩
      rwa [depthAfterAll?_singleton] at last
  · rintro (⟨declares, rfl⟩ | ⟨outer, ⟨pre, d, post, rfl, declares, inside⟩, last⟩)
    · exact ⟨before, e, [], rfl, declares, rfl⟩
    · refine ⟨pre, d, post ++ [e], by simp, declares, ?_⟩
      rw [depthAfterAll?_append, inside]
      exact (depthAfterAll?_singleton outer e).trans last

theorem clean_nil (before : List NameEvent) : Clean before [] := by
  intro pre e post m split
  cases pre <;> cases split

theorem clean_cons {before es : List NameEvent} {e : NameEvent} :
    Clean before (e :: es) ↔ (∀ m, ¬ Violation before e m) ∧ Clean (before ++ [e]) es := by
  constructor
  · intro clean
    refine ⟨fun m violation => ?_, fun pre d post m split violation => ?_⟩
    · exact clean [] e es m rfl (by rwa [List.append_nil])
    · refine clean (e :: pre) d post m (by rw [split]; rfl) ?_
      rwa [List.append_assoc, List.singleton_append] at violation
  · rintro ⟨head, tail⟩ pre d post m split violation
    cases pre with
    | nil =>
      cases split
      rw [List.append_nil] at violation
      exact head m violation
    | cons first pre =>
      cases split
      refine tail pre d post m rfl ?_
      rwa [List.append_assoc, List.singleton_append]

theorem firstViolation_cons {before es : List NameEvent} {e : NameEvent} {m : Misuse} :
    FirstViolation before (e :: es) m ↔
      Violation before e m ∨
        (∀ m', ¬ Violation before e m') ∧ FirstViolation (before ++ [e]) es m := by
  constructor
  · rintro ⟨pre, d, post, split, clean, violation⟩
    cases pre with
    | nil =>
      cases split
      rw [List.append_nil] at violation
      exact .inl violation
    | cons first pre =>
      cases split
      obtain ⟨head, tail⟩ := clean_cons.1 clean
      refine .inr ⟨head, pre, d, post, rfl, tail, ?_⟩
      rwa [List.append_assoc, List.singleton_append]
  · rintro (violation | ⟨head, pre, d, post, rfl, clean, violation⟩)
    · exact ⟨[], e, es, rfl, clean_nil before, by rwa [List.append_nil]⟩
    · refine ⟨e :: pre, d, post, rfl, clean_cons.2 ⟨head, clean⟩, ?_⟩
      rwa [List.append_assoc, List.singleton_append] at violation

theorem not_firstViolation_nil {before : List NameEvent} {m : Misuse} :
    ¬ FirstViolation before [] m := by
  rintro ⟨pre, e, post, split, -⟩
  cases pre <;> cases split

end NameEvent

namespace SymbolTable

open NameEvent

/-! ## The table as a record -/

/-- The table has exactly what the events declared in scopes that are still open. -/
structure Records (t : SymbolTable) (before : List NameEvent) : Prop where
  declared : ∀ name isVariable depth, DeclaredAt before name isVariable depth ↔
    (t.lookupAt depth name).map Symbol.isVariable = some isVariable
  noConstant : ∀ depth name, t.lookupAt depth name ≠ some .constant

theorem records_nil : Records (.ofGlobals []) [] := by
  have nothing : ∀ depth name, lookupAt (.ofGlobals []) depth name = none := by
    intro depth name
    cases depth <;> rfl
  refine ⟨fun name isVariable depth => ?_, fun depth name => ?_⟩
  · rw [nothing]
    exact ⟨fun h => (not_declaredAt_nil h).elim, nofun⟩
  · rw [nothing]
    exact nofun

/-- An event that declares nothing new in the scopes that are open. -/
theorem Records.same {t : SymbolTable} {before : List NameEvent} (record : t.Records before)
    {e : NameEvent} (plain : ∀ depth, depthAfter? depth e = some depth)
    (known : ∀ name isVariable, e.declared? = some (name, isVariable) →
      (t.lookupAt 0 name).map Symbol.isVariable = some isVariable) :
    t.Records (before ++ [e]) := by
  refine ⟨fun name isVariable depth => ?_, record.noConstant⟩
  rw [declaredAt_concat, ← record.declared]
  constructor
  · rintro (⟨declares, rfl⟩ | ⟨outer, before, below⟩)
    · exact (record.declared ..).2 (known name isVariable declares)
    · rw [plain] at below
      cases below
      exact before
  · intro before
    exact .inr ⟨depth, before, plain depth⟩

/-- An event that declares a name that is new in the innermost scope. -/
theorem Records.declare {t : SymbolTable} {before : List NameEvent} (record : t.Records before)
    {e : NameEvent} {name : String} {symbol : Symbol}
    (plain : ∀ depth, depthAfter? depth e = some depth)
    (declares : e.declared? = some (name, symbol.isVariable)) (notConstant : symbol ≠ .constant)
    (fresh : t.lookupInnermost name = none) :
    Records (t.modifyInnermost ((name, symbol) :: ·)) (before ++ [e]) := by
  refine ⟨fun other isVariable depth => ?_, fun depth other => ?_⟩
  · rw [declaredAt_concat, declares, lookupAt_modifyInnermost]
    simp only [plain, Option.some.injEq, exists_eq_right, record.declared, Prod.mk.injEq]
    by_cases here : depth = 0 ∧ other = name
    · obtain ⟨rfl, rfl⟩ := here
      simp [lookupAt_zero, fresh]
    · simp only [if_neg here]
      constructor
      · rintro (⟨⟨rfl, -⟩, rfl⟩ | found)
        · exact (here ⟨rfl, rfl⟩).elim
        · exact found
      · exact .inr
  · rw [lookupAt_modifyInnermost]
    split
    · exact fun same => notConstant (Option.some.inj same)
    · exact record.noConstant depth other

theorem Records.openScope {t : SymbolTable} {before : List NameEvent} (record : t.Records before) :
    Records (t.push []) (before ++ [.openScope]) := by
  refine ⟨fun name isVariable depth => ?_, fun depth name => ?_⟩
  · rw [declaredAt_concat, lookupAt_push]
    cases depth with
    | zero => simp [declared?, depthAfter?]
    | succ depth => simp [declared?, depthAfter?, record.declared]
  · rw [lookupAt_push]
    cases depth with
    | zero => simp
    | succ depth => exact record.noConstant depth name

theorem Records.closeScope {t : SymbolTable} {before : List NameEvent} (record : t.Records before)
    (inner : t.locals ≠ []) : Records t.pop (before ++ [.closeScope]) := by
  refine ⟨fun name isVariable depth => ?_, fun depth name => ?_⟩
  · rw [declaredAt_concat, lookupAt_pop inner, ← record.declared]
    constructor
    · rintro (⟨declares, -⟩ | ⟨outer, before, below⟩)
      · cases declares
      · simp only [depthAfter?] at below
        split at below
        · cases below
        · obtain rfl := Option.some.inj below
          have positive : outer - 1 + 1 = outer := by omega
          rwa [positive]
    · intro before
      exact .inr ⟨depth + 1, before, rfl⟩
  · rw [lookupAt_pop inner]
    exact record.noConstant _ name

/-- Every event keeps the record, as long as no scope is closed that was not opened. -/
theorem Records.step {t t' : SymbolTable} {before : List NameEvent} (record : t.Records before)
    {e : NameEvent} (h : t.step e = .ok t') {depth : Nat}
    (below : depthAfter? t.locals.length e = some depth) : t'.Records (before ++ [e]) := by
  cases e with
  | declare role name type =>
    obtain ⟨fresh, rfl⟩ := declareName_eq_ok_iff.1 h
    refine record.declare (fun _ => rfl) ?_ ?_ fresh
    · cases role <;> rfl
    · cases role <;> exact nofun
  | item name =>
    simp only [SymbolTable.step, declareItem_eq] at h
    split at h
    · next isVariable =>
      -- The loop takes over a variable of the scope: it is declared again, as what it was.
      cases h
      refine record.same (fun _ => rfl) fun other flag declares => ?_
      cases declares
      rw [lookupAt_zero]
      cases found : t.lookupInnermost name.text with
      | none =>
        rw [found] at isVariable
        cases isVariable
      | some symbol =>
        rw [found] at isVariable
        exact congrArg some isVariable
    · obtain ⟨fresh, rfl⟩ := declareName_eq_ok_iff.1 h
      exact record.declare (fun _ => rfl) rfl nofun fresh
  | use name =>
    obtain ⟨-, rfl⟩ := step_use_eq_ok_iff.1 h
    exact record.same (fun _ => rfl) nofun
  | call callee =>
    obtain ⟨-, rfl⟩ := step_call_eq_ok_iff.1 h
    exact record.same (fun _ => rfl) nofun
  | openScope =>
    cases h
    exact record.openScope
  | closeScope =>
    cases h
    refine record.closeScope fun none => ?_
    rw [none] at below
    cases below

theorem Records.run {t t' : SymbolTable} {before es : List NameEvent} (record : t.Records before)
    (h : t.run es = .ok t') {depth : Nat} (below : depthAfterAll? t.locals.length es = some depth) :
    t'.Records (before ++ es) := by
  induction es generalizing t before with
  | nil =>
    cases h
    rwa [List.append_nil]
  | cons e es ih =>
    rw [depthAfterAll?_cons, Option.bind_eq_some_iff] at below
    obtain ⟨middle, first, rest⟩ := below
    obtain ⟨t₁, stepped, others⟩ := bind_eq_ok_iff.1 h
    have later := ih (record.step stepped first) others (by rwa [length_locals_step stepped first])
    rwa [List.append_assoc, List.singleton_append] at later

/-! ## Violations are misuses -/

theorem catalog_symbol?_cases (name : String) :
    Catalog.symbol? name = none ∨ Catalog.symbol? name = some .function ∨
      Catalog.symbol? name = some .constant := by
  unfold Catalog.symbol?
  split <;> simp

theorem Records.undeclared_iff {t : SymbolTable} {before : List NameEvent}
    (record : t.Records before) {name : String} :
    Undeclared before name ↔ ∀ depth, t.lookupAt depth name = none := by
  constructor
  · intro undeclared depth
    cases found : t.lookupAt depth name with
    | none => rfl
    | some symbol =>
      refine (undeclared symbol.isVariable depth ((record.declared ..).2 ?_)).elim
      rw [found]
      rfl
  · intro nowhere isVariable depth declared
    have found := (record.declared ..).1 declared
    rw [nowhere] at found
    cases found

theorem Records.lookupAt_of_declared {t : SymbolTable} {before : List NameEvent}
    (record : t.Records before) {name : String} {isVariable : Bool} {depth : Nat}
    (declared : DeclaredAt before name isVariable depth) :
    ∃ symbol, t.lookupAt depth name = some symbol ∧ symbol.isVariable = isVariable := by
  have found := (record.declared ..).1 declared
  obtain ⟨symbol, found, flag⟩ := Option.map_eq_some_iff.1 found
  exact ⟨symbol, found, flag⟩

theorem Records.declared_of_lookupAt {t : SymbolTable} {before : List NameEvent}
    (record : t.Records before) {name : String} {symbol : Symbol} {depth : Nat}
    (found : t.lookupAt depth name = some symbol) :
    DeclaredAt before name symbol.isVariable depth :=
  (record.declared ..).2 (by rw [found]; rfl)

theorem step_call_of_lookup {t : SymbolTable} {callee : Name} {m : Misuse}
    (h : t.checkCallee callee = .error m) : t.step (.call callee) = .error m := by
  simp only [SymbolTable.step, h]
  rfl

/-- A violation stops the run. -/
theorem Records.step_of_violation {t : SymbolTable} {before : List NameEvent}
    (record : t.Records before) {e : NameEvent} {m : Misuse} (violation : Violation before e m) :
    t.step e = .error m := by
  cases violation with
  | unknown undeclared notBuiltin =>
    have nothing := lookup_of_nowhere (record.undeclared_iff.1 undeclared)
    simp only [SymbolTable.step, nothing, notBuiltin]
  | calledVariable declared notInside =>
    obtain ⟨symbol, found, isVariable⟩ := record.lookupAt_of_declared declared
    have standsFor := lookup_of_lookupAt found fun inner less => by
      cases inside : t.lookupAt inner _ with
      | none => rfl
      | some symbol => exact (notInside _ inner less (record.declared_of_lookupAt inside)).elim
    refine step_call_of_lookup ?_
    unfold checkCallee
    rw [standsFor]
    rcases symbol with type | _ | _
    · rfl
    · cases isVariable
    · rfl
  | calledConstant undeclared builtin =>
    refine step_call_of_lookup ?_
    unfold checkCallee
    rw [lookup_of_nowhere (record.undeclared_iff.1 undeclared), builtin]
  | unknownFunction undeclared notBuiltin =>
    refine step_call_of_lookup ?_
    unfold checkCallee
    rw [lookup_of_nowhere (record.undeclared_iff.1 undeclared), notBuiltin]
  | redeclared declared =>
    obtain ⟨symbol, found, -⟩ := record.lookupAt_of_declared declared
    rw [lookupAt_zero] at found
    exact declareName_eq_error_iff.2 ⟨by rw [found]; rfl, rfl⟩
  | itemOfFunction declared =>
    obtain ⟨symbol, found, notVariable⟩ := record.lookupAt_of_declared declared
    rw [lookupAt_zero] at found
    show t.declareItem _ = _
    rw [declareItem_eq, found, Option.any_some, notVariable, if_neg (by simp)]
    exact declareName_eq_error_iff.2 ⟨by rw [found]; rfl, rfl⟩

/-- A use that stops the run is of a name that is not known. -/
theorem Records.violation_of_use {t : SymbolTable} {before : List NameEvent} (record : t.Records before)
    {name : Name} {m : Misuse} (h : t.step (.use name) = .error m) : Violation before (.use name) m := by
  simp only [SymbolTable.step] at h
  rcases t.lookup_cases name.text with ⟨nowhere, builtin⟩ | ⟨depth, symbol, -, -, standsFor⟩
  · rw [builtin] at h
    cases notBuiltin : Catalog.symbol? name.text with
    | none =>
      rw [notBuiltin] at h
      cases h
      exact .unknown (record.undeclared_iff.2 nowhere) notBuiltin
    | some symbol =>
      rw [notBuiltin] at h
      cases h
  · rw [standsFor] at h
    cases h

/-- A call that stops the run is of a name that is no function. -/
theorem Records.violation_of_call {t : SymbolTable} {before : List NameEvent} (record : t.Records before)
    {callee : Name} {m : Misuse} (h : t.step (.call callee) = .error m) : Violation before (.call callee) m := by
  simp only [SymbolTable.step, checkCallee] at h
  rcases t.lookup_cases callee.text with
    ⟨nowhere, builtin⟩ | ⟨depth, symbol, found, notInside, standsFor⟩
  · have undeclared := record.undeclared_iff.2 nowhere
    rw [builtin] at h
    rcases catalog_symbol?_cases callee.text with none | function | constant
    · rw [none] at h
      cases h
      exact .unknownFunction undeclared none
    · rw [function] at h
      cases h
    · rw [constant] at h
      cases h
      exact .calledConstant undeclared constant
  · rw [standsFor] at h
    rcases symbol with type | _ | _
    · cases h
      refine .calledVariable (record.declared_of_lookupAt found) ?_
      intro isVariable inner less declared
      obtain ⟨symbol, inside, -⟩ := record.lookupAt_of_declared declared
      rw [notInside inner less] at inside
      cases inside
    · cases h
    · exact (record.noConstant _ _ found).elim

/-- What stops the run is a violation. -/
theorem Records.violation_of_step {t : SymbolTable} {before : List NameEvent}
    (record : t.Records before) {e : NameEvent} {m : Misuse} (h : t.step e = .error m) :
    Violation before e m := by
  cases e with
  | declare role name type =>
    obtain ⟨isSome, rfl⟩ := declareName_eq_error_iff.1 h
    obtain ⟨symbol, found⟩ := Option.isSome_iff_exists.1 isSome
    rw [← lookupAt_zero] at found
    exact .redeclared (record.declared_of_lookupAt found)
  | item name =>
    simp only [SymbolTable.step, declareItem_eq] at h
    split at h
    · cases h
    · next notVariable =>
      obtain ⟨isSome, rfl⟩ := declareName_eq_error_iff.1 h
      obtain ⟨symbol, found⟩ := Option.isSome_iff_exists.1 isSome
      rw [found, Option.any_some, Bool.not_eq_true] at notVariable
      rw [← lookupAt_zero] at found
      have declared := record.declared_of_lookupAt found
      rw [notVariable] at declared
      exact .itemOfFunction declared
  | use name => exact record.violation_of_use h
  | call callee => exact record.violation_of_call h
  | openScope => cases h
  | closeScope => cases h

/-- A run stops at the first violation, and goes to the end if there is none. -/
theorem Records.run_exact {t : SymbolTable} {before es : List NameEvent} (record : t.Records before)
    {depth : Nat} (below : depthAfterAll? t.locals.length es = some depth) :
    ((∃ t', t.run es = .ok t') ↔ Clean before es) ∧
      ∀ m, t.run es = .error m ↔ FirstViolation before es m := by
  induction es generalizing t before with
  | nil =>
    refine ⟨⟨fun _ => clean_nil before, fun _ => ⟨t, rfl⟩⟩, fun m => ⟨nofun, fun first => ?_⟩⟩
    exact (not_firstViolation_nil first).elim
  | cons e es ih =>
    rw [depthAfterAll?_cons, Option.bind_eq_some_iff] at below
    obtain ⟨middle, first, rest⟩ := below
    simp only [run_cons, clean_cons, firstViolation_cons]
    cases stepped : t.step e with
    | error m' =>
      -- This event is the first violation, so no later one can be.
      have violation := record.violation_of_step stepped
      refine ⟨⟨nofun, fun clean => (clean.1 m' violation).elim⟩, fun m => ⟨fun h => ?_, ?_⟩⟩
      · cases h
        exact .inl violation
      · rintro (other | ⟨clean, -⟩)
        · exact stepped.symm.trans (record.step_of_violation other)
        · exact (clean m' violation).elim
    | ok t₁ =>
      have fine : ∀ m, ¬ Violation before e m := by
        intro m violation
        rw [record.step_of_violation violation] at stepped
        cases stepped
      obtain ⟨accepts, rejects⟩ :=
        ih (record.step stepped first) (by rwa [length_locals_step stepped first])
      refine ⟨accepts.trans ⟨fun clean => ⟨fine, clean⟩, And.right⟩, fun m => (rejects m).trans ?_⟩
      exact ⟨fun later => .inr ⟨fine, later⟩, fun either => either.elim (fun h => (fine m h).elim) And.right⟩

/-! ## Whole programs -/

variable {globals globals' : Scope} {past p : Program}

/-- Where the global scope records what was accepted, the check of a program stops at the first violation. -/
theorem Records.exact_of_program (record : Records (.ofGlobals globals) past.events) (p : Program) :
    ((∃ globals', p.check globals = .ok globals') ↔ Clean past.events p.events) ∧
      ∀ d, p.check globals = .error d ↔ ∃ m, FirstViolation past.events p.events m ∧ d = m.diagnostic := by
  obtain ⟨accepts, rejects⟩ := record.run_exact (balanced_eventsAll p 0)
  rw [← checkStmts_eq_run] at accepts rejects
  refine ⟨Iff.trans ⟨?_, ?_⟩ accepts, fun d => Program.check_eq_error_iff.trans ?_⟩
  · rintro ⟨globals', checked⟩
    exact ⟨_, Program.check_eq_ok_iff.1 checked⟩
  · rintro ⟨t, checked⟩
    rw [eq_ofGlobals_of_checkStmts checked] at checked
    exact ⟨_, Program.check_eq_ok_iff.2 checked⟩
  · exact exists_congr fun m => and_congr (rejects m) Iff.rfl

/-- The global scope after a program records that program as well. -/
theorem Records.check (record : Records (.ofGlobals globals) past.events) (checked : p.check globals = .ok globals') :
    Records (.ofGlobals globals') (Program.events (past ++ p)) := by
  rw [Program.check_eq_ok_iff, checkStmts_eq_run] at checked
  unfold Program.events
  rw [Stmt.eventsAll_append]
  exact record.run checked (balanced_eventsAll p 0)

end SymbolTable

/-! ## Programs in a row -/

/-- With `past` accepted before, the requests leave the statements of this program accepted.  The rules decide
each time, and nothing is known of scopes. -/
inductive Accepts : Program → List CheckRequest → Program → Prop
  | done {past : Program} : Accepts past [] past
  | accept {past p last : Program} {requests : List CheckRequest} :
    NameEvent.Clean past.events p.events → Accepts (past ++ p) requests last →
    Accepts past (.check p :: requests) last
  | reject {past p last : Program} {requests : List CheckRequest} :
    ¬ NameEvent.Clean past.events p.events → Accepts past requests last →
    Accepts past (.check p :: requests) last
  | reset {past last : Program} {requests : List CheckRequest} :
    Accepts [] requests last → Accepts past (.reset :: requests) last

namespace Accepts

variable {past p other : Program} {requests : List CheckRequest}

theorem nil_iff : Accepts past [] other ↔ other = past := by
  constructor
  · rintro ⟨⟩
    rfl
  · rintro rfl
    exact .done

theorem reset_iff : Accepts past (.reset :: requests) other ↔ Accepts [] requests other := by
  constructor
  · rintro ⟨⟩
    assumption
  · exact .reset

theorem check_iff_of_clean (clean : NameEvent.Clean past.events p.events) :
    Accepts past (.check p :: requests) other ↔ Accepts (past ++ p) requests other := by
  constructor
  · intro accepts
    cases accepts with
    | accept _ rest => exact rest
    | reject unclean _ => exact (unclean clean).elim
  · exact .accept clean

theorem check_iff_of_not_clean (unclean : ¬ NameEvent.Clean past.events p.events) :
    Accepts past (.check p :: requests) other ↔ Accepts past requests other := by
  constructor
  · intro accepts
    cases accepts with
    | accept clean _ => exact (unclean clean).elim
    | reject _ rest => exact rest
  · exact .reject unclean

end Accepts

namespace Analyzer

/-- Requests lead from a record of what was accepted to a record of what is accepted then. -/
theorem exists_record_of_requests (requests : List CheckRequest) {globals : Scope} {past : Program}
    (record : SymbolTable.Records (.ofGlobals globals) past.events) :
    ∃ last globals', requests.foldl serve (ofGlobals globals) = ofGlobals globals' ∧
      SymbolTable.Records (.ofGlobals globals') (Program.events last) ∧
      ∀ other, Accepts past requests other ↔ other = last := by
  induction requests generalizing globals past with
  | nil => exact ⟨past, globals, rfl, record, fun _ => Accepts.nil_iff⟩
  | cons request requests ih =>
    rw [List.foldl_cons]
    cases request with
    | reset =>
      simp only [Accepts.reset_iff]
      exact ih SymbolTable.records_nil
    | check p =>
      obtain ⟨accepts, -⟩ := record.exact_of_program p
      rw [serve_check_ofGlobals]
      cases checked : p.check globals with
      | ok globals' =>
        simp only [Accepts.check_iff_of_clean (accepts.1 ⟨globals', checked⟩)]
        exact ih (record.check checked)
      | error d =>
        have unclean : ¬ NameEvent.Clean past.events p.events := by
          intro clean
          obtain ⟨globals', accepted⟩ := accepts.2 clean
          rw [checked] at accepted
          cases accepted
        simp only [Accepts.check_iff_of_not_clean unclean]
        exact ih record

end Analyzer

/-- The check is exact, whatever was checked before.  The requests determine which programs count as accepted,
`past`.  After them a program is accepted if and only if none of its events is a violation after the events of
`past` and its own earlier ones, and it is rejected for the first of its violations.  An analyzer answers what the
check says, keeps the scope that it gives, and is left as it was by a program that is rejected. -/
theorem Program.check_exact (requests : List CheckRequest) (p : Program) :
    let a := Analyzer.after requests
    ∃ past, (∀ other, Accepts [] requests other ↔ other = past) ∧
    ((∃ globals, p.check a.globals = .ok globals) ↔ NameEvent.Clean past.events p.events) ∧
    (∀ d, p.check a.globals = .error d ↔
      ∃ m, NameEvent.FirstViolation past.events p.events m ∧ d = m.diagnostic) ∧
    (a.analyze p).1 = (p.check a.globals).map (fun _ => ()) ∧
    Analyzer.after (requests ++ [.check p]) =
      match p.check a.globals with
      | .ok globals => .ofGlobals globals
      | .error _ => a := by
  have start : SymbolTable.Records (.ofGlobals []) (Program.events []) := SymbolTable.records_nil
  obtain ⟨past, globals, reached, record, accepted⟩ := Analyzer.exists_record_of_requests requests start
  replace reached : Analyzer.after requests = .ofGlobals globals := reached
  obtain ⟨accepts, rejects⟩ := record.exact_of_program p
  rw [Analyzer.after_check, reached]
  refine ⟨past, accepted, accepts, rejects, ?_, Analyzer.serve_check_ofGlobals globals p⟩
  rw [Analyzer.analyze_ofGlobals]
  change _ = (p.check globals).map _
  cases p.check globals with
  | ok globals' => rfl
  | error d => rfl

end ToraCompiler
