import ToraCompiler.Proofs.Scope.InPlace

/-!
# What an analysis does to the scopes

A program that is accepted adds to the scope where it stands exactly what it declares outside function bodies
(`Stmt.declarations`), and nothing to the scopes around it: `SymbolTable.Declares`, one lemma for each way to
declare and one case for each statement.  An analyzer goes through a program in place, and what its row of scopes
is afterwards is known from there, for every analyzer that requests lead to (`Analyzer.analyze_effect`).  The
built-in names stand in front of that row, and no step of it names them.
-/

namespace ToraCompiler

/-! ## What a program declares -/

mutual

/-- What a statement declares in the scope where it stands: variables, functions and loop variables, in its
blocks as well, but not what is inside functions. -/
def Stmt.declarations : Stmt → List (String × Symbol)
  | .declare name type _ => [(name.text, .variable type)]
  | .function name _ _ _ => [(name.text, .function)]
  | .branch _ yes no => Stmt.declarationsAll yes ++ Stmt.declarationsElse no
  | .loop _ body => Stmt.declarationsAll body
  | .each item _ body => (item.text, .variable none) :: Stmt.declarationsAll body
  | .print _ _ => []
  | .eval _ => []
  | .assign _ _ => []

/-- What statements declare, in order. -/
def Stmt.declarationsAll : List Stmt → List (String × Symbol)
  | [] => []
  | s :: rest => s.declarations ++ Stmt.declarationsAll rest

/-- What the second block of a branch declares. -/
def Stmt.declarationsElse : Option (List Stmt) → List (String × Symbol)
  | none => []
  | some body => Stmt.declarationsAll body

end

/-- The names of a scope are different. -/
def Scope.Distinct (scope : Scope) : Prop :=
  (scope.map Prod.fst).Nodup

namespace SymbolTable

/-- The second table has more names in its innermost scope than the first one: those of `ds` that the scope
lacked, each as it comes first in `ds`.  All other scopes are the same. -/
structure Declares (t t' : SymbolTable) (ds : List (String × Symbol)) : Prop where
  outer : t'.toList.tail = t.toList.tail
  lookup : ∀ name, t'.lookupInnermost name = (t.lookupInnermost name).or (ds.lookup name)
  distinct : t.innermost.Distinct → t'.innermost.Distinct

namespace Declares

variable {t t' t'' : SymbolTable} {ds es : List (String × Symbol)}

protected theorem refl (t : SymbolTable) : Declares t t [] :=
  ⟨rfl, fun name => by rw [List.lookup_nil, Option.or_none], id⟩

theorem trans (first : Declares t t' ds) (second : Declares t' t'' es) :
    Declares t t'' (ds ++ es) where
  outer := second.outer.trans first.outer
  lookup name := by rw [second.lookup, first.lookup, List.lookup_append, Option.or_assoc]
  distinct := second.distinct ∘ first.distinct

/-- A name that is declared was not there before. -/
theorem declareName {role : Role} {name : Name} {symbol : Symbol}
    (declared : t.declareName role name symbol = .ok t') : Declares t t' [(name.text, symbol)] := by
  obtain ⟨fresh, rfl⟩ := declareName_eq_ok_iff.1 declared
  refine ⟨?_, fun other => ?_, fun distinct => ?_⟩
  · rw [Scopes.toList_modifyInnermost, List.tail_cons]
  · unfold lookupInnermost at fresh ⊢
    rw [Scopes.innermost_modifyInnermost, List.lookup_cons, List.lookup_cons, List.lookup_nil]
    cases same : other == name.text with
    | true =>
      rw [eq_of_beq same, fresh]
      rfl
    | false => rw [Option.or_none]
  · rw [Scopes.innermost_modifyInnermost]
    refine List.nodup_cons.2 ⟨fun member => ?_, distinct⟩
    obtain ⟨entry, isEntry, sameName⟩ := List.mem_map.1 member
    have differs := List.lookup_eq_none_iff.1 fresh entry isEntry
    simp [sameName] at differs

/-- A loop variable that is there already stays what it is. -/
theorem declareItem {item : Name} (declared : t.declareItem item = .ok t') :
    Declares t t' [(item.text, .variable none)] := by
  rw [declareItem_eq] at declared
  split at declared
  · next isVariable =>
    cases declared
    refine ⟨rfl, fun name => ?_, id⟩
    rw [List.lookup_cons, List.lookup_nil]
    cases same : name == item.text with
    | true =>
      rw [eq_of_beq same]
      cases found : t.lookupInnermost item.text with
      | none =>
        rw [found] at isVariable
        cases isVariable
      | some symbol => rfl
    | false => rw [Option.or_none]
  · exact declareName declared

theorem declareParams {params : List Param} (declared : t.declareParams params = .ok t') :
    ∃ ds, Declares t t' ds := by
  induction params generalizing t with
  | nil =>
    cases declared
    exact ⟨[], .refl _⟩
  | cons p params ih =>
    rw [SymbolTable.declareParams] at declared
    obtain ⟨t₁, first, others⟩ := bind_eq_ok_iff.1 declared
    obtain ⟨ds, rest⟩ := ih others
    exact ⟨_, (declareName first).trans rest⟩

/-- Whatever is declared in a scope is gone when the scope is closed. -/
theorem pop_push (inside : Declares (t.push []) t' ds) : t'.pop = t := by
  have outer := inside.outer
  rw [Scopes.toList_push, List.tail_cons] at outer
  rcases t' with ⟨_ | ⟨scope, locals⟩, globals⟩
  · exact absurd outer.symm (List.concat_ne_nil _ _)
  · obtain ⟨sameLocals, sameGlobals⟩ := List.append_inj' outer rfl
    rcases t with ⟨outerLocals, outerGlobals⟩
    obtain rfl : locals = outerLocals := sameLocals
    obtain rfl : globals = outerGlobals := List.singleton_inj.1 sameGlobals
    rfl

end Declares

mutual

/-- A statement that is accepted declares in its scope what it declares outside functions. -/
theorem declares_checkStmt : ∀ (s : Stmt) {t t' : SymbolTable}, t.checkStmt s = .ok t' →
    Declares t t' s.declarations
  | .declare name type value, t, t', accepted => by
    obtain ⟨t₁, declared, -, rfl⟩ := checkStmt_declare accepted
    exact .declareName declared
  | .function name params result body, t, t', accepted => by
    obtain ⟨t₁, inner, inner', declared, params, checked, rfl⟩ := checkStmt_function accepted
    obtain ⟨ds, entered⟩ := Declares.declareParams params
    have inside := entered.trans (declares_checkStmts body checked)
    rw [inside.pop_push]
    exact .declareName declared
  | .branch condition yes no, t, t', accepted => by
    obtain ⟨t₁, -, checkedYes, checkedNo⟩ := checkStmt_branch accepted
    exact (declares_checkStmts yes checkedYes).trans (declares_checkElse no checkedNo)
  | .loop condition body, t, t', accepted => by
    obtain ⟨-, checked⟩ := checkStmt_loop accepted
    exact declares_checkStmts body checked
  | .each item iterable body, t, t', accepted => by
    obtain ⟨t₁, -, declared, checked⟩ := checkStmt_each accepted
    exact (Declares.declareItem declared).trans (declares_checkStmts body checked)
  | .print value newline, t, t', accepted => by
    obtain ⟨-, rfl⟩ := checkStmt_print accepted
    exact .refl _
  | .eval value, t, t', accepted => by
    obtain ⟨-, rfl⟩ := checkStmt_eval accepted
    exact .refl _
  | .assign target value, t, t', accepted => by
    obtain ⟨-, rfl⟩ := checkStmt_assign accepted
    exact .refl _

theorem declares_checkStmts : ∀ (p : List Stmt) {t t' : SymbolTable}, t.checkStmts p = .ok t' →
    Declares t t' (Stmt.declarationsAll p)
  | [], t, t', accepted => by
    cases accepted
    exact .refl t
  | s :: rest, t, t', accepted => by
    obtain ⟨t₁, first, others⟩ := checkStmts_cons accepted
    exact (declares_checkStmt s first).trans (declares_checkStmts rest others)

theorem declares_checkElse : ∀ (no : Option (List Stmt)) {t t' : SymbolTable}, t.checkElse no = .ok t' →
    Declares t t' (Stmt.declarationsElse no)
  | none, t, t', accepted => by
    cases accepted
    exact .refl t
  | some body, t, t', accepted => declares_checkStmts body accepted

end

end SymbolTable

namespace Analyzer

/-! ## Analyses in a row -/

/-- An accepted program adds its declarations to the global scope. -/
theorem declares_of_check {globals globals' : Scope} {p : Program} (checked : p.check globals = .ok globals') :
    SymbolTable.Declares (.ofGlobals globals) (.ofGlobals globals') (Stmt.declarationsAll p) :=
  SymbolTable.declares_checkStmts p (Program.check_eq_ok_iff.1 checked)

/-- Between requests the built-in names and a global scope are open, and the names of that scope are different. -/
def Settled (a : Analyzer) : Prop :=
  ∃ globals, a = ofGlobals globals ∧ globals.Distinct

theorem settled_new : Settled new :=
  ⟨[], rfl, List.nodup_nil⟩

theorem Settled.serve {a : Analyzer} (settled : a.Settled) (request : CheckRequest) : Settled (a.serve request) := by
  obtain ⟨globals, rfl, distinct⟩ := settled
  cases request with
  | reset => exact settled_new
  | check p =>
    rw [serve_check_ofGlobals]
    cases checked : p.check globals with
    | ok globals' => exact ⟨globals', rfl, (declares_of_check checked).distinct distinct⟩
    | error d => exact ⟨globals, rfl, distinct⟩

theorem settled_after (requests : List CheckRequest) : Settled (after requests) := by
  have along : ∀ a : Analyzer, a.Settled → Settled (requests.foldl serve a) := by
    induction requests with
    | nil => exact fun _ settled => settled
    | cons request requests ih => exact fun a settled => ih _ (settled.serve request)
  exact along new settled_new

/-- Between programs a name stands for what the global scope says, and else for what it is built in as. -/
theorem lookup_ofGlobals (globals : Scope) (name : String) :
    (ofGlobals globals).lookup name = (globals.lookup name).or (Catalog.symbol? name) := by
  change (ofTable (.ofGlobals globals)).lookup name = _
  rw [lookup_ofTable, SymbolTable.lookup]
  cases found : globals.lookup name with
  | none => simp [Scopes.toList, Scopes.ofGlobals, found]
  | some symbol => simp [Scopes.toList, Scopes.ofGlobals, found]

/-- An analysis has exactly the declared effect, whatever was analyzed before.  Afterwards two scopes are open,
that of the built-in names, which is the catalog as ever, and the global one, and names are looked up in them.  A
program that is rejected leaves every scope as it was.  One that is accepted leaves the names of the global scope
as they were and adds those that it declares outside functions and that the scope lacked, each once and as it is
declared first. -/
theorem analyze_effect (requests : List CheckRequest) (p : Program) :
    let a := after requests
    let a' := after (requests ++ [.check p])
    a'.depth = 2 ∧ a'.scopes = [Catalog.scope, a'.globals] ∧
    (∀ name, a'.lookup name = (a'.globals.lookup name).or (Catalog.symbol? name)) ∧
    match (a.analyze p).1 with
    | .error d => p.check a.globals = .error d ∧ a' = a
    | .ok () => p.check a.globals = .ok a'.globals ∧ a'.globals.Distinct ∧
        ∀ name, a'.globals.lookup name =
          (a.globals.lookup name).or ((Stmt.declarationsAll p).lookup name) := by
  intro a a'
  obtain ⟨globals, reached, distinct⟩ := settled_after requests
  have here : a = ofGlobals globals := reached
  have next : a' = (a.analyze p).2 := after_check requests p
  have analyzed := analyze_ofGlobals globals p
  cases checked : p.check globals with
  | ok globals' =>
    have added := declares_of_check checked
    simp only [checked] at analyzed
    rw [next, here, analyzed]
    exact ⟨rfl, rfl, lookup_ofGlobals globals', checked, added.distinct distinct, added.lookup⟩
  | error d =>
    simp only [checked] at analyzed
    rw [next, here, analyzed]
    exact ⟨rfl, rfl, lookup_ofGlobals globals, checked, rfl⟩

end Analyzer

end ToraCompiler
