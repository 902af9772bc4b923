import ToraCompiler.Host.Writer

/-!
# The lines of programs

What the writer does with statements one after another: their lines follow each other, and the names that
the first ones leave are those that the next ones start with.  Every statement has a line, and none leaves
a scope open.
-/

namespace ToraCompiler.Host

theorem stmtsLines_append (names : NameScopes) (depth : Nat) (p q : List Stmt) :
    stmtsLines names depth (p ++ q) =
      ((stmtsLines names depth p).1 ++ (stmtsLines (stmtsLines names depth p).2 depth q).1,
        (stmtsLines (stmtsLines names depth p).2 depth q).2) := by
  induction p generalizing names with
  | nil => rfl
  | cons s p ih =>
    rw [List.cons_append]
    simp only [stmtsLines]
    rw [ih]
    simp only [List.append_assoc]

/-- A statement is written as one line at least. -/
theorem stmtLines_ne_nil (names : NameScopes) (depth : Nat) (s : Stmt) :
    (stmtLines names depth s).1 ≠ [] := by
  cases s <;> simp [stmtLines, blockLines]

theorem stmtsLines_eq_nil_iff {names : NameScopes} {depth : Nat} {p : List Stmt} :
    (stmtsLines names depth p).1 = [] ↔ p = [] := by
  cases p with
  | nil => simp [stmtsLines]
  | cons s p => simp [stmtsLines, stmtLines_ne_nil]

/-! ## Open scopes -/

theorem length_locals_declare (names : NameScopes) (name : String) :
    (names.declare name).locals.length = names.locals.length := by
  rcases names with ⟨_ | ⟨scope, outer⟩, globals⟩ <;> rfl

mutual

theorem length_locals_stmtLines : ∀ (names : NameScopes) (depth : Nat) (s : Stmt),
    (stmtLines names depth s).2.locals.length = names.locals.length
  | names, depth, .declare name _ _ => length_locals_declare names name.text
  | names, depth, .function name params _ body => by
    have inner := length_locals_stmtsLines
      ((names.declare name.text).push (params.map (·.name.text))) (depth + 1) body
    have outer := length_locals_declare names name.text
    simp only [stmtLines, Scopes.pop, List.length_tail, inner]
    exact outer
  | names, depth, .branch _ yes no => by
    simp only [stmtLines]
    rw [length_locals_elseLines _ _ no, length_locals_stmtsLines _ _ yes]
  | names, depth, .loop _ body => length_locals_stmtsLines names (depth + 1) body
  | names, depth, .each item _ body => by
    simp only [stmtLines]
    rw [length_locals_stmtsLines _ _ body, length_locals_declare]
  | names, depth, .print _ _ => rfl
  | names, depth, .eval _ => rfl
  | names, depth, .assign target _ => length_locals_declare names target.text

theorem length_locals_stmtsLines : ∀ (names : NameScopes) (depth : Nat) (p : List Stmt),
    (stmtsLines names depth p).2.locals.length = names.locals.length
  | names, depth, [] => rfl
  | names, depth, s :: rest => by
    simp only [stmtsLines]
    rw [length_locals_stmtsLines _ _ rest, length_locals_stmtLines _ _ s]

theorem length_locals_elseLines : ∀ (names : NameScopes) (depth : Nat) (no : Option (List Stmt)),
    (elseLines names depth no).2.locals.length = names.locals.length
  | names, depth, none => rfl
  | names, depth, some [] => rfl
  | names, depth, some (s :: rest) => by
    simp only [elseLines]
    rw [length_locals_stmtsLines _ _ rest, length_locals_stmtLines _ _ s]

end

/-- A program that starts in the global scope ends there. -/
theorem eq_ofGlobals_of_stmtsLines (globals : List String) (depth : Nat) (p : List Stmt) :
    (stmtsLines (.ofGlobals globals) depth p).2 =
      .ofGlobals (stmtsLines (.ofGlobals globals) depth p).2.globals := by
  have noLocals := length_locals_stmtsLines (.ofGlobals globals) depth p
  generalize (stmtsLines (.ofGlobals globals) depth p).2 = names at noLocals ⊢
  rcases names with ⟨locals, globals'⟩
  obtain rfl := List.length_eq_zero_iff.1 noLocals
  rfl

end ToraCompiler.Host
