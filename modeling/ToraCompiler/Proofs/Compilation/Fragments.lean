import ToraCompiler.Compilation
import ToraCompiler.Proofs.Host.Lines
import ToraCompiler.Proofs.Scope.Events

/-!
# Fragments

What a session does with one fragment, in terms of the check and the writer: both start from the global
scope that the session holds, and both end in one.
-/

namespace ToraCompiler.Session

/-- What is known of an accepted fragment. -/
theorem of_compile_eq_ok {s s' : Session} {source text : String}
    (h : s.compile source = .ok (text, s')) :
    ∃ p, Program.ofSource source = .ok p ∧
      SymbolTable.checkStmts (.ofGlobals s.symbols) p = .ok (.ofGlobals s'.symbols) ∧
      (Host.stmtsLines (.ofGlobals s.names) 0 p).2 = .ofGlobals s'.names ∧
      text = joinLines ((Host.stmtsLines (.ofGlobals s.names) 0 p).1.map Host.Line.render) := by
  obtain ⟨p, read, h⟩ := bind_eq_ok_iff.1 h
  obtain ⟨symbols, checked, h⟩ := bind_eq_ok_iff.1 h
  cases h
  have globalNames := Host.eq_ofGlobals_of_stmtsLines s.names 0 p
  exact ⟨p, read, Program.check_eq_ok_iff.1 checked, globalNames, rfl⟩

/-- What is known of a fragment that is rejected although it is a program. -/
theorem of_compile_eq_error {s : Session} {source : String} {p : Program} {d : Diagnostic}
    (read : Program.ofSource source = .ok p) (h : s.compile source = .error d) :
    ∃ m, SymbolTable.checkStmts (.ofGlobals s.symbols) p = .error m ∧ d = m.diagnostic := by
  unfold compile at h
  rw [read] at h
  dsimp only [bind, Except.bind] at h
  cases checked : p.check s.symbols with
  | error d' =>
    rw [checked] at h
    cases h
    exact Program.check_eq_error_iff.1 checked
  | ok symbols =>
    rw [checked] at h
    cases h

end ToraCompiler.Session
