import ToraCompiler.Proofs.Compilation.Fragments
import ToraCompiler.Proofs.Compilation.Relocation
import ToraCompiler.Proofs.Tree.Acceptance

/-!
# A session and one compilation

The fragments that a session accepts, put below each other, are a source that compiles, and what it becomes
is the prologue and the outputs of the fragments (`incremental_eq_batch`).  A fragment that is only
rejected for its names is rejected there too, in the same words, as many lines further down as stand above
it.  The invariant of a session is `Session.Summarizes`: its scope and its names are those that the
combined program leaves.
-/

namespace ToraCompiler

/-! ## Joined lines -/

theorem joinLines_cons {line : String} {lines : List String} (more : lines ≠ []) :
    joinLines (line :: lines) = line ++ "\n" ++ joinLines lines :=
  joinWith_cons "\n" more

theorem joinLines_append {lines lines' : List String} (left : lines ≠ []) (right : lines' ≠ []) :
    joinLines (lines ++ lines') = joinLines lines ++ "\n" ++ joinLines lines' :=
  joinWith_append "\n" left right

/-! ## Programs below each other -/

theorem Grammar.Sequence.append {α : Type} {item : List Token → α → Prop} {us vs : List Token}
    {as bs : List α} (left : Sequence item us as) (right : Sequence item vs bs) :
    Sequence item (us ++ vs) (as ++ bs) := by
  induction left with
  | nil => exact right
  | cons first _ ih =>
    rw [List.append_assoc]
    exact .cons first ih

theorem Program.ofTokens_moved {ts : List Token} {p : Program} (h : Program.ofTokens ts = .ok p)
    (f : Position → Position) :
    Program.ofTokens (ts.map (Token.moved f)) = .ok (Stmt.movedAll f p) := by
  obtain ⟨rest, accepted⟩ := Program.ofTokens_eq_ok_iff_reads.1 h
  have follows := Reader.program_follows (f := f) (tokensBeforeEnd ts)
  rw [accepted] at follows
  rw [Program.ofTokens_eq_ok_iff_reads, tokensBeforeEnd_map_moved]
  generalize Reader.program ((tokensBeforeEnd ts).map (Token.moved f)) = reply at follows
  cases follows with
  | accept p rest => exact ⟨_, rfl⟩

theorem Program.ofSource_eq_ok_iff {source : String} {p : Program} :
    Program.ofSource source = .ok p ↔ ∃ ts, tokensOf source = .ok ts ∧ Program.ofTokens ts = .ok p := by
  unfold Program.ofSource
  cases tokensOf source with
  | error d => simp [bind, Except.bind]
  | ok ts => simp [bind, Except.bind]

/-- The program of a text with another one below it. -/
theorem Program.ofSource_append_newline {upper lower : String} {p q : Program}
    (upperProgram : Program.ofSource upper = .ok p) (lowerProgram : Program.ofSource lower = .ok q) :
    Program.ofSource (upper ++ "\n" ++ lower) =
      .ok (p ++ Stmt.movedAll (Position.down (lineEnds upper + 1)) q) := by
  obtain ⟨ts, upperTokens, upperRead⟩ := Program.ofSource_eq_ok_iff.1 upperProgram
  obtain ⟨us, lowerTokens, lowerRead⟩ := Program.ofSource_eq_ok_iff.1 lowerProgram
  have tokens := tokensOf_append_newline upperTokens lowerTokens
  have movedRead := Program.ofTokens_moved lowerRead (Position.down (lineEnds upper + 1))
  refine Program.ofSource_eq_ok_iff.2 ⟨_, tokens, ?_⟩
  refine Program.ofTokens_of_derivable ?_ fun t member => ?_
  · rw [tokensBeforeEnd_append]
    exact (Program.derivable_of_ofTokens upperRead).append (Program.derivable_of_ofTokens movedRead)
  · exact (wellSpelled_of_tokensOf tokens t (List.takeWhile_subset _ member)).hasValue

/-- The program of texts below each other, with one more at the bottom. -/
theorem Program.ofSource_joinLines_concat {texts : List String} {lower : String} {p q : Program}
    (upperProgram : Program.ofSource (joinLines texts) = .ok p)
    (lowerProgram : Program.ofSource lower = .ok q) :
    ∃ above, joinLines (texts ++ [lower]) = above ++ lower ∧
      Program.ofSource (joinLines (texts ++ [lower])) =
        .ok (p ++ Stmt.movedAll (Position.down (lineEnds above)) q) := by
  by_cases none : texts = []
  · subst none
    refine ⟨"", by simp [joinLines, joinWith], ?_⟩
    have noProgram : p = [] := Except.ok.inj (upperProgram.symm.trans rfl)
    have notMoved : Position.down (lineEnds "") = id := rfl
    rw [noProgram, notMoved, Stmt.movedAll_id]
    exact lowerProgram
  · have combined : joinLines (texts ++ [lower]) = joinLines texts ++ "\n" ++ lower :=
      joinLines_append none (by simp)
    refine ⟨joinLines texts ++ "\n", combined, ?_⟩
    have ends : lineEnds (joinLines texts ++ "\n") = lineEnds (joinLines texts) + 1 := by
      simp [lineEnds]
    rw [combined, ends]
    exact Program.ofSource_append_newline upperProgram lowerProgram

/-! ## Sessions -/

/-- Whether a source is a program with at least one statement. -/
def hasStatement (source : String) : Bool :=
  match Program.ofSource source with
  | .ok p => !p.isEmpty
  | .error _ => false

namespace Session

/-- The fragments that are accepted, one after another, with their outputs.  A rejected one leaves the
session as it was. -/
def accepted (s : Session) : List String → List (String × String)
  | [] => []
  | source :: rest =>
    match s.compile source with
    | .ok (text, s') => (source, text) :: s'.accepted rest
    | .error _ => s.accepted rest

/-- The session after the fragments. -/
def after (s : Session) : List String → Session
  | [] => s
  | source :: rest =>
    match s.compile source with
    | .ok (_, s') => s'.after rest
    | .error _ => s.after rest

/-- The outputs of the fragments with a statement. -/
def outputs (run : List (String × String)) : List String :=
  (run.filter fun entry => hasStatement entry.1).map Prod.snd

/-- The session is what `p` leaves, when it is compiled from the start, and the texts together are the
lines of `p`. -/
structure Summarizes (s : Session) (p : Program) (texts : List String) : Prop where
  symbols : SymbolTable.checkStmts (.ofGlobals []) p = .ok (.ofGlobals s.symbols)
  names : (Host.stmtsLines (.ofGlobals []) 0 p).2 = .ofGlobals s.names
  lines : joinLines ((Host.stmtsLines (.ofGlobals []) 0 p).1.map Host.Line.render) = joinLines texts
  nonempty : texts = [] ↔ p = []

theorem summarizes_nil : ({} : Session).Summarizes [] [] :=
  ⟨rfl, rfl, rfl, by simp⟩

theorem outputs_singleton {source : String} {p : Program} (read : Program.ofSource source = .ok p)
    (text : String) : outputs [(source, text)] = if p = [] then [] else [text] := by
  have same : hasStatement source = !p.isEmpty := by
    unfold hasStatement
    rw [read]
  cases p <;> simp [outputs, same]

theorem outputs_cons (entry : String × String) (run : List (String × String)) :
    outputs (entry :: run) = outputs [entry] ++ outputs run := by
  unfold outputs
  rw [← List.map_append, ← List.filter_append]
  rfl

/-- Lines below each other, when those of each program are known as texts. -/
theorem joinLines_append_of_nonempty {lines texts : List String} (same : joinLines lines = joinLines texts)
    (empty : texts = [] ↔ lines = []) {more : List String} (nonempty : more ≠ []) :
    joinLines (lines ++ more) = joinLines (texts ++ [joinLines more]) := by
  by_cases none : lines = []
  · rw [none, empty.2 none]
    rfl
  · have some : texts ≠ [] := fun h => none (empty.1 h)
    rw [joinLines_append none nonempty, joinLines_append some (by simp), same]
    rfl

/-- An accepted fragment extends the program that the session summarizes. -/
theorem Summarizes.compile {s s' : Session} {p q : Program} {texts : List String}
    {source text : String} (summary : s.Summarizes p texts) (f : Position → Position)
    (read : Program.ofSource source = .ok q) (h : s.compile source = .ok (text, s')) :
    s'.Summarizes (p ++ Stmt.movedAll f q) (texts ++ outputs [(source, text)]) := by
  obtain ⟨q', read', checked, names, rfl⟩ := of_compile_eq_ok h
  obtain rfl : q = q' := Except.ok.inj (read.symm.trans read')
  have lines := Host.stmtsLines_append (.ofGlobals []) 0 p (Stmt.movedAll f q)
  rw [Host.stmtsLines_movedAll, summary.names] at lines
  refine ⟨?_, ?_, ?_, ?_⟩
  · rw [SymbolTable.checkStmts_append, summary.symbols]
    show SymbolTable.checkStmts (.ofGlobals s.symbols) (Stmt.movedAll f q) = _
    rw [SymbolTable.checkStmts_movedAll, checked]
    rfl
  · rw [lines]
    exact names
  · rw [lines, outputs_singleton read]
    by_cases noStatement : q = []
    · rw [if_pos noStatement, Host.stmtsLines_eq_nil_iff.2 noStatement, List.append_nil,
        List.append_nil]
      exact summary.lines
    · rw [if_neg noStatement, List.map_append]
      refine joinLines_append_of_nonempty summary.lines ?_ ?_
      · rw [List.map_eq_nil_iff, Host.stmtsLines_eq_nil_iff]
        exact summary.nonempty
      · rwa [Ne, List.map_eq_nil_iff, Host.stmtsLines_eq_nil_iff]
  · rw [outputs_singleton read, List.append_eq_nil_iff, List.append_eq_nil_iff, summary.nonempty]
    cases q <;> simp [Stmt.movedAll]

/-- A fragment that is rejected for its names is rejected below the program that the session summarizes,
where its places have been moved. -/
theorem Summarizes.check_eq_error {s : Session} {p q : Program} {texts : List String}
    {source : String} {d : Diagnostic} (summary : s.Summarizes p texts) (n : Nat)
    (read : Program.ofSource source = .ok q) (h : s.compile source = .error d) :
    Program.check [] (p ++ Stmt.movedAll (Position.down n) q) =
      .error { d with line := d.line.map (· + n) } := by
  obtain ⟨m, checked, rfl⟩ := of_compile_eq_error read h
  have rejected : SymbolTable.checkStmts (.ofGlobals []) (p ++ Stmt.movedAll (Position.down n) q) =
      .error (m.moved (Position.down n)) := by
    rw [SymbolTable.checkStmts_append, summary.symbols]
    show SymbolTable.checkStmts (.ofGlobals s.symbols) (Stmt.movedAll _ q) = _
    rw [SymbolTable.checkStmts_movedAll, checked]
    rfl
  refine Program.check_eq_error_iff.2 ⟨_, rejected, ?_⟩
  simp only [Misuse.diagnostic, Misuse.message_moved, Misuse.position_moved]
  rfl

/-! ## Runs -/

/-- The texts of the accepted fragments below each other are a program, and the session summarizes it. -/
theorem Summarizes.run {s : Session} {p : Program} {before texts : List String}
    (read : Program.ofSource (joinLines before) = .ok p) (summary : s.Summarizes p texts)
    (sources : List String) :
    ∃ p', Program.ofSource (joinLines (before ++ (s.accepted sources).map Prod.fst)) = .ok p' ∧
      (s.after sources).Summarizes p' (texts ++ outputs (s.accepted sources)) := by
  induction sources generalizing s p before texts with
  | nil =>
    refine ⟨p, ?_, ?_⟩
    · rwa [accepted, List.map_nil, List.append_nil]
    · rwa [accepted, outputs, List.filter_nil, List.map_nil, List.append_nil]
  | cons source sources ih =>
    cases compiled : s.compile source with
    | error d =>
      -- A rejected fragment is skipped on both sides, and the invariant has not changed.
      have same : s.accepted (source :: sources) = s.accepted sources := by
        rw [accepted, compiled]
      have sameSession : s.after (source :: sources) = s.after sources := by
        rw [after, compiled]
      rw [same, sameSession]
      exact ih read summary
    | ok result =>
      obtain ⟨text, s'⟩ := result
      have one : s.accepted (source :: sources) = (source, text) :: s'.accepted sources := by
        rw [accepted, compiled]
      have next : s.after (source :: sources) = s'.after sources := by
        rw [after, compiled]
      -- How far down the new fragment stands does not matter to the session, only to messages.
      obtain ⟨q, readOne, -⟩ := of_compile_eq_ok compiled
      obtain ⟨above, -, combined⟩ := Program.ofSource_joinLines_concat read readOne
      have extended := ih combined (summary.compile (Position.down (lineEnds above)) readOne compiled)
      rw [one, next, outputs_cons, List.map_cons]
      simpa only [List.append_assoc, List.singleton_append] using extended

/-- Feeding only the fragments that were accepted leads to the same outputs. -/
theorem accepted_accepted (s : Session) (sources : List String) :
    s.accepted ((s.accepted sources).map Prod.fst) = s.accepted sources ∧
      s.after ((s.accepted sources).map Prod.fst) = s.after sources := by
  induction sources generalizing s with
  | nil => exact ⟨rfl, rfl⟩
  | cons source sources ih =>
    cases compiled : s.compile source with
    | error d =>
      simp only [accepted, after, compiled]
      exact ih s
    | ok result =>
      obtain ⟨text, s'⟩ := result
      obtain ⟨sameRun, sameSession⟩ := ih s'
      simp only [accepted, after, compiled, List.map_cons]
      exact ⟨congrArg _ sameRun, sameSession⟩

end Session

theorem compile_eq_ok {source : String} {p : Program} {globals : Scope}
    (read : Program.ofSource source = .ok p) (checked : p.check [] = .ok globals) :
    compile source = .ok (Host.moduleText [] p).1 := by
  unfold compile Artifact.ofSource
  rw [read]
  dsimp only [bind, Except.bind]
  rw [checked]
  rfl

theorem compile_eq_error {source : String} {p : Program} {d : Diagnostic}
    (read : Program.ofSource source = .ok p) (checked : p.check [] = .error d) :
    compile source = .error d := by
  unfold compile Artifact.ofSource
  rw [read]
  dsimp only [bind, Except.bind]
  rw [checked]

/-- The module of a program that has lines is the prologue, an empty line, and these lines. -/
theorem Host.moduleText_of_nonempty {p : Program} {texts : List String} (nonempty : p ≠ [])
    (same : joinLines ((stmtsLines (.ofGlobals []) 0 p).1.map Line.render) = joinLines texts) :
    (moduleText [] p).1 = prologue ++ "\n\n" ++ joinLines texts := by
  have some : (stmtsLines (.ofGlobals []) 0 p).1.map Line.render ≠ [] := by
    rwa [Ne, List.map_eq_nil_iff, stmtsLines_eq_nil_iff]
  have blank : "\n" ++ ("" ++ "\n" ++ joinLines texts) = "\n\n" ++ joinLines texts := by
    rw [String.empty_append, ← String.append_assoc]
    rfl
  unfold moduleText programLines
  dsimp only
  rw [joinLines_cons (by simp), joinLines_cons some, same, String.append_assoc, blank,
    String.append_assoc]

/-- One session and one compilation agree, whatever fragments are fed in and whichever of them fail.  The
accepted ones below each other compile, to the prologue and the outputs of those with a statement.  A
program that is rejected for its names after them is rejected below them, in the same words, as many lines
further down as end above it.  And the session is the one that the accepted ones alone lead to. -/
theorem incremental_eq_batch (sources : List String) :
    let run := ({} : Session).accepted sources
    let texts := run.map Prod.fst
    let s := ({} : Session).after sources
    (∃ text, compile (joinLines texts) = .ok text ∧
      ((∃ t ∈ texts, hasStatement t) →
        text = Host.prologue ++ "\n\n" ++ joinLines (Session.outputs run))) ∧
    (∀ u p d, Program.ofSource u = .ok p → s.compile u = .error d →
      ∃ above, joinLines (texts ++ [u]) = above ++ u ∧
        compile (joinLines (texts ++ [u])) =
          .error { d with line := d.line.map (· + lineEnds above) }) ∧
    ({} : Session).accepted texts = run ∧ ({} : Session).after texts = s := by
  intro run texts s
  have noProgram : Program.ofSource (joinLines []) = .ok [] := rfl
  obtain ⟨p, read, summary⟩ := Session.summarizes_nil.run noProgram sources
  rw [List.nil_append] at read summary
  refine ⟨⟨(Host.moduleText [] p).1, ?_, ?_⟩, ?_, Session.accepted_accepted _ sources⟩
  · exact compile_eq_ok read (Program.check_eq_ok_iff.2 summary.symbols)
  · rintro ⟨t, member, statement⟩
    refine Host.moduleText_of_nonempty ?_ summary.lines
    obtain ⟨entry, inRun, rfl⟩ := List.mem_map.1 member
    have output : entry.2 ∈ Session.outputs run :=
      List.mem_map.2 ⟨entry, List.mem_filter.2 ⟨inRun, statement⟩, rfl⟩
    intro empty
    rw [summary.nonempty.2 empty] at output
    cases output
  · intro u q d readLower rejected
    obtain ⟨above, split, combined⟩ := Program.ofSource_joinLines_concat read readLower
    exact ⟨above, split, compile_eq_error combined (summary.check_eq_error _ readLower rejected)⟩

/-- Two of four fragments are accepted, and a variable is declared again below them. -/
theorem incremental_eq_batch_redeclared :
    let sources := ["let x = 1;", "x = ;", "print(y);", "print(x);"]
    compile "let x = 1;\nprint(x);" =
        .ok (Host.prologue ++ "\n\n" ++ joinLines ["x = 1", "print(x, end='')"]) ∧
      (({} : Session).after sources).compile "\nlet x = 2;" =
        .error ⟨.semantic, "Variable 'x' already declared", some 2, some 5⟩ ∧
      compile "let x = 1;\nprint(x);\n\nlet x = 2;" =
        .error ⟨.semantic, "Variable 'x' already declared", some 4, some 5⟩ := by
  intro sources
  obtain ⟨⟨text, compiled, whole⟩, rejects, -⟩ := incremental_eq_batch sources
  have run : ({} : Session).accepted sources =
      [("let x = 1;", "x = 1"), ("print(x);", "print(x, end='')")] := by decide +kernel
  have rejected : (({} : Session).after sources).compile "\nlet x = 2;" =
      .error ⟨.semantic, "Variable 'x' already declared", some 2, some 5⟩ := by decide +kernel
  have texts : joinLines ["let x = 1;", "print(x);"] = "let x = 1;\nprint(x);" := by decide +kernel
  have lower : joinLines ["let x = 1;", "print(x);", "\nlet x = 2;"] =
      "let x = 1;\nprint(x);\n\nlet x = 2;" := by decide +kernel
  have printed : Session.outputs [("let x = 1;", "x = 1"), ("print(x);", "print(x, end='')")] =
      ["x = 1", "print(x, end='')"] := by decide +kernel
  simp only [run, List.map_cons, List.map_nil, List.cons_append, List.nil_append]
    at compiled whole rejects
  rw [texts] at compiled
  refine ⟨?_, rejected, ?_⟩
  · rw [compiled, whole ⟨"let x = 1;", by simp, by decide +kernel⟩, printed]
  · cases read : Program.ofSource "\nlet x = 2;" with
    | error d =>
      have isProgram : (Program.ofSource "\nlet x = 2;").isOk = true := by decide +kernel
      rw [read] at isProgram
      cases isProgram
    | ok p =>
      obtain ⟨above, split, found⟩ := rejects _ p _ read rejected
      rw [lower] at split found
      have ends : lineEnds above = 2 := by
        have counted := congrArg lineEnds split
        simpa [lineEnds] using counted.symm
      rw [found, ends]
      rfl

end ToraCompiler
