import ToraCompiler.Proofs.Compilation.Batch
import ToraCompiler.Proofs.Token.Layout

/-!
# Compilation does not depend on layout

Two rows of tokens that are spelled alike differ in places only, so they become the same row when all places
are forgotten (`Token.map_placeless`).  Every stage behaves on the forgotten row as on either of the two,
up to the places in its messages: reading by `Reader.program_follows`, the check by
`SymbolTable.checkStmts_movedAll`, and the writer by `Host.stmtsLines_movedAll`.  Hence both sources become
the same text, or are rejected by the same stage in the same words (`compile_layout`).
-/

namespace ToraCompiler

/-- The one place to which all others are moved when places are forgotten. -/
def placeless (_ : Position) : Position :=
  .start

/-- Tokens that are spelled alike are the same when their places are forgotten. -/
theorem Token.map_placeless {ts us : List Token}
    (same : us.map Token.spelling = ts.map Token.spelling) :
    us.map (Token.moved placeless) = ts.map (Token.moved placeless) := by
  have spelled : ∀ t : Token, t.moved placeless = ⟨t.spelling.1, t.spelling.2, .start⟩ := fun _ => rfl
  have forgotten := congrArg
    (List.map fun spelling : Kind × String => (⟨spelling.1, spelling.2, .start⟩ : Token)) same
  simpa only [List.map_map, Function.comp_def, ← spelled] using forgotten

/-- The stage and the words of a diagnostic. -/
def Diagnostic.verdict (d : Diagnostic) : Stage × String :=
  (d.stage, d.message)

/-! ## Reading -/

/-- A row with its places forgotten is read as the program without its places, or refused in the same
words. -/
theorem Program.ofTokens_placeless (ts : List Token) :
    (∃ p, Program.ofTokens ts = .ok p ∧
      Program.ofTokens (ts.map (Token.moved placeless)) = .ok (Stmt.movedAll placeless p)) ∨
    ∃ d d', Program.ofTokens ts = .error d ∧
      Program.ofTokens (ts.map (Token.moved placeless)) = .error d' ∧ d'.verdict = d.verdict := by
  cases read : Program.ofTokens ts with
  | ok p => exact .inl ⟨p, rfl, Program.ofTokens_moved read placeless⟩
  | error d =>
    obtain ⟨reason, rest, refused, rfl⟩ := Program.ofTokens_eq_error_iff.1 read
    have follows := Reader.program_follows (f := placeless) (tokensBeforeEnd ts)
    rw [refused, ← tokensBeforeEnd_map_moved] at follows
    generalize reply : Reader.program (tokensBeforeEnd (ts.map (Token.moved placeless))) = r at follows
    cases follows with
    | refuse rest sameWords =>
      refine .inr ⟨_, _, rfl, Program.ofTokens_eq_error_iff.2 ⟨_, _, reply, rfl⟩, ?_⟩
      exact congrArg (Prod.mk Stage.grammatical) sameWords

/-- Two rows that are spelled alike are read as programs that differ in places only, or refused in the same
words. -/
theorem Program.ofTokens_spelling {ts us : List Token}
    (same : us.map Token.spelling = ts.map Token.spelling) :
    (∃ p q, Program.ofTokens ts = .ok p ∧ Program.ofTokens us = .ok q ∧
      Stmt.movedAll placeless q = Stmt.movedAll placeless p) ∨
    ∃ d d', Program.ofTokens ts = .error d ∧ Program.ofTokens us = .error d' ∧
      d'.verdict = d.verdict := by
  have left := Program.ofTokens_placeless ts
  have right := Program.ofTokens_placeless us
  rw [Token.map_placeless same] at right
  rcases left with ⟨p, readLeft, placelessLeft⟩ | ⟨d, e, readLeft, placelessLeft, sameLeft⟩
  · rcases right with ⟨q, readRight, placelessRight⟩ | ⟨d', e', readRight, placelessRight, -⟩
    · rw [placelessLeft] at placelessRight
      exact .inl ⟨p, q, readLeft, readRight, (Except.ok.inj placelessRight).symm⟩
    · rw [placelessLeft] at placelessRight
      cases placelessRight
  · rcases right with ⟨q, readRight, placelessRight⟩ | ⟨d', e', readRight, placelessRight, sameRight⟩
    · rw [placelessLeft] at placelessRight
      cases placelessRight
    · rw [placelessLeft] at placelessRight
      cases placelessRight
      exact .inr ⟨d, d', readLeft, readRight, sameRight.symm.trans sameLeft⟩

/-! ## Later stages -/

theorem Host.moduleText_placeless {p q : Program}
    (same : Stmt.movedAll placeless q = Stmt.movedAll placeless p) :
    (moduleText [] q).1 = (moduleText [] p).1 := by
  have lines : stmtsLines (.ofGlobals []) 0 q = stmtsLines (.ofGlobals []) 0 p := by
    rw [← stmtsLines_movedAll placeless, same, stmtsLines_movedAll]
  unfold moduleText programLines
  rw [lines]

/-- The check of two programs that differ in places only ends in the same scope, or with misuses in the
same words. -/
theorem Program.check_placeless {p q : Program}
    (same : Stmt.movedAll placeless q = Stmt.movedAll placeless p) (globals : Scope) :
    (∃ s, Program.check globals p = .ok s ∧ Program.check globals q = .ok s) ∨
    ∃ d d', Program.check globals p = .error d ∧ Program.check globals q = .error d' ∧
      d'.verdict = d.verdict := by
  have forgotten := congrArg (SymbolTable.checkStmts (.ofGlobals globals)) same
  rw [SymbolTable.checkStmts_movedAll, SymbolTable.checkStmts_movedAll] at forgotten
  unfold Program.check
  generalize SymbolTable.checkStmts (.ofGlobals globals) p = left,
    SymbolTable.checkStmts (.ofGlobals globals) q = right at forgotten ⊢
  cases left with
  | ok t =>
    cases right with
    | ok t' =>
      cases forgotten
      exact .inl ⟨t.globals, rfl, rfl⟩
    | error m' => cases forgotten
  | error m =>
    cases right with
    | ok t' => cases forgotten
    | error m' =>
      have sameMisuse : m'.moved placeless = m.moved placeless := Except.error.inj forgotten
      have sameWords : m'.message = m.message := by
        rw [← Misuse.message_moved placeless m', sameMisuse, Misuse.message_moved]
      exact .inr ⟨_, _, rfl, rfl, congrArg (Prod.mk Stage.semantic) sameWords⟩

theorem compile_eq_error_of_read {source : String} {d : Diagnostic}
    (read : Program.ofSource source = .error d) : compile source = .error d := by
  unfold compile Artifact.ofSource
  rw [read]
  rfl

/-- Any layout of the texts of a source's tokens has tokens of the same kinds and texts, and compiles to the
same text or is rejected by the same stage in the same words. -/
theorem compile_layout {source other : String} {ts : List Token} (scanned : tokensOf source = .ok ts)
    (laid : Layout ((tokensBeforeEnd ts).map Token.text) other.toList) :
    (∃ us, tokensOf other = .ok us ∧ us.map Token.spelling = ts.map Token.spelling) ∧
      ((∃ text, compile source = .ok text ∧ compile other = .ok text) ∨
        ∃ d d', compile source = .error d ∧ compile other = .error d' ∧ d'.stage = d.stage ∧
          d'.message = d.message) := by
  obtain ⟨us, scannedOther, same⟩ := tokensOf_layout scanned laid
  have readSource : Program.ofSource source = Program.ofTokens ts := by
    unfold Program.ofSource
    rw [scanned]
    rfl
  have readOther : Program.ofSource other = Program.ofTokens us := by
    unfold Program.ofSource
    rw [scannedOther]
    rfl
  refine ⟨⟨us, scannedOther, same⟩, ?_⟩
  rcases Program.ofTokens_spelling same with ⟨p, q, readP, readQ, forgotten⟩ | ⟨d, d', left, right, alike⟩
  · rw [readP] at readSource
    rw [readQ] at readOther
    rcases Program.check_placeless forgotten [] with ⟨s, checkedP, checkedQ⟩ | ⟨d, d', left, right, alike⟩
    · refine .inl ⟨_, compile_eq_ok readSource checkedP, ?_⟩
      rw [compile_eq_ok readOther checkedQ, Host.moduleText_placeless forgotten]
    · obtain ⟨sameStage, sameWords⟩ := Prod.mk.inj alike
      exact .inr ⟨d, d', compile_eq_error readSource left, compile_eq_error readOther right, sameStage,
        sameWords⟩
  · obtain ⟨sameStage, sameWords⟩ := Prod.mk.inj alike
    exact .inr ⟨d, d', compile_eq_error_of_read (readSource.trans left),
      compile_eq_error_of_read (readOther.trans right), sameStage, sameWords⟩

/-- A number with a minus of its own, with a comment in the gap before it. -/
theorem compile_layout_minus :
    tokensOf "2-1;" =
        .ok [⟨.number, "2", ⟨1, 1⟩⟩, ⟨.number, "-1", ⟨1, 2⟩⟩, ⟨.semicolon, ";", ⟨1, 4⟩⟩,
          ⟨.endOfInput, "", ⟨1, 0⟩⟩] ∧
      Layout ["2", "-1", ";"] "2 // two\n-1\t;\n".toList ∧
      ((∃ text, compile "2-1;" = .ok text ∧ compile "2 // two\n-1\t;\n" = .ok text) ∨
        ∃ d d', compile "2-1;" = .error d ∧ compile "2 // two\n-1\t;\n" = .error d' ∧
          d'.stage = d.stage ∧ d'.message = d.message) := by
  have scanned : tokensOf "2-1;" =
      .ok [⟨.number, "2", ⟨1, 1⟩⟩, ⟨.number, "-1", ⟨1, 2⟩⟩, ⟨.semicolon, ";", ⟨1, 4⟩⟩,
        ⟨.endOfInput, "", ⟨1, 0⟩⟩] := by decide +kernel
  have comment : Gap [' ', '/', '/', ' ', 't', 'w', 'o', '\n'] :=
    .intro rfl (.comment (by decide : '\n' ∉ [' ', 't', 'w', 'o']) .nil)
  have tab : Gap ['\t'] := .intro rfl .nil
  have lineEnd : Gap ['\n'] := .intro rfl .nil
  have laid : Layout ["2", "-1", ";"] "2 // two\n-1\t;\n".toList :=
    .atOnce "2" (.text "-1" comment (.text ";" tab (.gap lineEnd)))
  exact ⟨scanned, laid, (compile_layout scanned laid).2⟩

end ToraCompiler
