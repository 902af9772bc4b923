import ToraCompiler.Proofs.Token.Lines
import ToraCompiler.Proofs.Tree.Completeness
import ToraCompiler.Proofs.Tree.Soundness

/-!
# The grammar decides what is read

Soundness and completeness of the readers, put together for whole rows of tokens: the row up to its first
end token is read as a program exactly if the grammar derives that program from it.  As reading is a
function, no row has two derivations with different trees.
-/

namespace ToraCompiler

open Grammar

theorem Program.ofTokens_eq_ok_iff_reads {ts : List Token} {p : Program} :
    Program.ofTokens ts = .ok p ↔ ∃ rest, Reader.program (tokensBeforeEnd ts) = .accept p rest := by
  show (Input.read ⟨tokensBeforeEnd ts, _⟩ Reader.program).1 = .ok p ↔ _
  unfold Input.read
  cases Reader.program (tokensBeforeEnd ts) with
  | accept q rest =>
    constructor
    · intro h
      cases h
      exact ⟨rest, rfl⟩
    · rintro ⟨_, h⟩
      cases h
      rfl
  | refuse reason rest => simp

theorem Program.ofTokens_eq_error_iff {ts : List Token} {d : Diagnostic} :
    Program.ofTokens ts = .error d ↔
      ∃ reason rest, Reader.program (tokensBeforeEnd ts) = .refuse reason rest ∧
        d = reason.diagnostic (Input.ofTokens ts).finish := by
  show (Input.read ⟨tokensBeforeEnd ts, _⟩ Reader.program).1 = .error d ↔ _
  unfold Input.read
  cases Reader.program (tokensBeforeEnd ts) with
  | accept p rest => simp
  | refuse reason rest =>
    constructor
    · intro h
      cases h
      exact ⟨reason, rest, rfl, rfl⟩
    · rintro ⟨_, _, h, rfl⟩
      cases h
      rfl

/-- What is read is derivable. -/
theorem Program.derivable_of_ofTokens {ts : List Token} {p : Program}
    (h : Program.ofTokens ts = .ok p) : Statements (tokensBeforeEnd ts) p := by
  obtain ⟨rest, accepted⟩ := Program.ofTokens_eq_ok_iff_reads.1 h
  obtain ⟨used, split, derived⟩ := Reader.program_sound _ _ _ accepted
  obtain rfl := Reader.rest_eq_nil_of_program accepted
  rw [List.append_nil] at split
  rwa [split]

/-- What is derivable is read, if every number in it denotes something. -/
theorem Program.ofTokens_of_derivable {ts : List Token} {p : Program}
    (derived : Statements (tokensBeforeEnd ts) p) (values : ∀ t ∈ tokensBeforeEnd ts, t.HasValue) :
    Program.ofTokens ts = .ok p :=
  Program.ofTokens_eq_ok_iff_reads.2 ⟨[], Reader.program_accepts derived values⟩

/-- A row of well spelled tokens is read as a program exactly if the grammar derives that program from
the tokens before the first end, and it derives no other. -/
theorem Program.ofTokens_eq_ok_iff_derivable (ts : List Token) (spelled : ∀ t ∈ ts, t.WellSpelled) :
    (∀ p, Program.ofTokens ts = .ok p ↔ Statements (tokensBeforeEnd ts) p) ∧
      ∀ p q, Statements (tokensBeforeEnd ts) p → Statements (tokensBeforeEnd ts) q → p = q := by
  have values : ∀ t ∈ tokensBeforeEnd ts, t.HasValue := fun t member =>
    (spelled t (List.takeWhile_subset _ member)).hasValue
  refine ⟨fun p => ⟨Program.derivable_of_ofTokens, fun derived =>
    Program.ofTokens_of_derivable derived values⟩, fun p q left right => ?_⟩
  have readLeft := Program.ofTokens_of_derivable left values
  have readRight := Program.ofTokens_of_derivable right values
  rw [readLeft] at readRight
  exact Except.ok.inj readRight

/-- A loop over a list with a folded minus, whose variable has the name of the word behind it. -/
def loopTokens : List Token :=
  [⟨.forKeyword, "for", ⟨1, 1⟩⟩, ⟨.identifier, "in", ⟨1, 5⟩⟩, ⟨.identifier, "in", ⟨1, 8⟩⟩,
    ⟨.openBracket, "[", ⟨1, 11⟩⟩, ⟨.string, "\"q\"", ⟨1, 12⟩⟩, ⟨.number, "-1", ⟨1, 16⟩⟩,
    ⟨.star, "*", ⟨1, 18⟩⟩, ⟨.identifier, "a", ⟨1, 19⟩⟩, ⟨.closeBracket, "]", ⟨1, 20⟩⟩,
    ⟨.openBrace, "\x7b", ⟨1, 22⟩⟩, ⟨.closeBrace, "\x7d", ⟨1, 24⟩⟩, ⟨.endOfInput, "", ⟨1, 0⟩⟩,
    ⟨.semicolon, ";", ⟨1, 25⟩⟩]

theorem loopTokens_derivable :
    (∀ t ∈ loopTokens, t.WellSpelled) ∧
      Statements (tokensBeforeEnd loopTokens)
        [.each ⟨"in", ⟨1, 5⟩⟩
          (.list [.binary .sub (.str "q")
            (.binary .mul (.number (.int 1)) (.name ⟨"a", ⟨1, 19⟩⟩))]) []] := by
  have digit : IsDigits ['1'] := by
    refine ⟨by simp, fun c member => ?_⟩
    obtain rfl := List.mem_singleton.1 member
    rfl
  have number : (⟨.number, "-1", ⟨1, 16⟩⟩ : Token).WellSpelled :=
    ⟨fun _ => .inr ⟨['1'], .inl digit, rfl⟩, nofun⟩
  have string : (⟨.string, "\"q\"", ⟨1, 12⟩⟩ : Token).WellSpelled :=
    ⟨nofun, fun _ => ⟨['q'], rfl⟩⟩
  have spelled : ∀ t ∈ loopTokens, t.WellSpelled := by
    simp only [loopTokens, List.forall_mem_cons]
    refine ⟨?_, ?_, ?_, ?_, string, number, ?_, ?_, ?_, ?_, ?_, ?_, ?_, by simp⟩ <;>
      exact ⟨nofun, nofun⟩
  exact ⟨spelled, ((Program.ofTokens_eq_ok_iff_derivable loopTokens spelled).1 _).1 rfl⟩

end ToraCompiler
