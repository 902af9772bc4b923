import ToraCompiler.Proofs.Tree.Acceptance
import ToraCompiler.Proofs.Tree.Lookahead
import ToraCompiler.Proofs.Tree.Viability

/-!
# Refusals point at the first token that does not fit

The place of a refusal is that of a token.  The tokens before it begin a program (`Reader.program_viable`), and
with it they do not, whatever comes next: the refusal is the same for all that can follow
(`Reader.program_refuses_before`).  The end of the input is such a token as well.
-/

namespace ToraCompiler

/-! ## Rows that start alike -/

theorem tokensBeforeEnd_eq_self {ts : List Token} (notEnds : ∀ t ∈ ts, t.kind ≠ .endOfInput) :
    tokensBeforeEnd ts = ts :=
  List.takeWhile_eq_self_iff.2 (by simpa using notEnds)

theorem tokensBeforeEnd_append_of_notEnds {ts : List Token} (notEnds : ∀ t ∈ ts, t.kind ≠ .endOfInput)
    (us : List Token) : tokensBeforeEnd (ts ++ us) = ts ++ tokensBeforeEnd us :=
  List.takeWhile_append_of_pos (by simpa using notEnds)

theorem kind_ne_of_mem_tokensBeforeEnd {ts : List Token} {t : Token} (member : t ∈ tokensBeforeEnd ts) :
    t.kind ≠ .endOfInput := by
  simpa using List.mem_takeWhile_imp member

/-- An end token decides where the input ends, whatever follows it. -/
theorem Input.finish_of_end {body : List Token} (notEnds : ∀ t ∈ body, t.kind ≠ .endOfInput) {last : Token}
    (ends : last.kind = .endOfInput) (more : List Token) :
    (Input.ofTokens (body ++ last :: more)).finish = last.position := by
  have found : (body ++ last :: more).find? (·.kind = .endOfInput) = some last := by
    rw [List.find?_append, List.find?_eq_none.2 (by simpa using notEnds), Option.none_or]
    exact List.find?_cons_of_pos (by simpa using ends)
  unfold Input.ofTokens
  rw [found]

/-- A refusal about a token says the same wherever the input ends. -/
theorem Refusal.PointsAt.diagnostic_eq {reason : Refusal} {t : Token} {rest : List Token}
    (points : reason.PointsAt (t :: rest)) (finish : Position) :
    reason.diagnostic finish = reason.diagnostic t.position := by
  unfold Refusal.diagnostic
  rw [points finish, points t.position]
  rfl

/-! ## The offending token -/

/-- What the readers took of a row begins a program. -/
theorem Program.ofTokens_completes {used : List Token} (completable : Completable Grammar.Statements used)
    (values : ∀ t ∈ used, t.HasValue) (notEnds : ∀ t ∈ used, t.kind ≠ .endOfInput) :
    ∃ more p, Program.ofTokens (used ++ more) = .ok p := by
  obtain ⟨more, p, plain, derived⟩ := completable
  have before : tokensBeforeEnd (used ++ more) = used ++ more :=
    tokensBeforeEnd_eq_self fun t member =>
      (List.mem_append.1 member).elim (notEnds t) fun later => (plain t later).2
  refine ⟨more, p, Program.ofTokens_of_derivable (by rwa [before]) fun t member => ?_⟩
  rw [before] at member
  rcases List.mem_append.1 member with early | later
  · exact values t early
  · exact fun number => absurd number (plain t later).1

/-- A row that is refused about a token is refused in the same way whatever follows the token. -/
theorem Program.ofTokens_error_before {used later : List Token} {t : Token} {reason : Refusal}
    (notEnds : ∀ u ∈ used ++ t :: later, u.kind ≠ .endOfInput)
    (refused : Reader.program (used ++ t :: later) = .refuse reason (t :: later))
    (points : reason.PointsAt (t :: later)) (more : List Token) :
    Program.ofTokens (used ++ t :: more) = .error (reason.diagnostic t.position) := by
  have before : tokensBeforeEnd (used ++ t :: more) = used ++ t :: tokensBeforeEnd more := by
    have started : ∀ u ∈ used ++ [t], u.kind ≠ .endOfInput := fun u member => notEnds u (by
      rw [List.append_cons]
      exact List.mem_append_left later member)
    simpa using tokensBeforeEnd_append_of_notEnds started more
  refine Program.ofTokens_eq_error_iff.2
    ⟨reason, t :: tokensBeforeEnd more, ?_, (points.diagnostic_eq _).symm⟩
  rw [before]
  exact Reader.program_refuses_before refused _

/-- A row that is refused for ending is refused in the same way whatever follows the end. -/
theorem Program.ofTokens_error_at_end {body : List Token} {last : Token} {reason : Refusal}
    (notEnds : ∀ u ∈ body, u.kind ≠ .endOfInput) (ends : last.kind = .endOfInput)
    (refused : Reader.program body = .refuse reason []) (more : List Token) :
    Program.ofTokens (body ++ last :: more) = .error (reason.diagnostic last.position) := by
  have before : tokensBeforeEnd (body ++ last :: more) = body := by
    rw [tokensBeforeEnd_append_of_notEnds notEnds]
    simp [tokensBeforeEnd, ends]
  refine Program.ofTokens_eq_error_iff.2 ⟨reason, [], by rwa [before], ?_⟩
  rw [Input.finish_of_end notEnds ends]

/-- A source that is cut into tokens and then refused is refused at one of its tokens, the end included.  The
tokens before that one begin a program; with it, every row is refused in the same way. -/
theorem Program.ofTokens_error_at {source : String} {ts : List Token} {d : Diagnostic}
    (scanned : tokensOf source = .ok ts) (refused : Program.ofTokens ts = .error d) :
    ∃ p t, ts[p]? = some t ∧ d.line = some t.position.line ∧ d.column = some t.position.column ∧
      d.stage = .grammatical ∧
      (∃ more program, Program.ofTokens (ts.take p ++ more) = .ok program) ∧
      ∀ more, Program.ofTokens (ts.take (p + 1) ++ more) = .error d := by
  obtain ⟨finish, split⟩ := tokensOf_ends scanned
  have values : ∀ t ∈ tokensBeforeEnd ts, t.HasValue := fun t member =>
    (wellSpelled_of_tokensOf scanned t (List.takeWhile_subset _ member)).hasValue
  have notEnds : ∀ t ∈ tokensBeforeEnd ts, t.kind ≠ .endOfInput := fun t =>
    kind_ne_of_mem_tokensBeforeEnd
  obtain ⟨reason, rest, stopped, said⟩ := Program.ofTokens_eq_error_iff.1 refused
  obtain ⟨used, body, points, completable⟩ := Reader.program_viable.refusal _ values _ _ stopped
  rw [body] at values notEnds stopped split
  have completes := Program.ofTokens_completes completable
    (fun t member => values t (List.mem_append_left _ member))
    fun t member => notEnds t (List.mem_append_left _ member)
  -- The offending token is the first one that is left, or the end.
  obtain ⟨t, tail, split, place, always⟩ : ∃ t tail, ts = used ++ t :: tail ∧
      reason.place t.position = t.position ∧
      ∀ more, Program.ofTokens (used ++ t :: more) = .error (reason.diagnostic t.position) := by
    cases rest with
    | nil =>
      rw [List.append_nil] at notEnds stopped split
      exact ⟨_, [], split, points _, Program.ofTokens_error_at_end notEnds rfl stopped⟩
    | cons t later =>
      exact ⟨t, _, by simpa using split, points _, Program.ofTokens_error_before notEnds stopped points⟩
  have same : d = reason.diagnostic t.position := by
    have again := always tail
    rw [← split, refused] at again
    exact Except.error.inj again
  have line : d.line = some t.position.line ∧ d.column = some t.position.column := by
    rw [same, Refusal.diagnostic, place]
    exact ⟨rfl, rfl⟩
  have taken : ts.take (used.length + 1) = used ++ [t] := by
    rw [split, List.append_cons, List.take_left' (by simp)]
  refine ⟨used.length, t, by simp [split], line.1, line.2, by rw [same]; rfl, ?_, fun more => ?_⟩
  · rwa [split, List.take_left]
  · rw [taken, same, List.append_assoc]
    exact always more

/-- A loop over a list that is not closed. -/
def unclosedTokens : List Token :=
  [⟨.forKeyword, "for", ⟨1, 1⟩⟩, ⟨.identifier, "in", ⟨1, 5⟩⟩, ⟨.identifier, "in", ⟨1, 8⟩⟩,
    ⟨.openBracket, "[", ⟨1, 11⟩⟩, ⟨.number, "1", ⟨1, 12⟩⟩, ⟨.openBrace, "\x7b", ⟨1, 14⟩⟩,
    ⟨.endOfInput, "", ⟨1, 0⟩⟩]

/-- It is refused at the brace behind the list. -/
theorem Program.ofTokens_error_at_brace :
    ∃ d : Diagnostic, d.line = some 1 ∧ d.column = some 14 ∧
      tokensOf "for in in [1 \x7b" = .ok unclosedTokens ∧ Program.ofTokens unclosedTokens = .error d ∧
      ∃ p t, unclosedTokens[p]? = some t ∧ d.line = some t.position.line ∧
        d.column = some t.position.column ∧ d.stage = .grammatical ∧
        (∃ more program, Program.ofTokens (unclosedTokens.take p ++ more) = .ok program) ∧
        ∀ more, Program.ofTokens (unclosedTokens.take (p + 1) ++ more) = .error d := by
  have scanned : tokensOf "for in in [1 \x7b" = .ok unclosedTokens := by decide +kernel
  have refused : Program.ofTokens unclosedTokens =
      .error ⟨.grammatical, "Expected RBRACKET, got LBRACE", some 1, some 14⟩ := rfl
  exact ⟨_, rfl, rfl, scanned, refused, Program.ofTokens_error_at scanned refused⟩

end ToraCompiler
