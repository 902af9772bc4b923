import ToraCompiler.Proofs.Tree.Walking

/-!
# Walks stay before the first end

A parser goes over its row from left to right, one token after the other, and comes to a halt at the first end
token, whatever was asked of it and refused before.  Two facts make this so.  A walk that tracks a reader
settles for a place behind the tokens that the reader takes, and readers take tokens from the front
(`Walk.Tracks.advances`).  And a run of calls is the run of the readers on the input that the row stands for
(`Walk.calls_eq`), where the tokens behind the end are gone: rows with the same tokens up to the first end
cannot be told apart (`Walk.calls_congr`).
-/

namespace ToraCompiler

/-! ## Rows and inputs -/

namespace Row

variable {row row' : Row}

/-- What is left of the input at a position. -/
def input (row : Row) (p : Nat) : Input where
  tokens := row.window p
  finish := (row.token row.finish).position

/-- The position at which this is left of the input. -/
def positionOf (row : Row) (input : Input) : Nat :=
  row.finish - input.tokens.length

theorem positionOf_le (row : Row) (input : Input) : row.positionOf input ≤ row.finish :=
  Nat.sub_le _ _

theorem getElem?_finish (row : Row) : row.tokens[row.finish]? = some (row.token row.finish) := by
  rw [token_eq row.finish_lt, List.getElem?_eq_getElem row.finish_lt]

/-- The first end token of the row is the one that is found first. -/
theorem find?_tokens (row : Row) :
    row.tokens.find? (·.kind = .endOfInput) = some (row.token row.finish) := by
  rw [List.find?_eq_getElem?_findIdx, ← getElem?_finish]
  rfl

theorem ofTokens_of_ended {ts : List Token} (ended : ∃ t ∈ ts.getLast?, t.kind = .endOfInput) :
    ofTokens ts = ⟨ts, ended⟩ :=
  dif_pos ended

theorem tokens_ofTokens_of_not_ended {ts : List Token} (notEnded : ¬ ∃ t ∈ ts.getLast?, t.kind = .endOfInput) :
    (ofTokens ts).tokens =
      ts ++ [⟨.endOfInput, "", ⟨(ts.getLast?.map (·.position.line)).getD 1, 0⟩⟩] := by
  unfold ofTokens
  rw [dif_neg notEnded]

/-- The end token that is supplied is no token of the input. -/
theorem tokensBeforeEnd_ofTokens (ts : List Token) :
    tokensBeforeEnd (ofTokens ts).tokens = tokensBeforeEnd ts := by
  by_cases ended : ∃ t ∈ ts.getLast?, t.kind = .endOfInput
  · rw [ofTokens_of_ended ended]
  · rw [tokens_ofTokens_of_not_ended ended]
    unfold tokensBeforeEnd
    rw [List.takeWhile_append]
    split
    · next whole =>
      have all := (List.takeWhile_prefix (p := (·.kind ≠ .endOfInput)) (l := ts)).eq_of_length whole
      rw [all]
      exact List.append_nil ts
    · rfl

/-- The row stands for the input that its tokens are read as. -/
theorem input_ofTokens (ts : List Token) : (ofTokens ts).input 0 = Input.ofTokens ts := by
  have place : (Input.ofTokens ts).finish = ((ofTokens ts).token (ofTokens ts).finish).position := by
    have found := (ofTokens ts).find?_tokens
    unfold Input.ofTokens
    by_cases ended : ∃ t ∈ ts.getLast?, t.kind = .endOfInput
    · rw [ofTokens_of_ended ended] at found ⊢
      simp only [found]
    · rw [tokens_ofTokens_of_not_ended ended, List.find?_append] at found
      cases inside : ts.find? (·.kind = .endOfInput) with
      | some t =>
        rw [inside, Option.some_or] at found
        rw [← Option.some.inj found]
      | none =>
        rw [inside, Option.none_or, List.find?_cons_of_pos (by simp)] at found
        rw [← Option.some.inj found]
  have tokens : (ofTokens ts).window 0 = (Input.ofTokens ts).tokens := tokensBeforeEnd_ofTokens ts
  unfold input
  rw [tokens, ← place]

/-- Rows that agree up to the first end token stand for the same inputs. -/
theorem input_congr (same : row'.tokens.take (row.finish + 1) = row.tokens.take (row.finish + 1)) :
    row'.finish = row.finish ∧ row'.input 0 = row.input 0 := by
  have firstOf : ∀ r : Row, (r.tokens.take (row.finish + 1)).findIdx (·.kind = .endOfInput) =
      min (row.finish + 1) r.finish := fun _ => List.findIdx_take
  have finishes : row'.finish = row.finish := by
    have first := firstOf row'
    rw [same, firstOf row] at first
    omega
  have ends : row'.token row'.finish = row.token row.finish := by
    have found := row'.getElem?_finish
    rw [finishes, ← List.getElem?_take_of_lt (Nat.lt_succ_self _), same,
      List.getElem?_take_of_lt (Nat.lt_succ_self _), row.getElem?_finish] at found
    rw [finishes]
    exact (Option.some.inj found).symm
  have tokens : tokensBeforeEnd row'.tokens = tokensBeforeEnd row.tokens := by
    have shorter := congrArg (List.take row.finish) same
    rw [List.take_take, List.take_take, Nat.min_eq_left (Nat.le_succ _)] at shorter
    rw [tokensBeforeEnd_eq_take, tokensBeforeEnd_eq_take, finishes, shorter]
  refine ⟨finishes, ?_⟩
  unfold input window
  rw [ends, tokens]

end Row

/-! ## Single calls -/

namespace Walk

variable {α : Type} {row : Row}

/-- From every position up to the first end token, the walk gives a result.  The position does not go back and
does not go over the end token, and it goes on if a value is given. -/
def Advances (row : Row) (w : Walk α) : Prop :=
  ∀ p, p ≤ row.finish → ∃ outcome q, w.result? p = some (outcome, q) ∧
    p ≤ q ∧ q ≤ row.finish ∧ (outcome.isOk → p < q)

/-- A walk that tracks a reader reads what is left of the input, and stops where the reader does. -/
theorem Tracks.reads {w : Walk α} {r : Reader α} (tracks : ∀ n, Tracks row n w r) {p : Nat}
    (inRange : p ≤ row.finish) {outcome : Except Diagnostic α} {left : Input}
    (read : (row.input p).read r = (outcome, left)) :
    w.result? p = some (outcome, row.positionOf left) ∧
      p ≤ row.positionOf left ∧ row.input (row.positionOf left) = left := by
  obtain ⟨shrinks, result, -⟩ := tracks _ p inRange (Nat.lt_succ_self _)
  have behind := Row.window_of_suffix shrinks
  have shorter := shrinks.length_le
  rw [Row.length_window] at shorter
  unfold Input.read Row.input at read
  dsimp only at read
  cases reply : r (row.window p) <;> rw [reply] at read result behind shorter <;> cases read
  all_goals
    refine ⟨result, ?_, congrArg (Input.mk · _) behind⟩
    simp only [Reply.rest_accept, Reply.rest_refuse] at shorter
    unfold Row.positionOf
    dsimp only
    omega

/-- A reader that takes a token of every row that it accepts goes on. -/
theorem Tracks.advances {w : Walk α} {r : Reader α} (tracks : ∀ n, Tracks row n w r)
    (takes : Reader.Takes r) : Advances row w := by
  intro p inRange
  rcases read : (row.input p).read r with ⟨outcome, left⟩
  obtain ⟨result, goesOn, -⟩ := Tracks.reads tracks inRange read
  refine ⟨outcome, row.positionOf left, result, goesOn, row.positionOf_le left, fun accepted => ?_⟩
  have length := row.length_window p
  unfold Input.read Row.input at read
  dsimp only at read
  cases reply : r (row.window p) <;> rw [reply] at read <;> cases read
  case accept a rest =>
    have shorter := takes _ _ _ reply
    unfold Row.positionOf
    dsimp only
    omega
  case refuse => cases accepted

theorem expression_takes : Reader.Takes Reader.expression := by
  refine Reader.expression_sound.takes fun us e derived => ?_
  obtain ⟨t, rest, rfl, -⟩ := derived.starts
  exact List.cons_ne_nil _ _

end Walk

/-! ## Runs of calls -/

/-- The readers that `n` calls of `expression` and then one of `program` stand for, each with what it leaves. -/
def Input.calls (input : Input) : Nat → List (Except Diagnostic Expr × Input) × Except Diagnostic Program × Input
  | 0 => ([], input.read .program)
  | n + 1 =>
    let first := input.read .expression
    let (outcomes, last) := first.2.calls n
    (first :: outcomes, last)

/-- The outcomes of a run, with positions in the row instead of what is left. -/
def Row.positioned (row : Row)
    (run : List (Except Diagnostic Expr × Input) × Except Diagnostic Program × Input) :
    List (Except Diagnostic Expr × Nat) × Except Diagnostic Program × Nat :=
  (run.1.map fun call => (call.1, row.positionOf call.2), run.2.1, row.positionOf run.2.2)

/-- The positions behind the calls of a run from `p` to `last`: they do not go back and not over the first end
token, and behind an accepted call they have gone on. -/
def Row.Ordered (row : Row) (p : Nat) : List (Except Diagnostic Expr × Nat) → Nat → Prop
  | [], last => p ≤ last ∧ last ≤ row.finish
  | (outcome, q) :: outcomes, last =>
    p ≤ q ∧ q ≤ row.finish ∧ (outcome.isOk → p < q) ∧ row.Ordered q outcomes last

namespace Walk

variable {row row' : Row}

theorem calls_zero {p : Nat} {last : Except Diagnostic Program × Nat}
    (read : row.program.result? p = some last) : row.calls 0 p = some ([], last) := by
  unfold Row.calls
  rw [read]
  rfl

theorem calls_succ {n p : Nat} {first : Except Diagnostic Expr × Nat}
    {later : List (Except Diagnostic Expr × Nat) × Except Diagnostic Program × Nat}
    (read : row.expression.result? p = some first) (goesOn : row.calls n first.2 = some later) :
    row.calls (n + 1) p = some (first :: later.1, later.2) := by
  unfold Row.calls
  rw [read]
  change (row.calls n first.2).bind _ = _
  rw [goesOn]
  rfl

/-- A run of calls is the run of the readers on what is left of the input. -/
theorem calls_eq (quoted : row.Quoted) (n : Nat) {p : Nat} (inRange : p ≤ row.finish) :
    row.calls n p = some (row.positioned ((row.input p).calls n)) := by
  induction n generalizing p with
  | zero =>
    rcases read : (row.input p).read .program with ⟨outcome, left⟩
    obtain ⟨result, -, -⟩ := Tracks.reads (program_tracks quoted) inRange read
    rw [calls_zero result, Input.calls, read]
    rfl
  | succ n ih =>
    rcases read : (row.input p).read .expression with ⟨outcome, left⟩
    obtain ⟨result, -, goesOn⟩ := Tracks.reads (expression_tracks quoted) inRange read
    have later : row.calls n (row.positionOf left) = some (row.positioned (left.calls n)) := by
      rw [ih (row.positionOf_le left), goesOn]
    rw [calls_succ result later, Input.calls, read]
    rfl

theorem calls_ordered (quoted : row.Quoted) (n : Nat) {p : Nat} (inRange : p ≤ row.finish) :
    ∃ outcomes last, row.calls n p = some (outcomes, last) ∧ outcomes.length = n ∧
      row.Ordered p outcomes last.2 := by
  induction n generalizing p with
  | zero =>
    rcases read : (row.input p).read .program with ⟨outcome, left⟩
    obtain ⟨result, goesOn, -⟩ := Tracks.reads (program_tracks quoted) inRange read
    exact ⟨[], (outcome, row.positionOf left), calls_zero result, rfl, goesOn, row.positionOf_le left⟩
  | succ n ih =>
    obtain ⟨outcome, q, result, goesOn, within, takes⟩ :=
      Tracks.advances (expression_tracks quoted) expression_takes p inRange
    obtain ⟨outcomes, last, later, length, ordered⟩ := ih within
    exact ⟨(outcome, q) :: outcomes, last, calls_succ result later, by rw [List.length_cons, length],
      goesOn, within, takes, ordered⟩

/-- Rows that agree up to the first end token give the same runs. -/
theorem calls_congr (quoted : row.Quoted)
    (same : row'.tokens.take (row.finish + 1) = row.tokens.take (row.finish + 1)) (n : Nat) :
    row'.calls n 0 = row.calls n 0 := by
  obtain ⟨finishes, inputs⟩ := Row.input_congr same
  have quoted' : row'.Quoted := by
    have tokens : tokensBeforeEnd row'.tokens = tokensBeforeEnd row.tokens := congrArg Input.tokens inputs
    unfold Row.Quoted
    rwa [tokens]
  rw [calls_eq quoted n (Nat.zero_le _), calls_eq quoted' n (Nat.zero_le _), inputs]
  unfold Row.positioned Row.positionOf
  rw [finishes]

/-- Whatever a row holds and whatever was asked of it before, a parser stays in front of the first end token.
Each call of an expression or a statement comes to an end; its position does not go back and does not go over the
end token, and it has gone on if the call is accepted.  A run of calls, accepted or refused, and then of the
program gives what the readers give that run on the input, and the tokens behind the first end token make no
difference to it. -/
theorem confined (ts : List Token) (quoted : ∀ t ∈ tokensBeforeEnd ts, t.kind = .string → IsQuoted t.text.toList) :
    let row := Row.ofTokens ts
    Advances row row.expression ∧ Advances row row.statement ∧
      (∀ n, ∃ outcomes last, row.calls n 0 = some (outcomes, last) ∧ outcomes.length = n ∧
        row.Ordered 0 outcomes last.2) ∧
      (∀ n, row.calls n 0 = some (row.positioned ((Input.ofTokens ts).calls n))) ∧
      ∀ ts', (Row.ofTokens ts').tokens.take (row.finish + 1) = row.tokens.take (row.finish + 1) →
        ∀ n, (Row.ofTokens ts').calls n 0 = row.calls n 0 := by
  intro row
  have quoted' : row.Quoted := by
    unfold Row.Quoted
    rwa [Row.tokensBeforeEnd_ofTokens]
  refine ⟨?_, ?_, fun n => calls_ordered quoted' n (Nat.zero_le _), fun n => ?_,
    fun ts' same => calls_congr quoted' same⟩
  · exact Tracks.advances (expression_tracks quoted') expression_takes
  · exact Tracks.advances (statement_tracks quoted') (Reader.statement_takes Reader.statement_sound)
  · rw [calls_eq quoted' n (Nat.zero_le _), Row.input_ofTokens]

/-- A sum that an end token breaks off, in front of a string token without quotes. -/
def brokenOffTokens : List Token :=
  [⟨.string, "\"q\"", ⟨1, 1⟩⟩, ⟨.plus, "+", ⟨1, 5⟩⟩, ⟨.endOfInput, "", ⟨1, 0⟩⟩, ⟨.string, "q", ⟨2, 1⟩⟩]

/-- The first call for an expression comes to the end token and is refused there.  The second one and the program
find nothing more. -/
theorem confined_brokenOff :
    (∀ t ∈ tokensBeforeEnd brokenOffTokens, t.kind = .string → IsQuoted t.text.toList) ∧
      (Row.ofTokens brokenOffTokens).calls 2 0 =
        some ([(.error ⟨.grammatical, "Unexpected end of input", some 1, some 0⟩, 2),
          (.error ⟨.grammatical, "Unexpected end of input", some 1, some 0⟩, 2)], .ok [], 2) := by
  have quoted : ∀ t ∈ tokensBeforeEnd brokenOffTokens, t.kind = .string → IsQuoted t.text.toList := by
    have before : tokensBeforeEnd brokenOffTokens =
        [⟨.string, "\"q\"", ⟨1, 1⟩⟩, ⟨.plus, "+", ⟨1, 5⟩⟩] := rfl
    rw [before]
    simp only [List.forall_mem_cons, List.not_mem_nil, false_implies, implies_true, and_true]
    exact ⟨fun _ => ⟨['q'], rfl⟩, fun isString => by cases isString⟩
  exact ⟨quoted, ((confined brokenOffTokens quoted).2.2.2.1 2).trans rfl⟩

end Walk
end ToraCompiler
