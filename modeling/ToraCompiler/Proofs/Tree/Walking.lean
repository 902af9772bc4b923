import ToraCompiler.Proofs.Tree.Tracking

/-!
# Walks read what readers read

The walks of the grammar track its readers (`Walk.expression_tracks`, `Walk.statement_tracks`,
`Walk.program_tracks`), one lemma for each.  The recursion goes through expressions and through statements:
an operand has a token of its own before the expressions in it, and a statement has one before its blocks.
-/

namespace ToraCompiler

/-- The string tokens before the first end token have texts between quotes. -/
def Row.Quoted (row : Row) : Prop :=
  ∀ t ∈ tokensBeforeEnd row.tokens, t.kind = .string → IsQuoted t.text.toList

namespace Reader

theorem expect_takes (kind : Kind) : Takes (expect kind) := by
  intro ts t rest accepted
  obtain ⟨rfl, -⟩ := expect_eq_accept_iff.1 accepted
  exact Nat.lt_succ_self _

end Reader

namespace Walk

variable {row : Row} {n : Nat}

/-! ## Expressions -/

theorem name_tracks (n : Nat) : Tracks row n row.name Reader.name :=
  (Tracks.expect n (by decide)).bind fun t => .pure n t.toName

section Expressions

variable {inner : Reader Expr}

theorem moreExpressions_tracks (h : Tracks row n row.expression inner) :
    Tracks row n row.moreExpressions (Reader.moreItems inner) :=
  moreItems_tracks (Row.moreExpressions.eq_1 row) h

theorem expressionsUntil_tracks {close : Kind} (notEnd : close ≠ .endOfInput)
    (h : Tracks row n row.expression inner) :
    Tracks row n (row.expressionsUntil close) (Reader.itemsUntil close inner) := by
  rw [Row.expressionsUntil]
  exact itemsUntil_tracks notEnd h (moreExpressions_tracks h)

/-- A call, from the name on. -/
theorem call_tracks (h : Tracks row n row.expression inner) {t : Token} (member : t ∈ tokensBeforeEnd row.tokens)
    (isName : t.kind = .identifier) :
    TracksAt row t (n + 1) row.call (do
      Reader.skip
      let _ ← Reader.expect .openParen
      let args ← Reader.itemsUntil .closeParen inner
      return .call t.toName args) := by
  rw [Row.call]
  unfold Row.name
  rw [bind_assoc]
  refine .expect member isName ?_
  rw [pure_bind]
  exact (Tracks.expect n (by decide)).bind fun _ => (expressionsUntil_tracks (by decide) h).bind fun _ =>
    .pure n _

/-- An operand has a token of its own before the expressions in it. -/
theorem operand_tracks (quoted : row.Quoted) (h : Tracks row n row.expression inner) :
    Tracks row (n + 1) row.operand (Reader.operand inner) := by
  rw [Row.operand]
  refine .current ?_ fun t member => ?_
  · rw [row.kind_token_finish]
    exact .refuse _ (by rintro _ _ ⟨⟩) rfl
  · cases kind : t.kind
    case number =>
      simp only [kind]
      exact .advance member (literal_tracks n fun noValue => ⟨t, member, Token.not_hasValue_of_none kind noValue⟩)
    case string =>
      simp only [kind]
      refine .advance member ?_
      rw [stringLiteral_eq_pure (quoted t member kind)]
      exact .pure n _
    case identifier =>
      simp only [kind]
      have plain : TracksAt row t (n + 1) (row.advance >>= fun _ => pure (Expr.name t.toName))
          (Reader.skip >>= fun _ => pure (Expr.name t.toName)) := .advance member (.pure n _)
      refine .following (by decide) (call_tracks h member kind) plain ?_ ?_
      · intro ts isCall
        cases ts with
        | nil => cases isCall
        | cons u us =>
          have opens : u.kind = .openParen := of_decide_eq_true isCall
          simp only [Reader.skip_bind, List.tail_cons, Reader.isNext_bind, isCall, if_true,
            Reader.expect_bind opens]
      · intro ts isName
        simp only [Reader.skip_bind, List.tail_cons, Reader.isNext_bind, isName, Bool.false_eq_true,
          if_false]
    case openParen =>
      simp only [kind]
      exact .advance member (h.bind fun _ => (Tracks.expect n (by decide)).bind fun _ => .pure n _)
    case openBracket =>
      simp only [kind]
      exact .advance member ((expressionsUntil_tracks (by decide) h).bind fun _ => .pure n _)
    case endOfInput => exact absurd kind (kind_ne_of_mem_tokensBeforeEnd member)
    all_goals
      simp only [kind]
      exact (Tracks.refuse _ (by rintro _ _ ⟨⟩) rfl).at t

theorem product_tracks (quoted : row.Quoted) (h : Tracks row n row.expression inner) :
    Tracks row (n + 1) row.product (Reader.product inner) := by
  rw [Row.product]
  exact (operand_tracks quoted h).bind fun first =>
    operations_tracks (Row.moreFactors.eq_1 row) rfl (operand_tracks quoted h) first

theorem moreTerms_tracks (quoted : row.Quoted) (h : Tracks row n row.expression inner) (left : Expr) :
    Tracks row (n + 1) (row.moreTerms left) (Reader.moreTerms inner left) := by
  refine Tracks.recurse (fun k again ih left => ?_) left
  have goesOn : ∀ {w : Walk Expr} {r : Reader Expr} (whole : Expr → Expr), Tracks row (n + 1) w r →
      Tracks row (min (n + 1) k) (w >>= fun right => row.moreTerms (whole right))
        (r >>= fun right => again (whole right)) := fun whole first =>
    (first.mono (by omega)).bind fun right => (ih _).mono (by omega)
  rw [Row.moreTerms]
  refine .current ?_ fun t member => ?_
  · have isEnd := row.kind_token_finish
    have notNumber : ¬ (row.token row.finish).isNegativeNumber := by
      rintro ⟨kind, -⟩
      rw [isEnd] at kind
      cases kind
    rw [isEnd]
    simp only [Kind.sum?, if_neg notNumber]
    exact .pure _ left
  · cases operator : t.kind.sum? with
    | some op =>
      simp only [operator]
      exact (TracksAt.advance member (goesOn (.binary op left) (product_tracks quoted h))).mono (by omega)
    | none =>
      simp only [operator]
      by_cases negative : t.isNegativeNumber
      · simp only [if_pos negative, magnitude_eq_pure negative, pure_bind]
        refine (TracksAt.advance (n := min (n + 1) k) member ?_).mono (by omega)
        have grounds : Number.ofLiteral? t.dropFirst.text = none →
            ∃ u ∈ tokensBeforeEnd row.tokens, ¬ u.HasValue := fun noValue =>
          ⟨t, member, Token.not_hasValue_of_magnitude negative noValue⟩
        exact (literal_tracks _ grounds).bind fun first => goesOn (.binary .sub left)
          (operations_tracks (Row.moreFactors.eq_1 row) rfl (operand_tracks quoted h) first)
      · simp only [if_neg negative]
        exact (Tracks.pure _ left).at t

theorem sum_tracks (quoted : row.Quoted) (h : Tracks row n row.expression inner) :
    Tracks row (n + 1) row.sum (Reader.sum inner) := by
  rw [Row.sum]
  exact (product_tracks quoted h).bind fun first => moreTerms_tracks quoted h first

theorem comparison_tracks (quoted : row.Quoted) (h : Tracks row n row.expression inner) :
    Tracks row (n + 1) row.comparison (Reader.comparison inner) := by
  rw [Row.comparison]
  exact (sum_tracks quoted h).bind fun first =>
    operations_tracks (Row.moreComparisons.eq_1 row) rfl (sum_tracks quoted h) first

end Expressions

theorem expression_tracks (quoted : row.Quoted) (n : Nat) : Tracks row n row.expression Reader.expression := by
  refine Tracks.recurse (w := fun _ => row.expression) (fun k again ih _ => ?_) ()
  rw [Row.expression]
  exact (comparison_tracks quoted (ih ())).mono (by omega)

/-! ## Statements -/

theorem typeAfterColon_tracks (n : Nat) : Tracks row n row.typeAfterColon Reader.typeAfterColon := by
  refine .isAt (by decide) (.pure n _) fun t member _ => ?_
  refine (TracksAt.advance (n := n) member (.current ?_ fun u member => ?_)).mono (Nat.le_succ n)
  · have isEnd := row.kind_token_finish
    have notName : ¬ (row.token row.finish).kind = .identifier := by
      rw [isEnd]
      decide
    simp only [if_neg notName]
    exact .refuse n (by rintro _ _ ⟨⟩) (Refusal.diagnostic_expectedType_end isEnd)
  · by_cases isName : u.kind = .identifier
    · simp only [if_pos isName]
      exact (TracksAt.advance member (.pure n _)).mono (Nat.le_succ n)
    · simp only [if_neg isName]
      exact (Tracks.refuse n (by rintro _ _ ⟨⟩) rfl).at u

theorem param_tracks (n : Nat) : Tracks row n row.param Reader.param :=
  (name_tracks n).bind fun _ => (typeAfterColon_tracks n).bind fun _ => .pure n _

theorem params_tracks (n : Nat) : Tracks row n row.params Reader.params :=
  (Tracks.expect n (by decide)).bind fun _ =>
    itemsUntil_tracks (by decide) (param_tracks n) (moreItems_tracks (Row.moreParams.eq_1 row) (param_tracks n))

section Statements

variable (quoted : row.Quoted)
include quoted

theorem inParens_tracks (n : Nat) : Tracks row n row.inParens Reader.inParens :=
  (Tracks.expect n (by decide)).bind fun _ => (expression_tracks quoted n).bind fun _ =>
    (Tracks.expect n (by decide)).bind fun _ => .pure n _

theorem expressionLine_tracks (n : Nat) : Tracks row n row.expressionLine Reader.expressionLine :=
  (expression_tracks quoted n).bind fun _ => (Tracks.expect n (by decide)).bind fun _ => .pure n _

theorem evaluation_tracks (n : Nat) :
    Tracks row n row.evaluation (do return Stmt.eval (← Reader.expressionLine)) :=
  (expressionLine_tracks quoted n).bind fun _ => .pure n _

theorem assignment_tracks (n : Nat) : Tracks row n row.assignment Reader.assignment :=
  (name_tracks n).bind fun _ => (Tracks.expect n (by decide)).bind fun _ =>
    (expressionLine_tracks quoted n).bind fun _ => .pure n _

theorem printing_tracks (n : Nat) {t : Token} (member : t ∈ tokensBeforeEnd row.tokens) (newline : Bool)
    (isNewline : decide (t.kind = .printlnKeyword) = newline) :
    TracksAt row t (n + 1) row.printing (do
      Reader.skip
      Reader.printing newline) := by
  refine .advance member ((inParens_tracks quoted n).bind fun _ => (Tracks.expect n (by decide)).bind fun _ => ?_)
  rw [isNewline]
  exact .pure n _

end Statements

theorem skipIn_tracks (n : Nat) : Tracks row n row.skipIn Reader.skipIn := by
  refine .current ?_ fun t member => ?_
  · have notIn : ¬ ((row.token row.finish).kind = .identifier ∧ (row.token row.finish).text = "in") := by
      rintro ⟨kind, -⟩
      rw [row.kind_token_finish] at kind
      cases kind
    simp only [if_neg notIn]
    exact .pure n ()
  · by_cases isIn : t.kind = .identifier ∧ t.text = "in"
    · simp only [if_pos isIn]
      rw [← bind_pure Reader.skip]
      exact (TracksAt.advance member (.pure n ())).mono (Nat.le_succ n)
    · simp only [if_neg isIn]
      exact (Tracks.pure n ()).at t

section Blocks

variable {inner : Reader Stmt} (h : Tracks row n row.statement inner) (takes : Reader.Takes inner)
include h takes

theorem statementsUntilBrace_tracks :
    Tracks row n row.statementsUntilBrace (Reader.statementsUntilBrace inner) := by
  refine Tracks.recurse (w := fun _ => row.statementsUntilBrace) (fun k again ih _ => ?_) ()
  rw [Row.statementsUntilBrace]
  refine .current ?_ fun t member => ?_
  · simp only [if_pos (Or.inr row.kind_token_finish)]
    exact .pure _ []
  · have notEnd := kind_ne_of_mem_tokensBeforeEnd member
    by_cases isBrace : t.kind = .closeBrace
    · simp only [isBrace, true_or, if_true]
      exact (Tracks.pure _ []).at t
    · simp only [isBrace, notEnd, or_self, if_false]
      refine Tracks.at ?_ t
      exact (h.mono (by omega)).bind_of_takes takes (fun _ => (ih ()).bind fun _ => .pure k _) (by omega)

/-- A block has a brace of its own before the statements in it. -/
theorem block_tracks : Tracks row (n + 1) row.block (Reader.block inner) := by
  rw [Row.block]
  exact (Tracks.expect (n + 1) (by decide)).bind_of_takes (Reader.expect_takes _)
    (fun _ => (statementsUntilBrace_tracks h takes).bind fun _ => (Tracks.expect n (by decide)).bind fun _ =>
      .pure n _) (Nat.le_refl _)

/-! Each statement has a keyword of its own before its blocks. -/

variable {t : Token} (member : t ∈ tokensBeforeEnd row.tokens)
include member

theorem functionDeclaration_tracks (isFn : t.kind = .fnKeyword) :
    TracksAt row t (n + 2) row.functionDeclaration (do
      Reader.skip
      Reader.functionDeclaration inner) := by
  rw [Row.functionDeclaration]
  exact .expect member isFn ((name_tracks _).bind fun _ => (params_tracks _).bind fun _ =>
    (typeAfterColon_tracks _).bind fun _ => (block_tracks h takes).bind fun _ => .pure _ _)

theorem branch_tracks (quoted : row.Quoted) (isIf : t.kind = .ifKeyword) :
    TracksAt row t (n + 2) row.branch (do
      Reader.skip
      Reader.branch inner) := by
  rw [Row.branch]
  refine .expect member isIf ((inParens_tracks quoted _).bind fun condition =>
    (block_tracks h takes).bind fun yes => .isAt (by decide) (.pure _ _) fun u member _ => ?_)
  exact (TracksAt.advance member ((block_tracks h takes).bind fun _ => .pure _ _)).mono (Nat.le_succ _)

theorem conditionLoop_tracks (quoted : row.Quoted) (isWhile : t.kind = .whileKeyword) :
    TracksAt row t (n + 2) row.conditionLoop (do
      Reader.skip
      Reader.conditionLoop inner) := by
  rw [Row.conditionLoop]
  unfold Row.loopCondition
  simp only [bind_assoc]
  refine .expect member isWhile (.isAt (by decide) ?_ fun u _ _ => Tracks.at ?_ u)
  · exact (expression_tracks quoted _).bind fun _ => (block_tracks h takes).bind fun _ => .pure _ _
  · exact (inParens_tracks quoted _).bind fun _ => (block_tracks h takes).bind fun _ => .pure _ _

theorem listLoop_tracks (quoted : row.Quoted) (isFor : t.kind = .forKeyword) :
    TracksAt row t (n + 2) row.listLoop (do
      Reader.skip
      Reader.listLoop inner) := by
  rw [Row.listLoop]
  exact .expect member isFor ((name_tracks _).bind fun _ => (skipIn_tracks _).bind fun _ =>
    (expression_tracks quoted _).bind fun _ => (block_tracks h takes).bind fun _ => .pure _ _)

end Blocks

/-- A statement with blocks has a keyword of its own before them. -/
theorem statementWith_tracks (quoted : row.Quoted) {inner : Reader Stmt} (h : Tracks row n row.statement inner)
    (takes : Reader.Takes inner) : Tracks row (n + 1) row.statement (Reader.statementWith inner) := by
  rw [Row.statement]
  refine .current ?_ fun t member => ?_
  · rw [row.kind_token_finish]
    exact evaluation_tracks quoted _
  · rw [Option.map_some]
    cases kind : t.kind
    case letKeyword =>
      exact (TracksAt.expect member kind ((name_tracks _).bind fun _ => (typeAfterColon_tracks _).bind fun _ =>
        (Tracks.expect _ (by decide)).bind fun _ => (expressionLine_tracks quoted _).bind fun _ =>
          .pure _ _)).mono (Nat.le_succ _)
    case fnKeyword => exact (functionDeclaration_tracks h takes member kind).mono (Nat.le_succ _)
    case ifKeyword => exact (branch_tracks h takes member quoted kind).mono (Nat.le_succ _)
    case whileKeyword => exact (conditionLoop_tracks h takes member quoted kind).mono (Nat.le_succ _)
    case forKeyword => exact (listLoop_tracks h takes member quoted kind).mono (Nat.le_succ _)
    case printKeyword => exact (printing_tracks quoted _ member false (by simp [kind])).mono (Nat.le_succ _)
    case printlnKeyword => exact (printing_tracks quoted _ member true (by simp [kind])).mono (Nat.le_succ _)
    case returnKeyword =>
      exact (TracksAt.expect member kind (evaluation_tracks quoted _)).mono (Nat.le_succ _)
    case identifier =>
      refine .following (by decide) ((assignment_tracks quoted _).at t) ((evaluation_tracks quoted _).at t)
        ?_ ?_
      · intro ts isAssignment
        simp only [Reader.peekSecond_bind, List.tail_cons, isAssignment, if_true]
      · intro ts other
        simp only [Reader.peekSecond_bind, List.tail_cons, other, Bool.false_eq_true, if_false]
    all_goals exact (evaluation_tracks quoted _).at t

theorem statement_tracks (quoted : row.Quoted) (n : Nat) : Tracks row n row.statement Reader.statement := by
  -- Between the statements of a block tokens are taken: soundness goes along to tell so.
  refine Tracks.recurse_of (w := fun _ => row.statement) (fun r => Reader.Sound r Grammar.Statement)
    (fun _ _ _ h => by cases h) (fun k again ih _ => ?_) ()
  obtain ⟨tracks, sound⟩ := ih ()
  exact ⟨(statementWith_tracks quoted tracks (Reader.statement_takes sound)).mono (by omega),
    Reader.statementWith_sound sound⟩

theorem program_tracks (quoted : row.Quoted) (n : Nat) : Tracks row n row.program Reader.program := by
  refine Tracks.recurse (w := fun _ => row.program) (fun k again ih _ => ?_) ()
  rw [Row.program]
  refine .current ?_ fun t member => ?_
  · simp only [if_pos row.kind_token_finish]
    exact .pure _ []
  · simp only [if_neg (kind_ne_of_mem_tokensBeforeEnd member)]
    refine Tracks.at ?_ t
    exact (statement_tracks quoted _).bind_of_takes (Reader.statement_takes Reader.statement_sound)
      (fun _ => (ih ()).bind fun _ => .pure k _) (by omega)

end Walk
end ToraCompiler
