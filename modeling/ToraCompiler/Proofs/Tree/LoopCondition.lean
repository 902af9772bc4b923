import ToraCompiler.Proofs.Tree.Resumption

/-!
# The conditions of loops

A loop reads its condition up to the brace of its block.  If the condition starts with a parenthesis, the loop
takes what stands up to the matching one for the whole condition.  So a condition that goes on behind the
parenthesis is an expression that no loop accepts, and the refusal is about the token that it goes on with
(`Reader.statement_loop`).  All other conditions are accepted, whatever the expression is.
-/

namespace ToraCompiler.Reader

variable {α β : Type}

theorem bind_of_refuse {r : Reader α} {ts rest : List Token} {reason : Refusal}
    (refused : r ts = .refuse reason rest) (next : α → Reader β) :
    (r >>= next) ts = .refuse reason rest := by
  show andThen r next ts = _
  unfold andThen
  rw [refused]

/-! ## Expressions in parentheses -/

/-- The row is a parenthesis, an expression, and the closing parenthesis. -/
def Enclosed (row : List Token) (e : Expr) : Prop :=
  ∃ opening inner closing, row = opening :: (inner ++ [closing]) ∧ opening.kind = .openParen ∧
    closing.kind = .closeParen ∧ expression (inner ++ [closing]) = .accept e [closing]

/-- The row starts with a parenthesis. -/
def StartsWithParen (row : List Token) : Prop :=
  ∃ t ∈ row.head?, t.kind = .openParen

theorem inParens_of_enclosed {row : List Token} {e : Expr} (enclosed : Enclosed row e)
    (later : List Token) : inParens (row ++ later) = .accept e later := by
  obtain ⟨opening, inner, closing, rfl, isOpening, isClosing, read⟩ := enclosed
  have readInner := (expression_local _).accept_append (Nat.le_refl _) read (List.cons_ne_nil _ _) later
  unfold inParens
  rw [List.cons_append, expect_bind isOpening, bind_of_accept readInner, List.singleton_append,
    expect_bind isClosing]
  rfl

theorem enclosed_of_inParens {ts rest : List Token} {e : Expr} (accepted : inParens ts = .accept e rest) :
    ∃ row, ts = row ++ rest ∧ Enclosed row e := by
  obtain ⟨opening, behind, expected, readInner⟩ := bind_eq_accept_iff.1 accepted
  obtain ⟨rfl, isOpening⟩ := expect_eq_accept_iff.1 expected
  obtain ⟨inner, middle, read, readClosing⟩ := bind_eq_accept_iff.1 readInner
  obtain ⟨closing, left, closes, finished⟩ := bind_eq_accept_iff.1 readClosing
  obtain ⟨rfl, isClosing⟩ := expect_eq_accept_iff.1 closes
  cases finished
  have shrinks := expression_shrinks behind
  rw [read, Reply.rest_accept] at shrinks
  obtain ⟨us, rfl⟩ := shrinks
  have row : expression (us ++ [closing] ++ rest) = .accept e ([closing] ++ rest) := by
    rw [List.append_assoc]
    exact read
  have alone := (expression_local _).accept_before (Nat.le_refl _) row (List.cons_ne_nil _ _) []
  rw [List.append_nil, List.append_nil] at alone
  refine ⟨opening :: (us ++ [closing]), ?_, opening, us, closing, rfl, isOpening, isClosing, alone⟩
  simp only [List.cons_append, List.append_assoc, List.nil_append]

/-- What an expression goes on with behind its first operand. -/
def afterOperand (first : Expr) : Reader Expr :=
  operations (operand expression) Kind.product? first >>= fun product =>
    moreTerms expression product >>= operations (sum expression) Kind.comparison?

/-- An expression that starts with a parenthesis goes on behind the closing one. -/
theorem expression_of_openParen {t : Token} (isOpening : t.kind = .openParen) (ts : List Token) :
    expression (t :: ts) = (inParens >>= afterOperand) (t :: ts) := by
  have parens : operand expression (t :: ts) = inParens (t :: ts) := by
    unfold operand inParens
    rw [peek_bind, List.head?_cons, expect_bind isOpening]
    simp only [isOpening, skip_bind, List.tail_cons]
  have grouped : comparison expression = operand expression >>= afterOperand := by
    show operand expression >>= _ >>= moreTerms expression >>= _ = _
    rw [bind_assoc, bind_assoc]
    rfl
  rw [expression_eq, grouped]
  exact bind_congr_left parens _

/-- In front of a token that ends it, an expression goes on with nothing. -/
theorem afterOperand_of_ends {t : Token} (ends : t.EndsExpression) (first : Expr) (ts : List Token) :
    afterOperand first (t :: ts) = .accept first (t :: ts) := by
  have factors : operations (operand expression) Kind.product? first (t :: ts) = .accept first (t :: ts) :=
    operations_of_ends _ (by simpa using ends.notFactor) first
  have terms : moreTerms expression first (t :: ts) = .accept first (t :: ts) :=
    moreTerms_of_ends _ (by simpa using ⟨ends.notTerm, ends.notMinus⟩) first
  unfold afterOperand
  rw [bind_of_accept factors, bind_of_accept terms]
  exact operations_of_ends _ (by simpa using ends.notComparison) first

theorem afterOperand_shrinks (first : Expr) : Shrinks (afterOperand first) :=
  ((operations_local (operand_local (expression_local 0)) _ first).bind fun product =>
    (moreTerms_local (expression_local 0) product).bind fun sum =>
      operations_local (sum_local (expression_local 0)) _ sum).shrinks

theorem endsExpression_of_openBrace {t : Token} (isBrace : t.kind = .openBrace) : t.EndsExpression :=
  Token.endsExpression_of_closes (by rw [isBrace]; rfl)

/-- An expression in front of a brace that starts with a parenthesis is enclosed, or it goes on behind an
enclosed part with a token that is no brace. -/
theorem enclosed_or_goesOn {c : List Token} {opening : Token} {e : Expr} (starts : StartsWithParen c)
    (isBrace : opening.kind = .openBrace) (read : expression (c ++ [opening]) = .accept e [opening]) :
    Enclosed c e ∨ ∃ used inner t tail, c = used ++ t :: tail ∧ Enclosed used inner ∧
      t.kind ≠ .openBrace := by
  obtain ⟨first, isFirst, isParen⟩ := starts
  obtain ⟨us, rfl⟩ := List.head?_eq_some_iff.1 isFirst
  rw [List.cons_append, expression_of_openParen isParen] at read
  obtain ⟨inner, after, readParens, readAfter⟩ := bind_eq_accept_iff.1 read
  obtain ⟨used, split, enclosed⟩ := enclosed_of_inParens readParens
  have shrinks := afterOperand_shrinks inner after
  rw [readAfter, Reply.rest_accept] at shrinks
  obtain ⟨front, rfl⟩ := shrinks
  have row : first :: us = used ++ front := by
    rw [← List.cons_append, ← List.append_assoc] at split
    exact List.append_cancel_right split
  rw [row]
  cases front with
  | nil =>
    rw [List.nil_append, afterOperand_of_ends (endsExpression_of_openBrace isBrace)] at readAfter
    cases readAfter
    rw [List.append_nil]
    exact .inl enclosed
  | cons t tail =>
    refine .inr ⟨used, inner, t, tail, rfl, enclosed, fun alsoBrace => ?_⟩
    rw [List.cons_append, afterOperand_of_ends (endsExpression_of_openBrace alsoBrace)] at readAfter
    have lengths := congrArg (fun reply => reply.rest.length) readAfter
    simp at lengths

/-! ## Blocks -/

/-- The reader for the statements inside a statement, which is unrolled `k` times. -/
def innerStatement (k : Nat) : Reader Stmt :=
  unroll (fun again _ => statementWith (again ())) k ()

/-- Statements inside a statement are read like statements, in rows that are not too long. -/
theorem innerStatement_local (k : Nat) : Local k statement (innerStatement k) := by
  have unrolled := Local.unroll (n := k) (fun r => Sound r Grammar.Statement) (fun _ _ _ h => by cases h)
    (fun m again again' ih (_ : Unit) => by
      obtain ⟨loc, sound⟩ := ih ()
      exact ⟨(statementWith_local loc (statement_takes sound)).mono (by omega), statementWith_sound sound⟩)
  refine ⟨(statement_local 0).shrinks, fun row later later' nonempty short => ?_⟩
  refine (unrolled ((row ++ later).length + 1) k ()).1.agrees row later later' nonempty ?_
  rw [List.length_append]
  omega

/-- A block that is accepted at the end of a row is accepted with more behind it. -/
theorem block_append {opening closing : Token} {b : List Token} {body : List Stmt}
    (accepted : block statement (opening :: (b ++ [closing])) = .accept body []) {k : Nat}
    (short : b.length < k) (later : List Token) :
    block (innerStatement k) (opening :: (b ++ closing :: later)) = .accept body later := by
  obtain ⟨first, behind, expected, readBody⟩ := bind_eq_accept_iff.1 accepted
  obtain ⟨same, isOpening⟩ := expect_eq_accept_iff.1 expected
  cases same
  obtain ⟨stmts, middle, read, readClosing⟩ := bind_eq_accept_iff.1 readBody
  obtain ⟨last, left, closes, finished⟩ := bind_eq_accept_iff.1 readClosing
  obtain ⟨rfl, isClosing⟩ := expect_eq_accept_iff.1 closes
  cases finished
  have statements := statementsUntilBrace_local (innerStatement_local k) (statement_takes statement_sound)
  have lastIs : last = closing := by
    have shrinks := statements.shrinks (b ++ [closing])
    rw [read, Reply.rest_accept] at shrinks
    obtain ⟨front, split⟩ := shrinks
    exact (List.append_inj' split rfl).2 |> List.singleton_inj.1
  subst lastIs
  have length : (b ++ [last]).length ≤ k := by
    rw [List.length_append, List.length_singleton]
    exact short
  have readLater := statements.accept_append length read (List.cons_ne_nil _ _) later
  rw [List.append_assoc, List.singleton_append] at readLater
  unfold block
  rw [expect_bind isOpening, bind_of_accept readLater, expect_bind isClosing]
  rfl

/-! ## Loops -/

theorem statement_of_while {keyword : Token} (isWhile : keyword.kind = .whileKeyword) (ts : List Token) :
    statement (keyword :: ts) = conditionLoop (innerStatement (ts.length + 1)) ts := by
  show statementWith (innerStatement (ts.length + 1)) (keyword :: ts) = _
  unfold statementWith
  rw [peek_bind]
  simp only [List.head?_cons, Option.map_some, isWhile, skip_bind, List.tail_cons]

theorem conditionLoop_of_openParen (inner : Reader Stmt) {t : Token} (isOpening : t.kind = .openParen)
    (ts : List Token) :
    conditionLoop inner (t :: ts) =
      (inParens >>= fun condition => block inner >>= fun body => pure (.loop condition body)) (t :: ts) := by
  unfold conditionLoop
  rw [isNext_bind, isNext_of_kind isOpening]
  rfl

theorem conditionLoop_of_other (inner : Reader Stmt) {ts : List Token}
    (notOpening : ∀ t ∈ ts.head?, t.kind ≠ .openParen) :
    conditionLoop inner ts =
      (expression >>= fun condition => block inner >>= fun body => pure (.loop condition body)) ts := by
  unfold conditionLoop
  rw [isNext_bind, isNext_of_ends notOpening]
  rfl

/-- A loop is accepted, if its condition is read up to the brace of the block. -/
theorem loop_of_condition {condition : Reader Expr} {row b later : List Token} {opening closing : Token}
    {e : Expr} {body : List Stmt} {k : Nat}
    (read : condition row = .accept e (opening :: (b ++ closing :: later)))
    (accepted : block statement (opening :: (b ++ [closing])) = .accept body []) (short : b.length < k) :
    (condition >>= fun condition => block (innerStatement k) >>= fun body =>
      pure (Stmt.loop condition body)) row = .accept (.loop e body) later := by
  rw [bind_of_accept read, bind_of_accept (block_append accepted short later)]
  rfl

/-- A loop is refused at a token behind its condition that is no brace. -/
theorem loop_of_other {condition : Reader Expr} {row rest : List Token} {t : Token} {e : Expr}
    (inner : Reader Stmt) (read : condition row = .accept e (t :: rest)) (notBrace : t.kind ≠ .openBrace) :
    (condition >>= fun condition => block inner >>= fun body => pure (Stmt.loop condition body)) row =
      .refuse (.expected .openBrace (some t)) (t :: rest) := by
  have refused : expect .openBrace (t :: rest) = .refuse (.expected .openBrace (some t)) (t :: rest) :=
    if_neg notBrace
  rw [bind_of_accept read]
  exact bind_of_refuse (bind_of_refuse refused _) _

/-- A loop accepts its condition, if that is an expression that does not start with a parenthesis or that is
enclosed in parentheses as a whole.  A condition that starts with a parenthesis and goes on behind the closing
one is refused, although it is an expression, and the refusal is about the token that it goes on with. -/
theorem statement_while {keyword opening closing : Token} {c b : List Token} {e : Expr} {body : List Stmt}
    (isWhile : keyword.kind = .whileKeyword) (isBrace : opening.kind = .openBrace)
    (condition : expression (c ++ [opening]) = .accept e [opening])
    (accepted : block statement (opening :: (b ++ [closing])) = .accept body []) (later : List Token) :
    ((StartsWithParen c → Enclosed c e) →
      statement (keyword :: (c ++ opening :: (b ++ closing :: later))) = .accept (.loop e body) later) ∧
    (StartsWithParen c → ¬ Enclosed c e →
      ∃ used inner t tail, c = used ++ t :: tail ∧ Enclosed used inner ∧
        statement (keyword :: (c ++ opening :: (b ++ closing :: later))) =
          .refuse (.expected .openBrace (some t)) (t :: (tail ++ opening :: (b ++ closing :: later)))) := by
  rw [statement_of_while isWhile]
  generalize enough : (c ++ opening :: (b ++ closing :: later)).length + 1 = k
  have short : b.length < k := by
    simp only [List.length_append, List.length_cons] at enough
    omega
  constructor
  · intro admitted
    by_cases starts : StartsWithParen c
    · have enclosed := admitted starts
      have read := inParens_of_enclosed enclosed (opening :: (b ++ closing :: later))
      obtain ⟨paren, inner, last, rfl, isParen, -, -⟩ := enclosed
      rw [List.cons_append] at read ⊢
      rw [conditionLoop_of_openParen _ isParen]
      exact loop_of_condition read accepted short
    · have other : ∀ t ∈ (c ++ opening :: (b ++ closing :: later)).head?, t.kind ≠ .openParen := by
        cases c with
        | nil => simp [isBrace]
        | cons t c => exact fun u first isParen => starts ⟨u, first, isParen⟩
      have read := (expression_local _).accept_append (Nat.le_refl _) condition (List.cons_ne_nil _ _)
        (b ++ closing :: later)
      rw [List.append_assoc, List.singleton_append] at read
      rw [conditionLoop_of_other _ other]
      exact loop_of_condition read accepted short
  · intro starts notEnclosed
    rcases enclosed_or_goesOn starts isBrace condition with
      enclosed | ⟨used, inner, t, tail, rfl, enclosed, notBrace⟩
    · exact absurd enclosed notEnclosed
    · refine ⟨used, inner, t, tail, rfl, enclosed, ?_⟩
      have read := inParens_of_enclosed enclosed (t :: (tail ++ opening :: (b ++ closing :: later)))
      obtain ⟨first, us, last, rfl, isFirst, -, -⟩ := enclosed
      rw [List.append_assoc, List.cons_append]
      rw [List.cons_append] at read ⊢
      rw [conditionLoop_of_openParen _ isFirst]
      exact loop_of_other _ read notBrace

/-- The condition `(a) < b` is an expression, and the loop `while (a) < b { }` is refused at the comparison. -/
theorem statement_while_comparison :
    let keyword : Token := ⟨.whileKeyword, "while", ⟨1, 1⟩⟩
    let c : List Token := [⟨.openParen, "(", ⟨1, 7⟩⟩, ⟨.identifier, "a", ⟨1, 8⟩⟩, ⟨.closeParen, ")", ⟨1, 9⟩⟩,
      ⟨.less, "<", ⟨1, 11⟩⟩, ⟨.identifier, "b", ⟨1, 13⟩⟩]
    let opening : Token := ⟨.openBrace, "\x7b", ⟨1, 15⟩⟩
    let closing : Token := ⟨.closeBrace, "\x7d", ⟨1, 17⟩⟩
    let e : Expr := .binary .lt (.name ⟨"a", ⟨1, 8⟩⟩) (.name ⟨"b", ⟨1, 13⟩⟩)
    expression (c ++ [opening]) = .accept e [opening] ∧
      block statement [opening, closing] = .accept [] [] ∧
      ∃ used inner t tail, c = used ++ t :: tail ∧ Enclosed used inner ∧
        statement (keyword :: (c ++ [opening, closing])) =
          .refuse (.expected .openBrace (some t)) (t :: (tail ++ [opening, closing])) := by
  intro keyword c opening closing e
  have condition : expression (c ++ [opening]) = .accept e [opening] := rfl
  have accepted : block statement (opening :: ([] ++ [closing])) = .accept [] [] := rfl
  have starts : StartsWithParen c := ⟨_, rfl, rfl⟩
  have notEnclosed : ¬ Enclosed c e := by
    intro enclosed
    obtain ⟨first, inner, last, split, -, isClosing, -⟩ := enclosed
    have lasts := congrArg List.getLast? split
    rw [← List.cons_append, List.getLast?_concat] at lasts
    cases lasts
    cases isClosing
  exact ⟨condition, accepted, (statement_while rfl rfl condition accepted []).2 starts notEnclosed⟩

end ToraCompiler.Reader
