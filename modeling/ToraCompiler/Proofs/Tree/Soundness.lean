import ToraCompiler.Proofs.Tree.Derivation
import ToraCompiler.Proofs.Tree.Reading

/-!
# What readers accept is derivable

One statement for each reader of the grammar: a row that it takes has a derivation, with the value that
the reader gives as its tree.  The readers that call themselves get theirs from `Reader.Sound.recurse`.
-/

namespace ToraCompiler.Reader

open Grammar

/-! ## Expressions -/

theorem name_eq_accept_iff {ts rest : List Token} {n : Name} :
    name ts = .accept n rest ↔ ∃ t, ts = t :: rest ∧ t.kind = .identifier ∧ n = t.toName := by
  simp only [name, bind_eq_accept_iff, expect_eq_accept_iff, pure_apply, Reply.accept.injEq]
  constructor
  · rintro ⟨t, middle, ⟨rfl, kind⟩, rfl, rfl⟩
    exact ⟨t, rfl, kind, rfl⟩
  · rintro ⟨t, rfl, kind, rfl⟩
    exact ⟨t, rest, ⟨rfl, kind⟩, rfl, rfl⟩

theorem literal_eq_accept {t : Token} {ts rest : List Token} {e : Expr}
    (h : literal t ts = .accept e rest) : e = .number t.numberValue ∧ ts = rest := by
  unfold literal at h
  unfold Token.numberValue
  cases denotes : Number.ofLiteral? t.text with
  | none =>
    rw [denotes] at h
    cases h
  | some value =>
    rw [denotes] at h
    cases h
    exact ⟨rfl, rfl⟩

theorem operations_sound {next : Reader Expr} {related : List Token → Expr → Prop}
    (inner : Sound next related) (operator? : Kind → Option BinaryOp) (left : Expr) :
    Sound (operations next operator? left) (Chain related operator? left) := by
  refine Sound.recurse _ (fun again ih left => ?_) left
  intro ts e rest h
  cases ts with
  | nil =>
    cases h
    exact ⟨[], rfl, .nil⟩
  | cons t ts =>
    simp only [peek_bind, List.head?_cons, Option.bind_some] at h
    cases operator : operator? t.kind with
    | none =>
      rw [operator] at h
      cases h
      exact ⟨[], rfl, .nil⟩
    | some op =>
      simp only [operator, skip_bind, List.tail_cons] at h
      obtain ⟨right, middle, accepted, goesOn⟩ := bind_eq_accept_iff.1 h
      obtain ⟨us, rfl, operand⟩ := inner _ _ _ accepted
      obtain ⟨vs, rfl, more⟩ := ih _ _ _ _ goesOn
      exact ⟨t :: (us ++ vs), by simp, .cons operator operand more⟩

theorem moreItems_sound {α : Type} {item : Reader α} {related : List Token → α → Prop}
    (sound : Sound item related) : Sound (moreItems item) (MoreItems related) := by
  refine Sound.recurse (fun _ => MoreItems related) (fun again ih _ => ?_) ()
  intro ts items rest h
  rw [isNext_bind] at h
  split at h
  · next isComma =>
    cases ts with
    | nil => cases isComma
    | cons comma ts =>
      rw [skip_bind, List.tail_cons] at h
      obtain ⟨first, middle, accepted, goesOn⟩ := bind_eq_accept_iff.1 h
      obtain ⟨others, middle', moreAccepted, ends⟩ := bind_eq_accept_iff.1 goesOn
      cases ends
      obtain ⟨us, rfl, derived⟩ := sound _ _ _ accepted
      obtain ⟨vs, rfl, more⟩ := ih _ _ _ _ moreAccepted
      exact ⟨comma :: (us ++ vs), by simp, .cons (by simpa using isComma) derived more⟩
  · cases h
    exact ⟨[], rfl, .nil⟩

/-- A list is read with the token that closes it. -/
theorem itemsUntil_sound {α : Type} {item : Reader α} {related : List Token → α → Prop}
    (sound : Sound item related) {close : Kind} {ts rest : List Token} {items : List α}
    (h : itemsUntil close item ts = .accept items rest) :
    ∃ us closing, ts = us ++ closing :: rest ∧ closing.kind = close ∧ Items related us items := by
  unfold itemsUntil at h
  rw [isNext_bind] at h
  split at h
  · next isClose =>
    cases ts with
    | nil => cases isClose
    | cons closing ts =>
      cases h
      exact ⟨[], closing, rfl, by simpa using isClose, .nil⟩
  · obtain ⟨first, middle, accepted, goesOn⟩ := bind_eq_accept_iff.1 h
    obtain ⟨others, middle', moreAccepted, closes⟩ := bind_eq_accept_iff.1 goesOn
    obtain ⟨closing, middle'', closed, ends⟩ := bind_eq_accept_iff.1 closes
    cases ends
    obtain ⟨us, rfl, derived⟩ := sound _ _ _ accepted
    obtain ⟨vs, rfl, more⟩ := moreItems_sound sound _ _ _ moreAccepted
    obtain ⟨rfl, kind⟩ := expect_eq_accept_iff.1 closed
    exact ⟨us ++ vs, closing, by simp, kind, .cons derived more⟩

theorem operand_sound {inner : Reader Expr} (sound : Sound inner Expression) :
    Sound (operand inner) Operand := by
  intro ts e rest h
  cases ts with
  | nil => cases h
  | cons t ts =>
    simp only [operand, peek_bind, List.head?_cons] at h
    cases kind : t.kind
    case number =>
      simp only [kind, skip_bind, List.tail_cons] at h
      obtain ⟨rfl, rfl⟩ := literal_eq_accept h
      exact ⟨[t], rfl, .number kind⟩
    case string =>
      simp only [kind, skip_bind, List.tail_cons] at h
      cases h
      exact ⟨[t], rfl, .string kind⟩
    case identifier =>
      simp only [kind, skip_bind, List.tail_cons, isNext_bind] at h
      split at h
      · next isOpening =>
        cases ts with
        | nil => cases isOpening
        | cons opening ts =>
          rw [skip_bind, List.tail_cons] at h
          obtain ⟨args, middle, accepted, ends⟩ := bind_eq_accept_iff.1 h
          cases ends
          obtain ⟨us, closing, rfl, closed, items⟩ := itemsUntil_sound sound accepted
          exact ⟨t :: opening :: (us ++ [closing]), by simp,
            .call kind (by simpa using isOpening) items closed⟩
      · cases h
        exact ⟨[t], rfl, .name kind⟩
    case openParen =>
      simp only [kind, skip_bind, List.tail_cons] at h
      obtain ⟨inner, middle, accepted, h⟩ := bind_eq_accept_iff.1 h
      obtain ⟨closing, middle', closed, h⟩ := bind_eq_accept_iff.1 h
      cases h
      obtain ⟨us, rfl, derived⟩ := sound _ _ _ accepted
      obtain ⟨rfl, closingKind⟩ := expect_eq_accept_iff.1 closed
      exact ⟨t :: (us ++ [closing]), by simp, .parens kind derived closingKind⟩
    case openBracket =>
      simp only [kind, skip_bind, List.tail_cons] at h
      obtain ⟨items, middle, accepted, h⟩ := bind_eq_accept_iff.1 h
      cases h
      obtain ⟨us, closing, rfl, closed, items⟩ := itemsUntil_sound sound accepted
      exact ⟨t :: (us ++ [closing]), by simp, .list kind items closed⟩
    all_goals
      rw [kind] at h
      cases h

theorem product_sound {inner : Reader Expr} (sound : Sound inner Expression) :
    Sound (product inner) Product := by
  intro ts e rest h
  obtain ⟨first, middle, accepted, goesOn⟩ := bind_eq_accept_iff.1 h
  obtain ⟨us, rfl, operand⟩ := operand_sound sound _ _ _ accepted
  obtain ⟨vs, rfl, chain⟩ := operations_sound (operand_sound sound) _ _ _ _ _ goesOn
  exact ⟨us ++ vs, by simp, .intro operand chain⟩

theorem moreTerms_sound {inner : Reader Expr} (sound : Sound inner Expression) (left : Expr) :
    Sound (moreTerms inner left) (Terms left) := by
  refine Sound.recurse _ (fun again ih left => ?_) left
  intro ts e rest h
  cases ts with
  | nil =>
    cases h
    exact ⟨[], rfl, .nil⟩
  | cons t ts =>
    simp only [peek_bind, List.head?_cons] at h
    cases operator : t.kind.sum? with
    | some op =>
      simp only [operator, skip_bind, List.tail_cons] at h
      obtain ⟨right, middle, accepted, goesOn⟩ := bind_eq_accept_iff.1 h
      obtain ⟨us, rfl, product⟩ := product_sound sound _ _ _ accepted
      obtain ⟨vs, rfl, more⟩ := ih _ _ _ _ goesOn
      exact ⟨t :: (us ++ vs), by simp, .term operator product more⟩
    | none =>
      simp only [operator] at h
      split at h
      · next negative =>
        simp only [skip_bind, List.tail_cons] at h
        obtain ⟨first, middle, literal, factors⟩ := bind_eq_accept_iff.1 h
        obtain ⟨rfl, rfl⟩ := literal_eq_accept literal
        obtain ⟨right, middle', accepted, goesOn⟩ := bind_eq_accept_iff.1 factors
        obtain ⟨us, rfl, chain⟩ := operations_sound (operand_sound sound) _ _ _ _ _ accepted
        obtain ⟨vs, rfl, more⟩ := ih _ _ _ _ goesOn
        exact ⟨t :: (us ++ vs), by simp, .minus negative chain more⟩
      · cases h
        exact ⟨[], rfl, .nil⟩

theorem sum_sound {inner : Reader Expr} (sound : Sound inner Expression) :
    Sound (sum inner) Sum := by
  intro ts e rest h
  obtain ⟨first, middle, accepted, goesOn⟩ := bind_eq_accept_iff.1 h
  obtain ⟨us, rfl, product⟩ := product_sound sound _ _ _ accepted
  obtain ⟨vs, rfl, terms⟩ := moreTerms_sound sound _ _ _ _ goesOn
  exact ⟨us ++ vs, by simp, .intro product terms⟩

theorem comparison_sound {inner : Reader Expr} (sound : Sound inner Expression) :
    Sound (comparison inner) Expression := by
  intro ts e rest h
  obtain ⟨first, middle, accepted, goesOn⟩ := bind_eq_accept_iff.1 h
  obtain ⟨us, rfl, sum⟩ := sum_sound sound _ _ _ accepted
  obtain ⟨vs, rfl, chain⟩ := operations_sound (sum_sound sound) _ _ _ _ _ goesOn
  exact ⟨us ++ vs, by simp, .intro sum chain⟩

theorem expression_sound : Sound expression Expression :=
  Sound.recurse (fun _ => Expression) (fun _ ih _ => comparison_sound (ih ())) ()

/-! ## Statements -/

theorem typeAfterColon_sound : Sound typeAfterColon Annotation := by
  intro ts type rest h
  unfold typeAfterColon at h
  rw [isNext_bind] at h
  split at h
  · next isColon =>
    cases ts with
    | nil => cases isColon
    | cons colon ts =>
      simp only [skip_bind, List.tail_cons, peek_bind] at h
      cases ts with
      | nil => cases h
      | cons t ts =>
        simp only [List.head?_cons] at h
        split at h
        · next kind =>
          cases h
          exact ⟨[colon, t], rfl, .some (by simpa using isColon) kind⟩
        · cases h
  · cases h
    exact ⟨[], rfl, .none⟩

theorem param_sound : Sound param Parameter := by
  intro ts p rest h
  obtain ⟨n, afterName, named, h⟩ := bind_eq_accept_iff.1 h
  obtain ⟨type, afterType, annotated, h⟩ := bind_eq_accept_iff.1 h
  cases h
  obtain ⟨t, rfl, kind, rfl⟩ := name_eq_accept_iff.1 named
  obtain ⟨us, rfl, typing⟩ := typeAfterColon_sound _ _ _ annotated
  exact ⟨t :: us, rfl, .intro kind typing⟩

theorem params_sound {ts rest : List Token} {ps : List Param} (h : params ts = .accept ps rest) :
    ∃ opening us closing, ts = opening :: (us ++ closing :: rest) ∧ opening.kind = .openParen ∧
      closing.kind = .closeParen ∧ Items Parameter us ps := by
  obtain ⟨opening, afterOpening, opened, listed⟩ := bind_eq_accept_iff.1 h
  obtain ⟨rfl, openingKind⟩ := expect_eq_accept_iff.1 opened
  obtain ⟨us, closing, rfl, closingKind, items⟩ := itemsUntil_sound param_sound listed
  exact ⟨opening, us, closing, rfl, openingKind, closingKind, items⟩

theorem inParens_sound {ts rest : List Token} {e : Expr} (h : inParens ts = .accept e rest) :
    ∃ opening us closing, ts = opening :: (us ++ closing :: rest) ∧ opening.kind = .openParen ∧
      closing.kind = .closeParen ∧ Expression us e := by
  obtain ⟨opening, afterOpening, opened, h⟩ := bind_eq_accept_iff.1 h
  obtain ⟨inner, afterInner, accepted, h⟩ := bind_eq_accept_iff.1 h
  obtain ⟨closing, afterClosing, closed, h⟩ := bind_eq_accept_iff.1 h
  cases h
  obtain ⟨rfl, openingKind⟩ := expect_eq_accept_iff.1 opened
  obtain ⟨us, rfl, derived⟩ := expression_sound _ _ _ accepted
  obtain ⟨rfl, closingKind⟩ := expect_eq_accept_iff.1 closed
  exact ⟨opening, us, closing, rfl, openingKind, closingKind, derived⟩

theorem expressionLine_sound {ts rest : List Token} {e : Expr}
    (h : expressionLine ts = .accept e rest) :
    ∃ us semicolon, ts = us ++ semicolon :: rest ∧ semicolon.kind = .semicolon ∧
      Expression us e := by
  obtain ⟨value, afterValue, accepted, h⟩ := bind_eq_accept_iff.1 h
  obtain ⟨semicolon, afterLine, closed, h⟩ := bind_eq_accept_iff.1 h
  cases h
  obtain ⟨us, rfl, derived⟩ := expression_sound _ _ _ accepted
  obtain ⟨rfl, kind⟩ := expect_eq_accept_iff.1 closed
  exact ⟨us, semicolon, rfl, kind, derived⟩

theorem statementsUntilBrace_sound {inner : Reader Stmt} (sound : Sound inner Statement) :
    Sound (statementsUntilBrace inner) (Sequence Statement) := by
  refine Sound.recurse (fun _ => Sequence Statement) (fun again ih _ => ?_) ()
  intro ts body rest h
  cases ts with
  | nil =>
    cases h
    exact ⟨[], rfl, .nil⟩
  | cons t ts =>
    simp only [peek_bind, List.head?_cons] at h
    split at h
    · cases h
      exact ⟨[], rfl, .nil⟩
    · obtain ⟨first, afterFirst, accepted, h⟩ := bind_eq_accept_iff.1 h
      obtain ⟨others, afterOthers, moreAccepted, h⟩ := bind_eq_accept_iff.1 h
      cases h
      obtain ⟨us, split, derived⟩ := sound _ _ _ accepted
      obtain ⟨vs, rfl, more⟩ := ih _ _ _ _ moreAccepted
      exact ⟨us ++ vs, by simp [split], .cons derived more⟩

theorem block_sound {inner : Reader Stmt} (sound : Sound inner Statement) :
    Sound (block inner) Block := by
  intro ts body rest h
  obtain ⟨opening, afterOpening, opened, h⟩ := bind_eq_accept_iff.1 h
  obtain ⟨statements, afterBody, accepted, h⟩ := bind_eq_accept_iff.1 h
  obtain ⟨closing, afterClosing, closed, h⟩ := bind_eq_accept_iff.1 h
  cases h
  obtain ⟨rfl, openingKind⟩ := expect_eq_accept_iff.1 opened
  obtain ⟨us, rfl, derived⟩ := statementsUntilBrace_sound sound _ _ _ accepted
  obtain ⟨rfl, closingKind⟩ := expect_eq_accept_iff.1 closed
  exact ⟨opening :: (us ++ [closing]), by simp, .intro openingKind derived closingKind⟩

theorem declaration_sound {keyword : Token} (kind : keyword.kind = .letKeyword)
    {ts rest : List Token} {s : Stmt} (h : declaration ts = .accept s rest) :
    ∃ used, keyword :: ts = used ++ rest ∧ Statement used s := by
  obtain ⟨n, afterName, named, h⟩ := bind_eq_accept_iff.1 h
  obtain ⟨type, afterType, annotated, h⟩ := bind_eq_accept_iff.1 h
  obtain ⟨equals, afterEquals, assigned, h⟩ := bind_eq_accept_iff.1 h
  obtain ⟨value, afterValue, accepted, h⟩ := bind_eq_accept_iff.1 h
  cases h
  obtain ⟨t, rfl, nameKind, rfl⟩ := name_eq_accept_iff.1 named
  obtain ⟨us, rfl, typing⟩ := typeAfterColon_sound _ _ _ annotated
  obtain ⟨rfl, equalsKind⟩ := expect_eq_accept_iff.1 assigned
  obtain ⟨vs, semicolon, rfl, semicolonKind, derived⟩ := expressionLine_sound accepted
  exact ⟨keyword :: t :: (us ++ equals :: (vs ++ [semicolon])), by simp,
    .declare kind nameKind typing equalsKind derived semicolonKind⟩

theorem functionDeclaration_sound {inner : Reader Stmt} (sound : Sound inner Statement)
    {keyword : Token} (kind : keyword.kind = .fnKeyword) {ts rest : List Token} {s : Stmt}
    (h : functionDeclaration inner ts = .accept s rest) :
    ∃ used, keyword :: ts = used ++ rest ∧ Statement used s := by
  obtain ⟨n, afterName, named, h⟩ := bind_eq_accept_iff.1 h
  obtain ⟨ps, afterParams, listed, h⟩ := bind_eq_accept_iff.1 h
  obtain ⟨result, afterType, annotated, h⟩ := bind_eq_accept_iff.1 h
  obtain ⟨body, afterBody, blocked, h⟩ := bind_eq_accept_iff.1 h
  cases h
  obtain ⟨t, rfl, nameKind, rfl⟩ := name_eq_accept_iff.1 named
  obtain ⟨opening, us, closing, rfl, openingKind, closingKind, items⟩ := params_sound listed
  obtain ⟨vs, rfl, typing⟩ := typeAfterColon_sound _ _ _ annotated
  obtain ⟨ws, rfl, derived⟩ := block_sound sound _ _ _ blocked
  exact ⟨keyword :: t :: opening :: (us ++ closing :: (vs ++ ws)), by simp,
    .function kind nameKind openingKind items closingKind typing derived⟩

theorem branch_sound {inner : Reader Stmt} (sound : Sound inner Statement)
    {keyword : Token} (kind : keyword.kind = .ifKeyword) {ts rest : List Token} {s : Stmt}
    (h : branch inner ts = .accept s rest) :
    ∃ used, keyword :: ts = used ++ rest ∧ Statement used s := by
  obtain ⟨condition, afterCondition, enclosed, h⟩ := bind_eq_accept_iff.1 h
  obtain ⟨yes, afterYes, yesBlock, h⟩ := bind_eq_accept_iff.1 h
  rw [isNext_bind] at h
  split at h
  · next isElse =>
    cases afterYes with
    | nil => cases isElse
    | cons otherwise afterElse =>
      rw [skip_bind, List.tail_cons] at h
      obtain ⟨no, afterNo, noBlock, h⟩ := bind_eq_accept_iff.1 h
      cases h
      obtain ⟨opening, us, closing, rfl, openingKind, closingKind, derived⟩ :=
        inParens_sound enclosed
      obtain ⟨vs, rfl, yesDerived⟩ := block_sound sound _ _ _ yesBlock
      obtain ⟨ws, rfl, noDerived⟩ := block_sound sound _ _ _ noBlock
      exact ⟨keyword :: opening :: (us ++ closing :: (vs ++ otherwise :: ws)), by simp,
        .branchElse kind openingKind derived closingKind yesDerived (by simpa using isElse)
          noDerived⟩
  · cases h
    obtain ⟨opening, us, closing, rfl, openingKind, closingKind, derived⟩ :=
      inParens_sound enclosed
    obtain ⟨vs, rfl, yesDerived⟩ := block_sound sound _ _ _ yesBlock
    exact ⟨keyword :: opening :: (us ++ closing :: vs), by simp,
      .branch kind openingKind derived closingKind yesDerived⟩

theorem conditionLoop_sound {inner : Reader Stmt} (sound : Sound inner Statement)
    {keyword : Token} (kind : keyword.kind = .whileKeyword) {ts rest : List Token} {s : Stmt}
    (h : conditionLoop inner ts = .accept s rest) :
    ∃ used, keyword :: ts = used ++ rest ∧ Statement used s := by
  unfold conditionLoop at h
  rw [isNext_bind] at h
  split at h
  · obtain ⟨condition, afterCondition, enclosed, h⟩ := bind_eq_accept_iff.1 h
    obtain ⟨body, afterBody, blocked, h⟩ := bind_eq_accept_iff.1 h
    cases h
    obtain ⟨opening, us, closing, rfl, openingKind, closingKind, derived⟩ :=
      inParens_sound enclosed
    obtain ⟨vs, rfl, block⟩ := block_sound sound _ _ _ blocked
    exact ⟨keyword :: opening :: (us ++ closing :: vs), by simp,
      .loopParens kind openingKind derived closingKind block⟩
  · next noParens =>
    obtain ⟨condition, afterCondition, accepted, h⟩ := bind_eq_accept_iff.1 h
    obtain ⟨body, afterBody, blocked, h⟩ := bind_eq_accept_iff.1 h
    cases h
    obtain ⟨us, rfl, derived⟩ := expression_sound _ _ _ accepted
    obtain ⟨vs, rfl, block⟩ := block_sound sound _ _ _ blocked
    refine ⟨keyword :: (us ++ vs), by simp, .loop kind derived ?_ block⟩
    intro t first same
    cases us with
    | nil => cases first
    | cons u us =>
      obtain rfl : u = t := by simpa using first
      exact noParens (by simp [same])

/-- Whether the word `in` stood there or not, the rest is what comes after it. -/
theorem skipIn_eq_accept {ts rest : List Token} (h : skipIn ts = .accept () rest) :
    (∃ word, IsIn word ∧ ts = word :: rest) ∨ (∀ word ∈ rest.head?, ¬ IsIn word) ∧ ts = rest := by
  cases ts with
  | nil =>
    cases h
    exact .inr ⟨by simp, rfl⟩
  | cons t ts =>
    simp only [skipIn, peek_bind, List.head?_cons] at h
    split at h
    · next isIn =>
      cases h
      exact .inl ⟨t, isIn, rfl⟩
    · next notIn =>
      cases h
      refine .inr ⟨fun word first => ?_, rfl⟩
      obtain rfl : t = word := by simpa using first
      exact notIn

theorem listLoop_sound {inner : Reader Stmt} (sound : Sound inner Statement)
    {keyword : Token} (kind : keyword.kind = .forKeyword) {ts rest : List Token} {s : Stmt}
    (h : listLoop inner ts = .accept s rest) :
    ∃ used, keyword :: ts = used ++ rest ∧ Statement used s := by
  obtain ⟨item, afterName, named, h⟩ := bind_eq_accept_iff.1 h
  obtain ⟨⟨⟩, afterIn, skipped, h⟩ := bind_eq_accept_iff.1 h
  obtain ⟨iterable, afterIterable, accepted, h⟩ := bind_eq_accept_iff.1 h
  obtain ⟨body, afterBody, blocked, h⟩ := bind_eq_accept_iff.1 h
  cases h
  obtain ⟨t, rfl, nameKind, rfl⟩ := name_eq_accept_iff.1 named
  obtain ⟨us, rfl, derived⟩ := expression_sound _ _ _ accepted
  obtain ⟨vs, rfl, block⟩ := block_sound sound _ _ _ blocked
  rcases skipIn_eq_accept skipped with ⟨word, isIn, rfl⟩ | ⟨notIn, rfl⟩
  · exact ⟨keyword :: t :: word :: (us ++ vs), by simp,
      .eachIn kind nameKind isIn derived block⟩
  · refine ⟨keyword :: t :: (us ++ vs), by simp, .each kind nameKind derived ?_ block⟩
    intro word first
    apply notIn word
    cases us with
    | nil => cases first
    | cons u us => exact first

theorem printing_sound {keyword : Token} {newline : Bool} (kind : PrintWord keyword.kind newline)
    {ts rest : List Token} {s : Stmt} (h : printing newline ts = .accept s rest) :
    ∃ used, keyword :: ts = used ++ rest ∧ Statement used s := by
  obtain ⟨value, afterValue, enclosed, h⟩ := bind_eq_accept_iff.1 h
  obtain ⟨semicolon, afterLine, closed, h⟩ := bind_eq_accept_iff.1 h
  cases h
  obtain ⟨opening, us, closing, rfl, openingKind, closingKind, derived⟩ := inParens_sound enclosed
  obtain ⟨rfl, semicolonKind⟩ := expect_eq_accept_iff.1 closed
  exact ⟨keyword :: opening :: (us ++ [closing, semicolon]), by simp,
    .print kind openingKind derived closingKind semicolonKind⟩

theorem assignment_sound : Sound assignment Statement := by
  intro ts s rest h
  obtain ⟨target, afterName, named, h⟩ := bind_eq_accept_iff.1 h
  obtain ⟨equals, afterEquals, assigned, h⟩ := bind_eq_accept_iff.1 h
  obtain ⟨value, afterLine, accepted, h⟩ := bind_eq_accept_iff.1 h
  cases h
  obtain ⟨t, rfl, nameKind, rfl⟩ := name_eq_accept_iff.1 named
  obtain ⟨rfl, equalsKind⟩ := expect_eq_accept_iff.1 assigned
  obtain ⟨us, semicolon, rfl, semicolonKind, derived⟩ := expressionLine_sound accepted
  exact ⟨t :: equals :: (us ++ [semicolon]), by simp,
    .assign nameKind equalsKind derived semicolonKind⟩

/-- A line that holds an expression is a statement. -/
theorem evalLine_sound : Sound (do return Stmt.eval (← expressionLine)) Statement := by
  intro ts s rest h
  obtain ⟨value, afterLine, accepted, h⟩ := bind_eq_accept_iff.1 h
  cases h
  obtain ⟨us, semicolon, rfl, semicolonKind, derived⟩ := expressionLine_sound accepted
  exact ⟨us ++ [semicolon], by simp, .eval derived semicolonKind⟩

theorem statementWith_sound {inner : Reader Stmt} (sound : Sound inner Statement) :
    Sound (statementWith inner) Statement := by
  intro ts s rest h
  unfold statementWith at h
  rw [peek_bind] at h
  cases ts with
  | nil => exact evalLine_sound _ _ _ h
  | cons t ts =>
    rw [List.head?_cons, Option.map_some] at h
    cases kind : t.kind
    case letKeyword =>
      rw [kind] at h
      exact declaration_sound kind h
    case fnKeyword =>
      rw [kind] at h
      exact functionDeclaration_sound sound kind h
    case ifKeyword =>
      rw [kind] at h
      exact branch_sound sound kind h
    case whileKeyword =>
      rw [kind] at h
      exact conditionLoop_sound sound kind h
    case forKeyword =>
      rw [kind] at h
      exact listLoop_sound sound kind h
    case printKeyword =>
      rw [kind] at h
      exact printing_sound (kind ▸ .print) h
    case printlnKeyword =>
      rw [kind] at h
      exact printing_sound (kind ▸ .println) h
    case returnKeyword =>
      simp only [kind, skip_bind, List.tail_cons] at h
      obtain ⟨value, afterLine, accepted, ends⟩ := bind_eq_accept_iff.1 h
      cases ends
      obtain ⟨us, semicolon, rfl, semicolonKind, derived⟩ := expressionLine_sound accepted
      exact ⟨t :: (us ++ [semicolon]), by simp, .giveBack kind derived semicolonKind⟩
    case identifier =>
      simp only [kind, peekSecond_bind] at h
      split at h
      · exact assignment_sound _ _ _ h
      · exact evalLine_sound _ _ _ h
    all_goals
      rw [kind] at h
      exact evalLine_sound _ _ _ h

theorem statement_sound : Sound statement Statement :=
  Sound.recurse (fun _ => Statement) (fun _ ih _ => statementWith_sound (ih ())) ()

/-- A program is read to the end of the row. -/
theorem rest_eq_nil_of_program {ts rest : List Token} {p : Program}
    (h : program ts = .accept p rest) : rest = [] := by
  refine recurse_induction
    (fun _ _ reply => ∀ p rest, reply = .accept p rest → rest = []) ?_ ?_ () ts p rest h
  · intro _ ts p rest h
    cases h
  · intro again ih _ ts p rest h
    cases ts with
    | nil =>
      cases h
      rfl
    | cons t ts =>
      simp only [peek_bind, List.head?_cons] at h
      obtain ⟨first, afterFirst, accepted, h⟩ := bind_eq_accept_iff.1 h
      obtain ⟨others, afterOthers, moreAccepted, h⟩ := bind_eq_accept_iff.1 h
      cases h
      exact ih _ _ _ _ moreAccepted

theorem program_sound : Sound program Statements := by
  refine Sound.recurse (fun _ => Statements) (fun again ih _ => ?_) ()
  intro ts p rest h
  cases ts with
  | nil =>
    cases h
    exact ⟨[], rfl, .nil⟩
  | cons t ts =>
    simp only [peek_bind, List.head?_cons] at h
    obtain ⟨first, afterFirst, accepted, h⟩ := bind_eq_accept_iff.1 h
    obtain ⟨others, afterOthers, moreAccepted, h⟩ := bind_eq_accept_iff.1 h
    cases h
    obtain ⟨us, split, derived⟩ := statement_sound _ _ _ accepted
    obtain ⟨vs, rfl, more⟩ := ih _ _ _ _ moreAccepted
    exact ⟨us ++ vs, by simp [split], .cons derived more⟩

end ToraCompiler.Reader
