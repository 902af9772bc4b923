import ToraCompiler.Proofs.Tree.Derivation
import ToraCompiler.Proofs.Tree.Reading

/-!
# What is derivable is accepted

The converse of soundness.  A reader takes as much as it can, so a derivation only tells what it does in
front of tokens that cannot go on with the row: `Before` adds that to a relation, together with the values
of the numbers in the row.  The induction is on the length of the row: a reader of expressions that does
well on shorter rows makes every level of the grammar do well on rows with one token more.
-/

namespace ToraCompiler

/-! ## Tokens that end a row -/

/-- The token does not go on with a product. -/
structure Token.EndsProduct (t : Token) : Prop where
  notCall : t.kind ≠ .openParen
  notFactor : t.kind.product? = none

/-- The token does not go on with a sum. -/
structure Token.EndsSum (t : Token) : Prop extends t.EndsProduct where
  notTerm : t.kind.sum? = none
  notMinus : ¬ t.isNegativeNumber

/-- The token does not go on with an expression. -/
structure Token.EndsExpression (t : Token) : Prop extends t.EndsSum where
  notComparison : t.kind.comparison? = none

/-- The kinds behind an expression. -/
def Kind.closesExpression : Kind → Bool
  | .comma | .semicolon | .closeParen | .closeBracket | .openBrace => true
  | _ => false

/-- The kinds at the start of an operand. -/
def Kind.startsOperand : Kind → Bool
  | .number | .string | .identifier | .openParen | .openBracket => true
  | _ => false

theorem Kind.goesOn_of_closesExpression {kind : Kind} (closes : kind.closesExpression) :
    kind ≠ .openParen ∧ kind ≠ .number ∧ kind.product? = none ∧ kind.sum? = none ∧
      kind.comparison? = none := by
  cases kind <;> cases closes <;> decide

theorem Token.endsExpression_of_closes {t : Token} (closes : t.kind.closesExpression) :
    t.EndsExpression := by
  obtain ⟨notCall, notNumber, notFactor, notTerm, notComparison⟩ :=
    Kind.goesOn_of_closesExpression closes
  exact ⟨⟨⟨notCall, notFactor⟩, notTerm, fun minus => notNumber minus.1⟩, notComparison⟩

/-- An operator of a product stands behind an operand that is not called. -/
theorem Kind.ne_openParen_of_product {kind : Kind} {op : BinaryOp} (factor : kind.product? = some op) :
    kind ≠ .openParen := by
  rintro rfl
  cases factor

/-- An operator of a sum ends the product before it. -/
theorem Token.endsProduct_of_sum {t : Token} {op : BinaryOp} (term : t.kind.sum? = some op) :
    t.EndsProduct := by
  generalize kind : t.kind = k at term
  constructor <;> rw [kind] <;> cases k <;> cases term <;> decide

/-- So does a number with a minus of its own. -/
theorem Token.endsProduct_of_minus {t : Token} (minus : t.isNegativeNumber) : t.EndsProduct := by
  constructor <;> rw [minus.1] <;> decide

/-- A comparison ends the sum before it. -/
theorem Token.endsSum_of_comparison {t : Token} {op : BinaryOp}
    (comparison : t.kind.comparison? = some op) : t.EndsSum := by
  have facts : t.kind ≠ .openParen ∧ t.kind ≠ .number ∧ t.kind.product? = none ∧
      t.kind.sum? = none := by
    generalize t.kind = kind at comparison
    cases kind <;> cases comparison <;> decide
  exact ⟨⟨facts.1, facts.2.2.1⟩, facts.2.2.2, fun minus => facts.2.1 minus.1⟩

namespace Grammar

/-- The row has this value, all its numbers denote something, and the token behind it ends it. -/
structure Before {α : Type} (related : List Token → α → Prop) (ends : Token → Prop)
    (used : List Token) (a : α) (rest : List Token) : Prop where
  derived : related used a
  values : ∀ t ∈ used, t.HasValue
  ends : ∀ t ∈ rest.head?, ends t

/-! ## First tokens -/

theorem Operand.starts {us : List Token} {e : Expr} (h : Operand us e) :
    ∃ t rest, us = t :: rest ∧ t.kind.startsOperand := by
  cases h with
  | number kind => exact ⟨_, _, rfl, by rw [kind]; rfl⟩
  | string kind => exact ⟨_, _, rfl, by rw [kind]; rfl⟩
  | name kind => exact ⟨_, _, rfl, by rw [kind]; rfl⟩
  | call kind => exact ⟨_, _, rfl, by rw [kind]; rfl⟩
  | parens kind => exact ⟨_, _, rfl, by rw [kind]; rfl⟩
  | list kind => exact ⟨_, _, rfl, by rw [kind]; rfl⟩

theorem Product.starts {us : List Token} {e : Expr} (h : Product us e) :
    ∃ t rest, us = t :: rest ∧ t.kind.startsOperand := by
  cases h with
  | intro operand chain =>
    obtain ⟨t, rest, rfl, starts⟩ := operand.starts
    exact ⟨t, _, rfl, starts⟩

theorem Expression.starts {us : List Token} {e : Expr} (h : Expression us e) :
    ∃ t rest, us = t :: rest ∧ t.kind.startsOperand := by
  cases h with
  | intro sum chain =>
    cases sum with
    | intro product terms =>
      obtain ⟨t, rest, rfl, starts⟩ := product.starts
      exact ⟨t, _, rfl, starts⟩

/-- Behind the operands of a chain comes one of its operators, or what comes behind the chain. -/
theorem Chain.head {operand : List Token → Expr → Prop} {operator? : Kind → Option BinaryOp}
    {left whole : Expr} {us rest : List Token} (chain : Chain operand operator? left us whole)
    {holds : Token → Prop} (operators : ∀ t op, operator? t.kind = some op → holds t)
    (behind : ∀ t ∈ rest.head?, holds t) : ∀ t ∈ (us ++ rest).head?, holds t := by
  cases chain with
  | nil => exact behind
  | cons operator operand chain =>
    intro t first
    obtain rfl := Option.some.inj first
    exact operators _ _ operator

/-- The same for the terms of a sum. -/
theorem Terms.head {left whole : Expr} {us rest : List Token} (terms : Terms left us whole)
    {holds : Token → Prop} (operators : ∀ t op, t.kind.sum? = some op → holds t)
    (minus : ∀ t, t.isNegativeNumber → holds t)
    (behind : ∀ t ∈ rest.head?, holds t) : ∀ t ∈ (us ++ rest).head?, holds t := by
  cases terms with
  | nil => exact behind
  | term operator product terms =>
    intro t first
    obtain rfl := Option.some.inj first
    exact operators _ _ operator
  | minus negative chain terms =>
    intro t first
    obtain rfl := Option.some.inj first
    exact minus _ negative

/-- Items of a list start with an item, or there are none. -/
theorem MoreItems.head {α : Type} {item : List Token → α → Prop} {us rest : List Token} {as : List α}
    (more : MoreItems item us as) {holds : Token → Prop} (commas : ∀ t, t.kind = .comma → holds t)
    (behind : ∀ t ∈ rest.head?, holds t) : ∀ t ∈ (us ++ rest).head?, holds t := by
  cases more with
  | nil => exact behind
  | cons comma item more =>
    intro t first
    obtain rfl := Option.some.inj first
    exact commas _ comma

end Grammar


namespace Reader

open Grammar

/-! ## Expressions -/

theorem literal_accepts {t : Token} {value : Number} (denotes : Number.ofLiteral? t.text = some value)
    (ts : List Token) : literal t ts = .accept (.number t.numberValue) ts := by
  unfold literal Token.numberValue
  rw [denotes]
  rfl

theorem isNext_of_kind {kind : Kind} {t : Token} (same : t.kind = kind) (ts : List Token) :
    (t :: ts).head?.any (·.kind = kind) = true := by
  simp [same]

theorem isNext_of_ends {kind : Kind} {ts : List Token} (differs : ∀ t ∈ ts.head?, t.kind ≠ kind) :
    ts.head?.any (·.kind = kind) = false := by
  cases ts with
  | nil => rfl
  | cons t ts => simpa using differs t rfl

theorem operations_accepts {n : Nat} {next : Reader Expr} {related : List Token → Expr → Prop}
    {ends endsChain : Token → Prop} {operator? : Kind → Option BinaryOp}
    (inner : AcceptsBelow n next (Before related ends))
    (operators : ∀ t op, operator? t.kind = some op → ends t)
    (weaker : ∀ t, endsChain t → ends t) (stops : ∀ t, endsChain t → operator? t.kind = none)
    (left : Expr) :
    AcceptsBelow n (operations next operator? left)
      (Before (Chain related operator? left) endsChain) := by
  refine Accepts.recurse (fun left used e rest =>
    used.length < n ∧ Before (Chain related operator? left) endsChain used e rest) ?_ left
  rintro m again ih left used e rest ⟨shorter, short, chain, values, behind⟩
  cases chain with
  | nil =>
    cases rest with
    | nil => rfl
    | cons t rest =>
      simp only [List.nil_append, peek_bind, List.head?_cons, Option.bind_some,
        stops t (behind t rfl), pure_apply]
  | @cons _ right _ op t us vs operator operand chain =>
    have row : t :: (us ++ vs) ++ rest = t :: (us ++ (vs ++ rest)) := by simp
    simp only [List.length_cons, List.length_append] at shorter short
    have first : next (us ++ (vs ++ rest)) = .accept right (vs ++ rest) := by
      refine inner us right (vs ++ rest) ⟨by omega, operand, fun u member => ?_, ?_⟩
      · exact values u (by simp [member])
      · exact chain.head operators fun u member => weaker u (behind u member)
    rw [row]
    simp only [peek_bind, List.head?_cons, Option.bind_some, operator, skip_bind, List.tail_cons]
    rw [bind_of_accept first]
    exact ih _ vs e rest ⟨by omega, by omega, chain, fun u member => values u (by simp [member]),
      behind⟩

theorem moreItems_accepts {α : Type} {n : Nat} {item : Reader α} {related : List Token → α → Prop}
    {ends : Token → Prop} (inner : AcceptsBelow n item (Before related ends))
    (commas : ∀ t, t.kind = .comma → ends t) :
    AcceptsBelow n (moreItems item)
      (Before (MoreItems related) fun t => ends t ∧ t.kind ≠ .comma) := by
  refine Accepts.recurse (fun _ used as rest =>
    used.length < n ∧ Before (MoreItems related) (fun t => ends t ∧ t.kind ≠ .comma) used as rest)
    ?_ ()
  rintro m again ih _ used as rest ⟨shorter, short, more, values, behind⟩
  cases more with
  | nil =>
    rw [List.nil_append, isNext_bind, isNext_of_ends fun t member => (behind t member).2]
    rfl
  | @cons comma us vs a as isComma derived more =>
    have row : comma :: (us ++ vs) ++ rest = comma :: (us ++ (vs ++ rest)) := by simp
    simp only [List.length_cons, List.length_append] at shorter short
    have first : item (us ++ (vs ++ rest)) = .accept a (vs ++ rest) := by
      refine inner us a (vs ++ rest) ⟨by omega, derived, fun u member => ?_, ?_⟩
      · exact values u (by simp [member])
      · exact more.head commas fun u member => (behind u member).1
    have others : again () (vs ++ rest) = .accept as rest :=
      ih _ vs as rest ⟨by omega, by omega, more, fun u member => values u (by simp [member]), behind⟩
    rw [row, isNext_bind, isNext_of_kind isComma, if_pos rfl, skip_bind, List.tail_cons,
      bind_of_accept first, bind_of_accept others]
    rfl

/-- A list is read up to the token that closes it, if no item starts like that token. -/
theorem itemsUntil_accepts {α : Type} {n : Nat} {item : Reader α} {related : List Token → α → Prop}
    {ends : Token → Prop} (inner : AcceptsBelow n item (Before related ends))
    (commas : ∀ t, t.kind = .comma → ends t) {closing : Token} (closes : ends closing)
    (notComma : closing.kind ≠ .comma)
    (starts : ∀ us a, related us a → ∃ t rest, us = t :: rest ∧ t.kind ≠ closing.kind)
    {us rest : List Token} {as : List α} (short : us.length < n) (items : Items related us as)
    (values : ∀ t ∈ us, t.HasValue) :
    itemsUntil closing.kind item (us ++ closing :: rest) = .accept as rest := by
  unfold itemsUntil
  cases items with
  | nil =>
    rw [List.nil_append, isNext_bind, isNext_of_kind rfl]
    rfl
  | @cons us vs a as derived more =>
    have row : us ++ vs ++ closing :: rest = us ++ (vs ++ closing :: rest) := by simp
    rw [List.length_append] at short
    have behind : ∀ t ∈ (closing :: rest).head?, ends t ∧ t.kind ≠ .comma := by
      intro t first
      obtain rfl := Option.some.inj first
      exact ⟨closes, notComma⟩
    have first : item (us ++ (vs ++ closing :: rest)) = .accept a (vs ++ closing :: rest) := by
      refine inner us a _ ⟨by omega, derived, fun u member => ?_, ?_⟩
      · exact values u (by simp [member])
      · exact more.head commas fun u member => (behind u member).1
    have others : moreItems item (vs ++ closing :: rest) = .accept as (closing :: rest) :=
      moreItems_accepts inner commas vs as _
        ⟨by omega, more, fun u member => values u (by simp [member]), behind⟩
    obtain ⟨t, us', rfl, differs⟩ := starts us a derived
    have notClosed : (t :: us' ++ (vs ++ closing :: rest)).head?.any (·.kind = closing.kind) =
        false := isNext_of_ends fun u same => by
      obtain rfl := Option.some.inj same
      exact differs
    rw [row, isNext_bind, notClosed, if_neg (by simp), bind_of_accept first,
      bind_of_accept others, expect_bind rfl]
    rfl

theorem expressionsUntil_accepts {n : Nat} {inner : Reader Expr}
    (accepts : AcceptsBelow n inner (Before Expression Token.EndsExpression)) {closing : Token}
    (closes : closing.kind.closesExpression) (notComma : closing.kind ≠ .comma)
    (notStart : closing.kind.startsOperand = false) {us rest : List Token} {items : List Expr}
    (short : us.length < n) (expressions : Items Expression us items)
    (values : ∀ t ∈ us, t.HasValue) :
    itemsUntil closing.kind inner (us ++ closing :: rest) = .accept items rest := by
  refine itemsUntil_accepts accepts (fun t kind => ?_) (Token.endsExpression_of_closes closes)
    notComma ?_ short expressions values
  · exact Token.endsExpression_of_closes (by rw [kind]; rfl)
  · intro us e expression
    obtain ⟨t, us', rfl, starts⟩ := expression.starts
    refine ⟨t, us', rfl, fun same => ?_⟩
    rw [same, notStart] at starts
    cases starts

/-- An operand with fewer tokens than the inner reader can take, and a token to enclose it. -/
theorem operand_accepts {n : Nat} {inner : Reader Expr}
    (accepts : AcceptsBelow n inner (Before Expression Token.EndsExpression)) :
    AcceptsBelow (n + 1) (operand inner) (Before Operand fun t => t.kind ≠ .openParen) := by
  rintro used e rest ⟨short, derived, values, behind⟩
  cases derived with
  | @number t kind =>
    obtain ⟨⟨value, denotes⟩, -⟩ := values t (by simp) kind
    simp only [List.cons_append, List.nil_append, operand, peek_bind, List.head?_cons, kind,
      skip_bind, List.tail_cons]
    exact literal_accepts denotes rest
  | string kind =>
    simp only [List.cons_append, List.nil_append, operand, peek_bind, List.head?_cons, kind,
      skip_bind, List.tail_cons]
    rfl
  | name kind =>
    simp only [List.cons_append, List.nil_append, operand, peek_bind, List.head?_cons, kind,
      skip_bind, List.tail_cons, isNext_bind, isNext_of_ends behind]
    rfl
  | @call t opening closing us args kind openingKind items closingKind =>
    have row : t :: opening :: (us ++ [closing]) ++ rest =
        t :: opening :: (us ++ closing :: rest) := by simp
    simp only [List.length_cons, List.length_append] at short
    have listed : itemsUntil .closeParen inner (us ++ closing :: rest) = .accept args rest := by
      rw [← closingKind]
      exact expressionsUntil_accepts accepts (by rw [closingKind]; rfl) (by rw [closingKind]; decide)
        (by rw [closingKind]; rfl) (by omega) items fun u member => values u (by simp [member])
    rw [row]
    simp only [operand, peek_bind, List.head?_cons, kind, skip_bind, List.tail_cons]
    rw [isNext_bind, isNext_of_kind openingKind, if_pos rfl, skip_bind, List.tail_cons,
      bind_of_accept listed]
    rfl
  | @parens opening closing us _ openingKind expression closingKind =>
    have row : opening :: (us ++ [closing]) ++ rest = opening :: (us ++ closing :: rest) := by simp
    simp only [List.length_cons, List.length_append] at short
    have enclosed : inner (us ++ closing :: rest) = .accept e (closing :: rest) := by
      refine accepts us e _ ⟨by omega, expression, fun u member => values u (by simp [member]), ?_⟩
      intro t first
      obtain rfl := Option.some.inj first
      exact Token.endsExpression_of_closes (by rw [closingKind]; rfl)
    rw [row]
    simp only [operand, peek_bind, List.head?_cons, openingKind, skip_bind, List.tail_cons]
    rw [bind_of_accept enclosed, expect_bind closingKind]
    rfl
  | @list opening closing us items openingKind expressions closingKind =>
    have row : opening :: (us ++ [closing]) ++ rest = opening :: (us ++ closing :: rest) := by simp
    simp only [List.length_cons, List.length_append] at short
    have listed : itemsUntil .closeBracket inner (us ++ closing :: rest) = .accept items rest := by
      rw [← closingKind]
      exact expressionsUntil_accepts accepts (by rw [closingKind]; rfl) (by rw [closingKind]; decide)
        (by rw [closingKind]; rfl) (by omega) expressions fun u member => values u (by simp [member])
    rw [row]
    simp only [operand, peek_bind, List.head?_cons, openingKind, skip_bind, List.tail_cons]
    rw [bind_of_accept listed]
    rfl

theorem factors_accept {n : Nat} {inner : Reader Expr}
    (accepts : AcceptsBelow n inner (Before Expression Token.EndsExpression)) (left : Expr) :
    AcceptsBelow (n + 1) (operations (operand inner) Kind.product? left)
      (Before (Chain Operand Kind.product? left) Token.EndsProduct) :=
  operations_accepts (operand_accepts accepts) (fun _ _ => Kind.ne_openParen_of_product)
    (fun _ ends => ends.notCall) (fun _ ends => ends.notFactor) left

theorem product_accepts {n : Nat} {inner : Reader Expr}
    (accepts : AcceptsBelow n inner (Before Expression Token.EndsExpression)) :
    AcceptsBelow (n + 1) (product inner) (Before Product Token.EndsProduct) := by
  rintro used e rest ⟨short, derived, values, behind⟩
  cases derived with
  | @intro us vs first _ operand chain =>
    rw [List.length_append] at short
    have firstAccepted : Reader.operand inner (us ++ (vs ++ rest)) = .accept first (vs ++ rest) := by
      refine operand_accepts accepts us first _ ⟨by omega, operand, fun u member => ?_, ?_⟩
      · exact values u (by simp [member])
      · exact chain.head (fun _ _ => Kind.ne_openParen_of_product)
          fun u member => (behind u member).notCall
    rw [List.append_assoc, product, bind_of_accept firstAccepted]
    exact factors_accept accepts first vs e rest
      ⟨by omega, chain, fun u member => values u (by simp [member]), behind⟩

theorem moreTerms_accepts {n : Nat} {inner : Reader Expr}
    (accepts : AcceptsBelow n inner (Before Expression Token.EndsExpression)) (left : Expr) :
    AcceptsBelow (n + 1) (moreTerms inner left) (Before (Terms left) Token.EndsSum) := by
  refine Accepts.recurse (fun left used e rest =>
    used.length < n + 1 ∧ Before (Terms left) Token.EndsSum used e rest) ?_ left
  rintro m again ih left used e rest ⟨shorter, short, terms, values, behind⟩
  cases terms with
  | nil =>
    cases rest with
    | nil => rfl
    | cons t rest =>
      have ends := behind t rfl
      simp only [List.nil_append, peek_bind, List.head?_cons, ends.notTerm, if_neg ends.notMinus,
        pure_apply]
  | @term _ right _ op t us vs operator product terms =>
    have row : t :: (us ++ vs) ++ rest = t :: (us ++ (vs ++ rest)) := by simp
    simp only [List.length_cons, List.length_append] at shorter short
    have first : Reader.product inner (us ++ (vs ++ rest)) = .accept right (vs ++ rest) := by
      refine product_accepts accepts us right _ ⟨by omega, product, fun u member => ?_, ?_⟩
      · exact values u (by simp [member])
      · exact terms.head (fun _ _ => Token.endsProduct_of_sum) (fun _ => Token.endsProduct_of_minus)
          fun u member => (behind u member).toEndsProduct
    rw [row]
    simp only [peek_bind, List.head?_cons, operator, skip_bind, List.tail_cons]
    rw [bind_of_accept first]
    exact ih _ vs e rest ⟨by omega, by omega, terms, fun u member => values u (by simp [member]),
      behind⟩
  | @minus _ right _ t us vs negative chain terms =>
    have row : t :: (us ++ vs) ++ rest = t :: (us ++ (vs ++ rest)) := by simp
    simp only [List.length_cons, List.length_append] at shorter short
    have notOperator : t.kind.sum? = none := by rw [negative.1]; rfl
    obtain ⟨value, denotes⟩ := (values t (by simp) negative.1).2 negative
    have factors : operations (operand inner) Kind.product? (.number t.dropFirst.numberValue)
        (us ++ (vs ++ rest)) = .accept right (vs ++ rest) := by
      refine factors_accept accepts _ us right _ ⟨by omega, chain, fun u member => ?_, ?_⟩
      · exact values u (by simp [member])
      · exact terms.head (fun _ _ => Token.endsProduct_of_sum) (fun _ => Token.endsProduct_of_minus)
          fun u member => (behind u member).toEndsProduct
    rw [row]
    simp only [peek_bind, List.head?_cons, notOperator, if_pos negative, skip_bind, List.tail_cons]
    rw [bind_of_accept (literal_accepts denotes _), bind_of_accept factors]
    exact ih _ vs e rest ⟨by omega, by omega, terms, fun u member => values u (by simp [member]),
      behind⟩

theorem sum_accepts {n : Nat} {inner : Reader Expr}
    (accepts : AcceptsBelow n inner (Before Expression Token.EndsExpression)) :
    AcceptsBelow (n + 1) (sum inner) (Before Sum Token.EndsSum) := by
  rintro used e rest ⟨short, derived, values, behind⟩
  cases derived with
  | @intro us vs first _ product terms =>
    rw [List.length_append] at short
    have firstAccepted : Reader.product inner (us ++ (vs ++ rest)) = .accept first (vs ++ rest) := by
      refine product_accepts accepts us first _ ⟨by omega, product, fun u member => ?_, ?_⟩
      · exact values u (by simp [member])
      · exact terms.head (fun _ _ => Token.endsProduct_of_sum) (fun _ => Token.endsProduct_of_minus)
          fun u member => (behind u member).toEndsProduct
    rw [List.append_assoc, sum, bind_of_accept firstAccepted]
    exact moreTerms_accepts accepts first vs e rest
      ⟨by omega, terms, fun u member => values u (by simp [member]), behind⟩

theorem comparison_accepts {n : Nat} {inner : Reader Expr}
    (accepts : AcceptsBelow n inner (Before Expression Token.EndsExpression)) :
    AcceptsBelow (n + 1) (comparison inner) (Before Expression Token.EndsExpression) := by
  rintro used e rest ⟨short, derived, values, behind⟩
  cases derived with
  | @intro us vs first _ sum chain =>
    rw [List.length_append] at short
    have firstAccepted : Reader.sum inner (us ++ (vs ++ rest)) = .accept first (vs ++ rest) := by
      refine sum_accepts accepts us first _ ⟨by omega, sum, fun u member => ?_, ?_⟩
      · exact values u (by simp [member])
      · exact chain.head (fun _ _ => Token.endsSum_of_comparison)
          fun u member => (behind u member).toEndsSum
    rw [List.append_assoc, comparison, bind_of_accept firstAccepted]
    exact operations_accepts (sum_accepts accepts) (fun _ _ => Token.endsSum_of_comparison)
      (fun _ ends => ends.toEndsSum) (fun _ ends => ends.notComparison) first vs e rest
      ⟨by omega, chain, fun u member => values u (by simp [member]), behind⟩

theorem expression_accepts : Accepts expression (Before Expression Token.EndsExpression) :=
  Accepts.recurse (fun _ => Before Expression Token.EndsExpression)
    (fun _ _ ih _ => comparison_accepts (ih ())) ()

/-- An expression in front of a token that closes it. -/
theorem expression_accepts_closed {us : List Token} (closing : Token) (rest : List Token) {e : Expr}
    (derived : Expression us e) (values : ∀ t ∈ us, t.HasValue)
    (closes : closing.kind.closesExpression) :
    expression (us ++ closing :: rest) = .accept e (closing :: rest) := by
  refine expression_accepts us e _ ⟨derived, values, fun t first => ?_⟩
  obtain rfl := Option.some.inj first
  exact Token.endsExpression_of_closes closes

/-! ## Parts of statements -/

theorem Accepts.below {α : Type} {r : Reader α} {related : List Token → α → List Token → Prop}
    (accepts : Accepts r related) (n : Nat) : AcceptsBelow n r related := by
  rintro used a rest ⟨-, h⟩
  exact accepts used a rest h

theorem name_accepts {t : Token} (kind : t.kind = .identifier) (ts : List Token) :
    name (t :: ts) = .accept t.toName ts := by
  unfold name
  rw [expect_bind kind]
  rfl

theorem typeAfterColon_accepts : Accepts typeAfterColon (Before Annotation fun t => t.kind ≠ .colon) := by
  rintro used type rest ⟨derived, -, behind⟩
  unfold typeAfterColon
  cases derived with
  | none =>
    rw [List.nil_append, isNext_bind, isNext_of_ends behind]
    rfl
  | @some colon t colonKind kind =>
    rw [List.cons_append, isNext_bind, isNext_of_kind colonKind, if_pos rfl]
    simp only [skip_bind, List.tail_cons, peek_bind, List.cons_append, List.nil_append,
      List.head?_cons, if_pos kind, pure_apply]

theorem param_accepts : Accepts param (Before Parameter fun t => t.kind ≠ .colon) := by
  rintro used p rest ⟨derived, values, behind⟩
  cases derived with
  | @intro t us type kind typing =>
    have typed : typeAfterColon (us ++ rest) = .accept type rest :=
      typeAfterColon_accepts us type rest
        ⟨typing, fun u member => values u (by simp [member]), behind⟩
    rw [List.cons_append, param, bind_of_accept (name_accepts kind _), bind_of_accept typed]
    rfl

theorem params_accept {opening closing : Token} {us : List Token} (rest : List Token) {ps : List Param}
    (openingKind : opening.kind = .openParen) (items : Items Parameter us ps)
    (closingKind : closing.kind = .closeParen) (values : ∀ t ∈ us, t.HasValue) :
    params (opening :: (us ++ closing :: rest)) = .accept ps rest := by
  rw [params, expect_bind openingKind, ← closingKind]
  refine itemsUntil_accepts (param_accepts.below (us.length + 1)) (fun t kind => by simp [kind])
    (by simp [closingKind]) (by simp [closingKind]) ?_ (Nat.lt_succ_self _) items values
  intro us p parameter
  cases parameter with
  | intro kind typing => exact ⟨_, _, rfl, by simp [kind, closingKind]⟩

theorem inParens_accepts {opening closing : Token} {us : List Token} (rest : List Token) {e : Expr}
    (openingKind : opening.kind = .openParen) (derived : Expression us e)
    (closingKind : closing.kind = .closeParen) (values : ∀ t ∈ us, t.HasValue) :
    inParens (opening :: (us ++ closing :: rest)) = .accept e rest := by
  have enclosed := expression_accepts_closed closing rest derived values (by rw [closingKind]; rfl)
  rw [inParens, expect_bind openingKind, bind_of_accept enclosed, expect_bind closingKind]
  rfl

theorem expressionLine_accepts {semicolon : Token} {us : List Token} (rest : List Token) {e : Expr}
    (derived : Expression us e) (kind : semicolon.kind = .semicolon) (values : ∀ t ∈ us, t.HasValue) :
    expressionLine (us ++ semicolon :: rest) = .accept e rest := by
  have closed := expression_accepts_closed semicolon rest derived values (by rw [kind]; rfl)
  rw [expressionLine, bind_of_accept closed, expect_bind kind]
  rfl

theorem skipIn_accepts {word : Token} (isIn : IsIn word) (ts : List Token) :
    skipIn (word :: ts) = .accept () ts := by
  unfold IsIn at isIn
  simp only [skipIn, peek_bind, List.head?_cons, if_pos isIn]
  rfl

theorem skipIn_of_not {ts : List Token} (notIn : ∀ word ∈ ts.head?, ¬ IsIn word) :
    skipIn ts = .accept () ts := by
  cases ts with
  | nil => rfl
  | cons t ts =>
    have differs := notIn t rfl
    unfold IsIn at differs
    simp only [skipIn, peek_bind, List.head?_cons, if_neg differs]
    rfl

end Reader

/-! ## First and second tokens of statements -/

namespace Grammar

theorem Statement.starts {us : List Token} {s : Stmt} (h : Statement us s) :
    ∃ t rest, us = t :: rest ∧ t.kind ≠ .closeBrace ∧ t.kind ≠ .elseKeyword := by
  cases h with
  | declare kind => exact ⟨_, _, rfl, by simp [kind], by simp [kind]⟩
  | function kind => exact ⟨_, _, rfl, by simp [kind], by simp [kind]⟩
  | branch kind => exact ⟨_, _, rfl, by simp [kind], by simp [kind]⟩
  | branchElse kind => exact ⟨_, _, rfl, by simp [kind], by simp [kind]⟩
  | loopParens kind => exact ⟨_, _, rfl, by simp [kind], by simp [kind]⟩
  | loop kind => exact ⟨_, _, rfl, by simp [kind], by simp [kind]⟩
  | eachIn kind => exact ⟨_, _, rfl, by simp [kind], by simp [kind]⟩
  | each kind => exact ⟨_, _, rfl, by simp [kind], by simp [kind]⟩
  | @print keyword _ _ _ _ _ _ word =>
    refine ⟨_, _, rfl, ?_, ?_⟩ <;> generalize keyword.kind = kind at word <;> cases word <;> decide
  | giveBack kind => exact ⟨_, _, rfl, by simp [kind], by simp [kind]⟩
  | assign kind => exact ⟨_, _, rfl, by simp [kind], by simp [kind]⟩
  | eval expression =>
    obtain ⟨t, rest, rfl, starts⟩ := expression.starts
    refine ⟨t, _, rfl, ?_, ?_⟩ <;> intro kind <;> rw [kind] at starts <;> cases starts

/-- The token behind the first one of an operand is not the sign of an assignment. -/
theorem Operand.second {us rest : List Token} {e : Expr} (h : Operand us e)
    (behind : ∀ t ∈ rest.head?, t.kind ≠ .assign) :
    ∀ t ∈ (us ++ rest).tail.head?, t.kind ≠ .assign := by
  cases h with
  | number kind => exact behind
  | string kind => exact behind
  | name kind => exact behind
  | call kind openingKind =>
    intro t first
    obtain rfl := Option.some.inj first
    simp [openingKind]
  | parens openingKind expression closingKind =>
    obtain ⟨u, us, rfl, starts⟩ := expression.starts
    intro t first
    obtain rfl := Option.some.inj first
    intro kind
    rw [kind] at starts
    cases starts
  | list openingKind items closingKind =>
    intro t first
    cases items with
    | nil =>
      obtain rfl := Option.some.inj first
      simp [closingKind]
    | cons expression more =>
      obtain ⟨u, us, rfl, starts⟩ := expression.starts
      obtain rfl := Option.some.inj first
      intro kind
      rw [kind] at starts
      cases starts

/-- Nor is the one behind the first token of an expression. -/
theorem Expression.second {us : List Token} (rest : List Token) {e : Expr} (h : Expression us e)
    (behind : ∀ t ∈ rest.head?, t.kind ≠ .assign) :
    ∀ t ∈ (us ++ rest).tail.head?, t.kind ≠ .assign := by
  cases h with
  | intro sum comparisons =>
    cases sum with
    | intro product terms =>
      cases product with
      | intro operand factors =>
        simp only [List.append_assoc]
        refine operand.second (factors.head ?_ (terms.head ?_ ?_ (comparisons.head ?_ behind)))
        · intro t op operator kind
          rw [kind] at operator
          cases operator
        · intro t op operator kind
          rw [kind] at operator
          cases operator
        · intro t minus kind
          rw [minus.1] at kind
          cases kind
        · intro t op operator kind
          rw [kind] at operator
          cases operator

end Grammar


namespace Reader

open Grammar

/-! ## Statements -/

theorem statementsUntilBrace_accepts {n : Nat} {inner : Reader Stmt}
    (accepts : AcceptsBelow n inner (Before Statement fun t => t.kind ≠ .elseKeyword)) :
    AcceptsBelow n (statementsUntilBrace inner)
      (Before (Sequence Statement) fun t => t.kind = .closeBrace) := by
  refine Accepts.recurse (fun _ used body rest =>
    used.length < n ∧ Before (Sequence Statement) (fun t => t.kind = .closeBrace) used body rest)
    ?_ ()
  rintro m again ih _ used body rest ⟨shorter, short, statements, values, behind⟩
  cases statements with
  | nil =>
    cases rest with
    | nil => rfl
    | cons t rest =>
      simp only [List.nil_append, peek_bind, List.head?_cons, if_pos (behind t rfl)]
      rfl
  | @cons us vs s body statement statements =>
    rw [List.length_append] at shorter short
    have first : inner (us ++ (vs ++ rest)) = .accept s (vs ++ rest) := by
      refine accepts us s _ ⟨by omega, statement, fun u member => values u (by simp [member]), ?_⟩
      cases statements with
      | nil =>
        intro t member kind
        rw [behind t member] at kind
        cases kind
      | cons next statements =>
        obtain ⟨t, us', rfl, -, notElse⟩ := next.starts
        intro u member
        obtain rfl := Option.some.inj member
        exact notElse
    obtain ⟨t, us, rfl, notBrace, -⟩ := statement.starts
    simp only [List.length_cons] at shorter short
    have others : again () (vs ++ rest) = .accept body rest :=
      ih _ vs body rest
        ⟨by omega, by omega, statements, fun u member => values u (by simp [member]), behind⟩
    rw [List.append_assoc]
    simp only [List.cons_append, peek_bind, List.head?_cons, if_neg notBrace]
    rw [← List.cons_append, bind_of_accept first, bind_of_accept others]
    rfl

theorem block_accepts {n : Nat} {inner : Reader Stmt}
    (accepts : AcceptsBelow n inner (Before Statement fun t => t.kind ≠ .elseKeyword))
    {us : List Token} (rest : List Token) {body : List Stmt} (derived : Block us body) (short : us.length ≤ n)
    (values : ∀ t ∈ us, t.HasValue) : block inner (us ++ rest) = .accept body rest := by
  cases derived with
  | @intro opening closing us body openingKind statements closingKind =>
    have row : opening :: (us ++ [closing]) ++ rest = opening :: (us ++ closing :: rest) := by simp
    simp only [List.length_cons, List.length_append] at short
    have enclosed : statementsUntilBrace inner (us ++ closing :: rest) =
        .accept body (closing :: rest) := by
      refine statementsUntilBrace_accepts accepts us body _
        ⟨by omega, statements, fun u member => values u (by simp [member]), ?_⟩
      intro t first
      obtain rfl := Option.some.inj first
      exact closingKind
    rw [row, block, expect_bind openingKind, bind_of_accept enclosed, expect_bind closingKind]
    rfl

/-- An expression in front of a block. -/
theorem expression_accepts_block {us vs : List Token} (rest : List Token) {e : Expr} {body : List Stmt}
    (derived : Expression us e) (block : Block vs body) (values : ∀ t ∈ us, t.HasValue) :
    expression (us ++ (vs ++ rest)) = .accept e (vs ++ rest) := by
  cases block with
  | intro openingKind => exact expression_accepts_closed _ _ derived values (by rw [openingKind]; rfl)

section Statements

variable {n : Nat} {inner : Reader Stmt}
  (accepts : AcceptsBelow n inner (Before Statement fun t => t.kind ≠ .elseKeyword))
include accepts

theorem functionDeclaration_accepts {t opening closing : Token} {us vs ws : List Token} (rest : List Token)
    {ps : List Param} {result : Option String} {body : List Stmt} (nameKind : t.kind = .identifier)
    (openingKind : opening.kind = .openParen) (items : Items Parameter us ps)
    (closingKind : closing.kind = .closeParen) (typing : Annotation vs result)
    (block : Block ws body) (short : ws.length ≤ n)
    (values : ∀ u ∈ us ++ (vs ++ ws), u.HasValue) :
    functionDeclaration inner (t :: opening :: (us ++ closing :: (vs ++ (ws ++ rest)))) =
      .accept (.function t.toName ps result body) rest := by
  have listed := params_accept (vs ++ (ws ++ rest)) openingKind items closingKind
    fun u member => values u (by simp [member])
  have typed : typeAfterColon (vs ++ (ws ++ rest)) = .accept result (ws ++ rest) := by
    refine typeAfterColon_accepts vs result _
      ⟨typing, fun u member => values u (by simp [member]), ?_⟩
    cases block with
    | intro openingKind =>
      intro u first
      obtain rfl := Option.some.inj first
      simp [openingKind]
  have blocked := block_accepts accepts rest block short
    fun u member => values u (by simp [member])
  rw [functionDeclaration, bind_of_accept (name_accepts nameKind _), bind_of_accept listed,
    bind_of_accept typed, bind_of_accept blocked]
  rfl

theorem branch_accepts {opening closing : Token} {us vs rest : List Token} {condition : Expr}
    {yes : List Stmt} (openingKind : opening.kind = .openParen) (expression : Expression us condition)
    (closingKind : closing.kind = .closeParen) (block : Block vs yes) (short : vs.length ≤ n)
    (values : ∀ u ∈ us ++ vs, u.HasValue) (notElse : ∀ u ∈ rest.head?, u.kind ≠ .elseKeyword) :
    branch inner (opening :: (us ++ closing :: (vs ++ rest))) =
      .accept (.branch condition yes none) rest := by
  have enclosed := inParens_accepts (vs ++ rest) openingKind expression closingKind
    fun u member => values u (by simp [member])
  have blocked := block_accepts accepts rest block short
    fun u member => values u (by simp [member])
  rw [branch, bind_of_accept enclosed, bind_of_accept blocked, isNext_bind, isNext_of_ends notElse]
  rfl

theorem branchElse_accepts {opening closing otherwise : Token} {us vs ws : List Token} (rest : List Token)
    {condition : Expr} {yes no : List Stmt} (openingKind : opening.kind = .openParen)
    (expression : Expression us condition) (closingKind : closing.kind = .closeParen)
    (yesBlock : Block vs yes) (elseKind : otherwise.kind = .elseKeyword) (noBlock : Block ws no)
    (yesShort : vs.length ≤ n) (noShort : ws.length ≤ n)
    (values : ∀ u ∈ us ++ (vs ++ ws), u.HasValue) :
    branch inner (opening :: (us ++ closing :: (vs ++ otherwise :: (ws ++ rest)))) =
      .accept (.branch condition yes (some no)) rest := by
  have enclosed := inParens_accepts (vs ++ otherwise :: (ws ++ rest)) openingKind expression
    closingKind fun u member => values u (by simp [member])
  have yesAccepted := block_accepts accepts (otherwise :: (ws ++ rest)) yesBlock yesShort
    fun u member => values u (by simp [member])
  have noAccepted := block_accepts accepts rest noBlock noShort
    fun u member => values u (by simp [member])
  rw [branch, bind_of_accept enclosed, bind_of_accept yesAccepted, isNext_bind,
    isNext_of_kind elseKind, if_pos rfl, skip_bind, List.tail_cons, bind_of_accept noAccepted]
  rfl

theorem loopParens_accepts {opening closing : Token} {us vs : List Token} (rest : List Token) {condition : Expr}
    {body : List Stmt} (openingKind : opening.kind = .openParen)
    (expression : Expression us condition) (closingKind : closing.kind = .closeParen)
    (block : Block vs body) (short : vs.length ≤ n) (values : ∀ u ∈ us ++ vs, u.HasValue) :
    conditionLoop inner (opening :: (us ++ closing :: (vs ++ rest))) =
      .accept (.loop condition body) rest := by
  have enclosed := inParens_accepts (vs ++ rest) openingKind expression closingKind
    fun u member => values u (by simp [member])
  have blocked := block_accepts accepts rest block short
    fun u member => values u (by simp [member])
  rw [conditionLoop, isNext_bind, isNext_of_kind openingKind, if_pos rfl, bind_of_accept enclosed]
  exact bind_of_accept blocked _

theorem loop_accepts {us vs : List Token} (rest : List Token) {condition : Expr} {body : List Stmt}
    (expression : Expression us condition) (noParens : ∀ t ∈ us.head?, t.kind ≠ .openParen)
    (block : Block vs body) (short : vs.length ≤ n) (values : ∀ u ∈ us ++ vs, u.HasValue) :
    conditionLoop inner (us ++ (vs ++ rest)) = .accept (.loop condition body) rest := by
  have conditioned := expression_accepts_block rest expression block
    fun u member => values u (by simp [member])
  have blocked := block_accepts accepts rest block short
    fun u member => values u (by simp [member])
  have notNext : (us ++ (vs ++ rest)).head?.any (·.kind = .openParen) = false := by
    obtain ⟨t, us, rfl, -⟩ := expression.starts
    exact isNext_of_ends noParens
  rw [conditionLoop, isNext_bind, notNext, if_neg (by simp), bind_of_accept conditioned]
  exact bind_of_accept blocked _

theorem eachIn_accepts {t word : Token} {us vs : List Token} (rest : List Token) {iterable : Expr}
    {body : List Stmt} (nameKind : t.kind = .identifier) (isIn : IsIn word)
    (expression : Expression us iterable) (block : Block vs body) (short : vs.length ≤ n)
    (values : ∀ u ∈ us ++ vs, u.HasValue) :
    listLoop inner (t :: word :: (us ++ (vs ++ rest))) =
      .accept (.each t.toName iterable body) rest := by
  have listed := expression_accepts_block rest expression block
    fun u member => values u (by simp [member])
  have blocked := block_accepts accepts rest block short
    fun u member => values u (by simp [member])
  rw [listLoop, bind_of_accept (name_accepts nameKind _), bind_of_accept (skipIn_accepts isIn _),
    bind_of_accept listed, bind_of_accept blocked]
  rfl

theorem each_accepts {t : Token} {us vs : List Token} (rest : List Token) {iterable : Expr} {body : List Stmt}
    (nameKind : t.kind = .identifier) (expression : Expression us iterable)
    (notIn : ∀ word ∈ us.head?, ¬ IsIn word) (block : Block vs body) (short : vs.length ≤ n)
    (values : ∀ u ∈ us ++ vs, u.HasValue) :
    listLoop inner (t :: (us ++ (vs ++ rest))) = .accept (.each t.toName iterable body) rest := by
  have listed := expression_accepts_block rest expression block
    fun u member => values u (by simp [member])
  have blocked := block_accepts accepts rest block short
    fun u member => values u (by simp [member])
  have kept : skipIn (us ++ (vs ++ rest)) = .accept () (us ++ (vs ++ rest)) := by
    obtain ⟨u, us, rfl, -⟩ := expression.starts
    exact skipIn_of_not notIn
  rw [listLoop, bind_of_accept (name_accepts nameKind _), bind_of_accept kept,
    bind_of_accept listed, bind_of_accept blocked]
  rfl

end Statements

theorem declaration_accepts {t equals semicolon : Token} {us vs : List Token} (rest : List Token)
    {type : Option String} {value : Expr} (nameKind : t.kind = .identifier)
    (typing : Annotation us type) (equalsKind : equals.kind = .assign)
    (expression : Expression vs value) (semicolonKind : semicolon.kind = .semicolon)
    (values : ∀ u ∈ us ++ vs, u.HasValue) :
    declaration (t :: (us ++ equals :: (vs ++ semicolon :: rest))) =
      .accept (.declare t.toName type (some value)) rest := by
  have typed : typeAfterColon (us ++ equals :: (vs ++ semicolon :: rest)) =
      .accept type (equals :: (vs ++ semicolon :: rest)) := by
    refine typeAfterColon_accepts us type _
      ⟨typing, fun u member => values u (by simp [member]), ?_⟩
    intro u first
    obtain rfl := Option.some.inj first
    simp [equalsKind]
  have line := expressionLine_accepts rest expression semicolonKind
    fun u member => values u (by simp [member])
  rw [declaration, bind_of_accept (name_accepts nameKind _), bind_of_accept typed,
    expect_bind equalsKind, bind_of_accept line]
  rfl

theorem printing_accepts {opening closing semicolon : Token} {us : List Token} (rest : List Token) {value : Expr}
    (openingKind : opening.kind = .openParen) (expression : Expression us value)
    (closingKind : closing.kind = .closeParen) (semicolonKind : semicolon.kind = .semicolon)
    (values : ∀ u ∈ us, u.HasValue) (newline : Bool) :
    printing newline (opening :: (us ++ closing :: semicolon :: rest)) =
      .accept (.print value newline) rest := by
  have enclosed := inParens_accepts (semicolon :: rest) openingKind expression closingKind
    values
  rw [printing, bind_of_accept enclosed, expect_bind semicolonKind]
  rfl

theorem assignment_accepts {t equals semicolon : Token} {us : List Token} (rest : List Token) {value : Expr}
    (nameKind : t.kind = .identifier) (equalsKind : equals.kind = .assign)
    (expression : Expression us value) (semicolonKind : semicolon.kind = .semicolon)
    (values : ∀ u ∈ us, u.HasValue) :
    assignment (t :: equals :: (us ++ semicolon :: rest)) = .accept (.assign t.toName value) rest := by
  have line := expressionLine_accepts rest expression semicolonKind values
  rw [assignment, bind_of_accept (name_accepts nameKind _), expect_bind equalsKind,
    bind_of_accept line]
  rfl

/-- A statement that starts like an operand, with no sign of an assignment behind its first token, is an
expression. -/
theorem statementWith_of_operand {inner : Reader Stmt} {t : Token} (starts : t.kind.startsOperand)
    {ts : List Token} (second : ∀ u ∈ ts.head?, u.kind ≠ .assign) :
    statementWith inner (t :: ts) =
      (do return Stmt.eval (← expressionLine) : Reader Stmt) (t :: ts) := by
  simp only [statementWith, peek_bind, List.head?_cons, Option.map_some]
  cases kind : t.kind
  case identifier =>
    show (if ts.head?.any (·.kind = .assign) = true then assignment
      else do return Stmt.eval (← expressionLine)) (t :: ts) = _
    rw [isNext_of_ends second, if_neg (by simp)]
  all_goals
    first
      | rfl
      | rw [kind] at starts
        cases starts

theorem statementWith_accepts {n : Nat} {inner : Reader Stmt}
    (accepts : AcceptsBelow n inner (Before Statement fun t => t.kind ≠ .elseKeyword)) :
    AcceptsBelow (n + 1) (statementWith inner)
      (Before Statement fun t => t.kind ≠ .elseKeyword) := by
  rintro used s rest ⟨short, derived, values, behind⟩
  cases derived with
  | @declare keyword t equals semicolon us vs type value kind nameKind typing equalsKind
      expression semicolonKind =>
    have accepted := declaration_accepts rest nameKind typing equalsKind expression
      semicolonKind fun u member => values u (by grind)
    simpa [statementWith, kind] using accepted
  | @function keyword t opening closing us vs ws ps result body kind nameKind openingKind items
      closingKind typing block =>
    simp only [List.length_cons, List.length_append] at short
    have accepted := functionDeclaration_accepts accepts rest nameKind openingKind items
      closingKind typing block (by omega) fun u member => values u (by grind)
    simpa [statementWith, kind] using accepted
  | @branch keyword opening closing us vs condition yes kind openingKind expression closingKind
      block =>
    simp only [List.length_cons, List.length_append] at short
    have accepted := branch_accepts accepts openingKind expression closingKind block (by omega)
      (fun u member => values u (by grind)) behind
    simpa [statementWith, kind] using accepted
  | @branchElse keyword opening closing otherwise us vs ws condition yes no kind openingKind
      expression closingKind yesBlock elseKind noBlock =>
    simp only [List.length_cons, List.length_append] at short
    have accepted := branchElse_accepts accepts rest openingKind expression closingKind
      yesBlock elseKind noBlock (by omega) (by omega) fun u member => values u (by grind)
    simpa [statementWith, kind] using accepted
  | @loopParens keyword opening closing us vs condition body kind openingKind expression closingKind
      block =>
    simp only [List.length_cons, List.length_append] at short
    have accepted := loopParens_accepts accepts rest openingKind expression closingKind
      block (by omega) fun u member => values u (by grind)
    simpa [statementWith, kind] using accepted
  | @loop keyword us vs condition body kind expression noParens block =>
    simp only [List.length_cons, List.length_append] at short
    have accepted := loop_accepts accepts rest expression noParens block (by omega)
      fun u member => values u (by grind)
    simpa [statementWith, kind] using accepted
  | @eachIn keyword t word us vs iterable body kind nameKind isIn expression block =>
    simp only [List.length_cons, List.length_append] at short
    have accepted := eachIn_accepts accepts rest nameKind isIn expression block (by omega)
      fun u member => values u (by grind)
    simpa [statementWith, kind] using accepted
  | @each keyword t us vs iterable body kind nameKind expression notIn block =>
    simp only [List.length_cons, List.length_append] at short
    have accepted := each_accepts accepts rest nameKind expression notIn block (by omega)
      fun u member => values u (by grind)
    simpa [statementWith, kind] using accepted
  | @print keyword opening closing semicolon us value newline word openingKind expression closingKind
      semicolonKind =>
    have accepted := printing_accepts rest openingKind expression closingKind semicolonKind
      (fun u member => values u (by grind)) newline
    generalize kind : keyword.kind = k at word
    cases word with
    | print => simpa [statementWith, kind] using accepted
    | println => simpa [statementWith, kind] using accepted
  | @giveBack keyword semicolon us value kind expression semicolonKind =>
    have line := expressionLine_accepts rest expression semicolonKind
      fun u member => values u (by grind)
    have row : keyword :: (us ++ [semicolon]) ++ rest = keyword :: (us ++ semicolon :: rest) := by
      simp
    rw [row]
    simp only [statementWith, peek_bind, List.head?_cons, Option.map_some, kind, skip_bind,
      List.tail_cons]
    exact bind_of_accept line _
  | @assign t equals semicolon us value kind equalsKind expression semicolonKind =>
    have accepted := assignment_accepts rest kind equalsKind expression semicolonKind
      fun u member => values u (by grind)
    simpa [statementWith, kind, equalsKind] using accepted
  | @eval semicolon us value expression semicolonKind =>
    have line := expressionLine_accepts rest expression semicolonKind
      fun u member => values u (by grind)
    have second := expression.second (semicolon :: rest) fun u first => by
      obtain rfl := Option.some.inj first
      simp [semicolonKind]
    rw [List.append_assoc, List.cons_append, List.nil_append]
    obtain ⟨t, us, rfl, starts⟩ := expression.starts
    rw [List.cons_append, List.tail_cons] at second
    rw [List.cons_append, statementWith_of_operand starts second]
    exact bind_of_accept line _

theorem statement_accepts : Accepts statement (Before Statement fun t => t.kind ≠ .elseKeyword) :=
  Accepts.recurse (fun _ => Before Statement fun t => t.kind ≠ .elseKeyword)
    (fun _ _ ih _ => statementWith_accepts (ih ())) ()

theorem program_accepts {ts : List Token} {p : Program} (derived : Statements ts p)
    (values : ∀ t ∈ ts, t.HasValue) : program ts = .accept p [] := by
  have accepts : Accepts program
      fun used p rest => Before Statements (fun _ => True) used p rest ∧ rest = [] := by
    refine Accepts.recurse (fun _ used p rest =>
      Before Statements (fun _ => True) used p rest ∧ rest = []) ?_ ()
    rintro n again ih _ used p rest ⟨short, ⟨statements, values, -⟩, rfl⟩
    cases statements with
    | nil => rfl
    | @cons us vs s p statement statements =>
      rw [List.length_append] at short
      have first : Reader.statement (us ++ vs) = .accept s vs := by
        refine statement_accepts us s vs
          ⟨statement, fun u member => values u (by simp [member]), ?_⟩
        cases statements with
        | nil => simp
        | cons next statements =>
          obtain ⟨t, us', rfl, -, notElse⟩ := next.starts
          intro u member
          obtain rfl := Option.some.inj member
          exact notElse
      obtain ⟨t, us, rfl, -⟩ := statement.starts
      rw [List.length_cons] at short
      have others : again () vs = .accept p [] := by
        have accepted := ih () vs p [] ⟨by omega,
          ⟨statements, fun u member => values u (by simp [member]), by simp⟩, rfl⟩
        rwa [List.append_nil] at accepted
      rw [List.append_nil]
      simp only [List.cons_append, peek_bind, List.head?_cons]
      rw [← List.cons_append, bind_of_accept first, bind_of_accept others]
      rfl
  have accepted := accepts ts p [] ⟨⟨derived, values, by simp⟩, rfl⟩
  rwa [List.append_nil] at accepted

end Reader

end ToraCompiler
