import ToraCompiler.Proofs.Tree.Derivation

/-!
# Expressions without precedence

The levels of the grammar decide how the operators of an expression group.  A phrase forgets them: it says from
which shorter rows a row of tokens is put together, and no more.  Every expression is a phrase
(`Grammar.Expression.phrase`), so what the tokens of an expression have to do with its parts is shown by an
induction on phrases, with one case for each way of building an expression.
-/

namespace ToraCompiler

/-- The operator that a token of the kind stands for, on whatever level. -/
def Kind.operator? (k : Kind) : Option BinaryOp :=
  k.comparison?.or (k.sum?.or k.product?)

theorem Kind.operator?_of_comparison {k : Kind} {op : BinaryOp} (h : k.comparison? = some op) :
    k.operator? = some op := by
  rw [operator?, h, Option.some_or]

theorem Kind.operator?_of_sum {k : Kind} {op : BinaryOp} (h : k.sum? = some op) : k.operator? = some op := by
  cases k <;> cases h <;> rfl

theorem Kind.operator?_of_product {k : Kind} {op : BinaryOp} (h : k.product? = some op) :
    k.operator? = some op := by
  cases k <;> cases h <;> rfl

namespace Grammar

mutual

/-- An expression of a row of tokens, as it may be if operators group in any way.  A number with a minus of its
own may stand for what follows the minus, and then the minus is an operator. -/
inductive Phrase : List Token → Expr → Prop
  | number {t : Token} : t.kind = .number → Phrase [t] (.number t.numberValue)
  | magnitude {t : Token} : t.isNegativeNumber → Phrase [t] (.number t.dropFirst.numberValue)
  | string {t : Token} : t.kind = .string → Phrase [t] (.str t.stringValue)
  | name {t : Token} : t.kind = .identifier → Phrase [t] (.name t.toName)
  | call {t opening closing : Token} {us : List Token} {args : List Expr} :
    t.kind = .identifier → opening.kind = .openParen → Phrases us args → closing.kind = .closeParen →
    Phrase (t :: opening :: (us ++ [closing])) (.call t.toName args)
  | parens {opening closing : Token} {us : List Token} {inner : Expr} :
    opening.kind = .openParen → Phrase us inner → closing.kind = .closeParen →
    Phrase (opening :: (us ++ [closing])) inner
  | list {opening closing : Token} {us : List Token} {items : List Expr} :
    opening.kind = .openBracket → Phrases us items → closing.kind = .closeBracket →
    Phrase (opening :: (us ++ [closing])) (.list items)
  | operation {left right : Expr} {op : BinaryOp} {t : Token} {us vs : List Token} :
    Phrase us left → t.kind.operator? = some op → Phrase vs right →
    Phrase (us ++ t :: vs) (.binary op left right)
  | folded {left right : Expr} {us vs : List Token} :
    Phrase us left → Phrase vs right → Phrase (us ++ vs) (.binary .sub left right)

/-- Phrases with commas between them. -/
inductive Phrases : List Token → List Expr → Prop
  | nil : Phrases [] []
  | comma {t : Token} {us : List Token} {es : List Expr} :
    t.kind = .comma → Phrases us es → Phrases (t :: us) es
  | cons {us vs : List Token} {e : Expr} {es : List Expr} :
    Phrase us e → Phrases vs es → Phrases (us ++ vs) (e :: es)

end

/-! ## Expressions are phrases -/

section

/- The induction is on the length of the row: `below` is what it gives for the expressions inside. -/
variable {n : Nat} (below : ∀ vs e, vs.length < n → Expression vs e → Phrase vs e)

include below

theorem MoreItems.phrases {us : List Token} {es : List Expr} (h : MoreItems Expression us es)
    (short : us.length ≤ n) : Phrases us es := by
  induction h with
  | nil => exact .nil
  | cons comma first _ ih =>
    simp only [List.length_cons, List.length_append] at short
    exact .comma comma (.cons (below _ _ (by omega) first) (ih (by omega)))

theorem Items.phrases {us : List Token} {es : List Expr} (h : Items Expression us es)
    (short : us.length < n) : Phrases us es := by
  cases h with
  | nil => exact .nil
  | cons first more =>
    simp only [List.length_append] at short
    exact .cons (below _ _ (by omega) first) (MoreItems.phrases below more (by omega))

theorem Operand.phrase {us : List Token} {e : Expr} (h : Operand us e) (short : us.length ≤ n) :
    Phrase us e := by
  cases h with
  | number kind => exact .number kind
  | string kind => exact .string kind
  | name kind => exact .name kind
  | call kind opening items closing =>
    simp only [List.length_cons, List.length_append] at short
    exact .call kind opening (Items.phrases below items (by omega)) closing
  | parens opening inner closing =>
    simp only [List.length_cons, List.length_append] at short
    exact .parens opening (below _ _ (by omega) inner) closing
  | list opening items closing =>
    simp only [List.length_cons, List.length_append] at short
    exact .list opening (Items.phrases below items (by omega)) closing

omit below

/-- A chain goes on from a phrase, whatever stands before it. -/
theorem Chain.phrase {operand : List Token → Expr → Prop} {operator? : Kind → Option BinaryOp}
    (operators : ∀ {k op}, operator? k = some op → k.operator? = some op)
    (each : ∀ vs e, vs.length ≤ n → operand vs e → Phrase vs e) {us ws : List Token} {left whole : Expr}
    (h : Chain operand operator? left us whole) (short : us.length ≤ n) (before : Phrase ws left) :
    Phrase (ws ++ us) whole := by
  induction h generalizing ws with
  | nil => simpa using before
  | cons operator right _ ih =>
    simp only [List.length_cons, List.length_append] at short
    simpa using ih (by omega) (.operation before (operators operator) (each _ _ (by omega) right))

include below

theorem Chain.product_phrase {us ws : List Token} {left whole : Expr}
    (h : Chain Operand Kind.product? left us whole) (short : us.length ≤ n) (before : Phrase ws left) :
    Phrase (ws ++ us) whole :=
  Chain.phrase Kind.operator?_of_product (fun _ _ short operand => Operand.phrase below operand short) h short
    before

theorem Product.phrase {us : List Token} {e : Expr} (h : Product us e) (short : us.length ≤ n) :
    Phrase us e := by
  cases h with
  | intro operand chain =>
    simp only [List.length_append] at short
    exact Chain.product_phrase below chain (by omega) (Operand.phrase below operand (by omega))

theorem Terms.phrase {us ws : List Token} {left whole : Expr} (h : Terms left us whole) (short : us.length ≤ n)
    (before : Phrase ws left) : Phrase (ws ++ us) whole := by
  induction k : us.length using Nat.strong_induction_on generalizing us ws left with
  | _ k ih =>
    subst k
    cases h with
    | nil => simpa using before
    | term operator product terms =>
      simp only [List.length_cons, List.length_append] at ih short
      have right := Product.phrase below product (by omega)
      have left := Phrase.operation before (Kind.operator?_of_sum operator) right
      simpa using ih _ (by omega) terms (by omega) left rfl
    | minus negative chain terms =>
      simp only [List.length_cons, List.length_append] at ih short
      have right := Chain.product_phrase below chain (by omega) (.magnitude negative)
      simpa using ih _ (by omega) terms (by omega) (.folded before right) rfl

theorem Sum.phrase {us : List Token} {e : Expr} (h : Sum us e) (short : us.length ≤ n) : Phrase us e := by
  cases h with
  | intro product terms =>
    simp only [List.length_append] at short
    exact Terms.phrase below terms (by omega) (Product.phrase below product (by omega))

end

/-- An expression is a phrase. -/
theorem Expression.phrase {us : List Token} {e : Expr} (h : Expression us e) : Phrase us e := by
  induction k : us.length using Nat.strong_induction_on generalizing us e with
  | _ k ih =>
    subst k
    have below : ∀ vs e, vs.length < us.length → Expression vs e → Phrase vs e :=
      fun vs e shorter inner => ih vs.length shorter inner rfl
    cases h with
    | intro sum chain =>
      exact Chain.phrase Kind.operator?_of_comparison (fun _ _ short sum => Sum.phrase below sum short) chain
        (by simp) (Sum.phrase below sum (by simp))

end Grammar

end ToraCompiler
