import ToraCompiler.Proofs.Tree.Unfolding

/-!
# Expressions that are taken up again

What becomes of a row that is accepted when more tokens are put behind it.  Readers that leave a token of the
row are not concerned (`Reader.Local.accept_append`).  A product that ends the row ends there still, unless the
new tokens call it or go on with a factor (`Reader.product_keeps`).  A sum at the end goes on with the new
tokens from where it stopped, whatever comparisons stand before it (`Reader.expression_resumes`).
-/

namespace ToraCompiler

/-- A value that leaves a token of the row is the same whatever follows. -/
theorem Reply.Agrees.eq_accept {α : Type} {later later' left : List Token} {a : α} {reply' : Reply α}
    (agrees : Agrees later later' (.accept a (left ++ later)) reply') (leaves : left ≠ []) :
    reply' = .accept a (left ++ later') := by
  generalize row : left ++ later = rest at agrees
  cases agrees with
  | accept _ _ =>
    obtain rfl := List.append_cancel_right row
    rfl
  | beyond used =>
    have shorter := used.length_le
    have := List.length_pos_iff.2 leaves
    rw [Reply.rest_accept, ← row, List.length_append] at shorter
    omega

namespace Reader

variable {α β σ : Type}

/-- Readers that reply alike may be exchanged in front of the same reader. -/
theorem bind_congr_left {r r' : Reader α} {ts ts' : List Token} (same : r ts = r' ts')
    (next : α → Reader β) : (r >>= next) ts = (r' >>= next) ts' := by
  show andThen r next ts = andThen r' next ts'
  unfold andThen
  rw [same]

/-! ## Rows with more behind them -/

/-- A row that the first reader accepts is accepted by the second one with more tokens behind it, as long as
these start with a token that ends the row. -/
def Keeps (ends : Token → Prop) (r r' : Reader α) : Prop :=
  ∀ ts a rest, r ts = .accept a rest →
    ∀ x, ends x → ∀ later, r' (ts ++ x :: later) = .accept a (rest ++ x :: later)

/-- A reader that leaves a token of a row accepts the row alike whatever follows it. -/
theorem Local.accept_before {n : Nat} {r r' : Reader α} (h : Local n r r') {ts left later : List Token}
    {a : α} (short : ts.length ≤ n) (accepted : r (ts ++ later) = .accept a (left ++ later))
    (leaves : left ≠ []) (later' : List Token) : r' (ts ++ later') = .accept a (left ++ later') := by
  have shrinks := (h.shrinks (ts ++ later)).length_le
  have some := List.length_pos_iff.2 leaves
  rw [accepted, Reply.rest_accept, List.length_append, List.length_append] at shrinks
  have nonempty : ts ≠ [] := List.length_pos_iff.1 (by omega)
  have agrees := h.agrees ts later later' nonempty short
  rw [accepted] at agrees
  exact agrees.eq_accept leaves

/-- What is put behind a row is left, if a token of the row is. -/
theorem Local.accept_append {n : Nat} {r r' : Reader α} (h : Local n r r') {ts rest : List Token} {a : α}
    (short : ts.length ≤ n) (accepted : r ts = .accept a rest) (leaves : rest ≠ []) (later : List Token) :
    r' (ts ++ later) = .accept a (rest ++ later) := by
  have ended : r (ts ++ []) = .accept a (rest ++ []) := by
    rw [List.append_nil, List.append_nil, accepted]
  exact h.accept_before short ended leaves later

namespace Keeps

protected theorem pure (a : α) (ends : Token → Prop) : Keeps ends (pure a) (pure a) := by
  intro ts b rest accepted x _ later
  cases accepted
  rfl

theorem bind {ends : Token → Prop} {r r' : Reader α} {next next' : α → Reader β} (first : Keeps ends r r')
    (second : ∀ a, Keeps ends (next a) (next' a)) : Keeps ends (r >>= next) (r' >>= next') := by
  intro ts b rest accepted x isEnd later
  obtain ⟨a, middle, readFirst, readSecond⟩ := bind_eq_accept_iff.1 accepted
  rw [bind_of_accept (first ts a middle readFirst x isEnd later)]
  exact second a middle b rest readSecond x isEnd later

/-- Of two unrollings, the longer one accepts with more behind it what the shorter one accepts. -/
theorem recurse {ends : Token → Prop} {f : (σ → Reader α) → σ → Reader α}
    (step : ∀ again again' : σ → Reader α, (∀ s, Keeps ends (again s) (again' s)) →
      ∀ s, Keeps ends (f again s) (f again' s)) (s : σ) :
    Keeps ends (recurse f s) (recurse f s) := by
  have unrolled : ∀ a b, a ≤ b → ∀ s, Keeps ends (unroll f a s) (unroll f b s) := by
    intro a
    induction a with
    | zero =>
      intro b _ s ts c rest accepted
      cases accepted
    | succ a ih =>
      intro b le
      cases b with
      | zero => omega
      | succ b => exact step _ _ (ih b (by omega))
  intro ts a rest accepted x isEnd later
  refine unrolled (ts.length + 1) _ ?_ s ts a rest accepted x isEnd later
  rw [List.length_append]
  omega

end Keeps

/-- What stands before a closing token does not depend on what stands behind it. -/
theorem closed_keeps {r : Reader α} (inner : ∀ n, Local n r r) (close : Kind) (whole : α → β)
    (ends : Token → Prop) :
    Keeps ends (do let a ← r; let _ ← expect close; return whole a)
      (do let a ← r; let _ ← expect close; return whole a) := by
  intro ts b rest accepted x _ later
  obtain ⟨a, middle, readInner, accepted⟩ := bind_eq_accept_iff.1 accepted
  obtain ⟨t, left, closing, finished⟩ := bind_eq_accept_iff.1 accepted
  obtain ⟨rfl, kind⟩ := expect_eq_accept_iff.1 closing
  cases finished
  rw [bind_of_accept ((inner _).accept_append (Nat.le_refl _) readInner (List.cons_ne_nil _ _) (x :: later)),
    List.cons_append, expect_bind kind]
  rfl

/-- A row with a closing token at its end is not empty. -/
theorem closed_takes {r : Reader α} (shrinks : Shrinks r) (close : Kind) (whole : α → β) :
    Takes (do let a ← r; let _ ← expect close; return whole a) := by
  intro ts b rest accepted
  obtain ⟨a, middle, readInner, accepted⟩ := bind_eq_accept_iff.1 accepted
  obtain ⟨t, left, closing, finished⟩ := bind_eq_accept_iff.1 accepted
  obtain ⟨rfl, -⟩ := expect_eq_accept_iff.1 closing
  cases finished
  have shorter := (shrinks ts).length_le
  rw [readInner, Reply.rest_accept, List.length_cons] at shorter
  omega

theorem itemsUntil_keeps {item : Reader α} (inner : ∀ n, Local n item item) (close : Kind)
    (ends : Token → Prop) : Keeps ends (itemsUntil close item) (itemsUntil close item) := by
  intro ts as rest accepted x isEnd later
  have listed : ∀ n, Local n (do let first ← item; let rest ← moreItems item; return first :: rest)
      (do let first ← item; let rest ← moreItems item; return first :: rest) := fun n =>
    (inner n).bind fun _ => (moreItems_local (inner n)).bind fun _ => .pure n _
  have closed := closed_keeps listed close id ends
  have takes := closed_takes (listed 0).shrinks close id
  simp only [bind_assoc, pure_bind, id_eq] at closed takes
  unfold itemsUntil at accepted ⊢
  rw [isNext_bind] at accepted ⊢
  cases ts with
  | nil => exact absurd (takes [] as rest accepted) (Nat.not_lt_zero _)
  | cons t ts =>
    by_cases isClose : t.kind = close
    · rw [isNext_of_kind isClose] at accepted
      rw [List.cons_append, isNext_of_kind isClose]
      cases accepted
      rfl
    · have notNext : ∀ us : List Token, (t :: us).head?.any (·.kind = close) = false := fun us =>
        isNext_of_ends (by simpa using isClose)
      rw [notNext] at accepted
      have read := closed (t :: ts) as rest accepted x isEnd later
      rw [List.cons_append] at read ⊢
      rw [notNext]
      exact read

theorem literal_keeps (t : Token) (ends : Token → Prop) : Keeps ends (literal t) (literal t) := by
  intro ts e rest accepted x _ later
  unfold literal at accepted ⊢
  cases denoted : Number.ofLiteral? t.text with
  | none =>
    rw [denoted] at accepted
    cases accepted
  | some value =>
    rw [denoted] at accepted
    cases accepted
    rfl

/-- An operand ends where it ended before, unless it is a name and becomes a call. -/
theorem operand_keeps : Keeps Token.EndsProduct (operand expression) (operand expression) := by
  intro ts e rest accepted x ends later
  cases ts with
  | nil => cases accepted
  | cons t ts =>
    unfold operand at accepted ⊢
    rw [List.cons_append]
    rw [peek_bind, List.head?_cons] at accepted ⊢
    cases kind : t.kind
    case number =>
      simp only [kind, skip_bind, List.tail_cons] at accepted ⊢
      exact literal_keeps t _ ts e rest accepted x ends later
    case string =>
      simp only [kind, skip_bind, List.tail_cons] at accepted ⊢
      cases accepted
      rfl
    case identifier =>
      simp only [kind, skip_bind, List.tail_cons, isNext_bind] at accepted ⊢
      cases ts with
      | nil =>
        cases accepted
        have notCalled : (x :: later).head?.any (·.kind = .openParen) = false :=
          isNext_of_ends (by simpa using ends.notCall)
        rw [List.nil_append, notCalled]
        rfl
      | cons u us =>
        rw [List.cons_append]
        rw [List.head?_cons] at accepted ⊢
        split at accepted
        · next called =>
          rw [if_pos called, skip_bind, List.tail_cons]
          have keeps := (itemsUntil_keeps expression_local .closeParen Token.EndsProduct).bind
            fun args => (Keeps.pure (Expr.call t.toName args) Token.EndsProduct)
          exact keeps us e rest accepted x ends later
        · next plain =>
          rw [if_neg plain]
          cases accepted
          rfl
    case openParen =>
      simp only [kind, skip_bind, List.tail_cons] at accepted ⊢
      exact closed_keeps expression_local .closeParen id _ ts e rest accepted x ends later
    case openBracket =>
      simp only [kind, skip_bind, List.tail_cons] at accepted ⊢
      have keeps := (itemsUntil_keeps expression_local .closeBracket Token.EndsProduct).bind
        fun items => (Keeps.pure (Expr.list items) Token.EndsProduct)
      exact keeps ts e rest accepted x ends later
    all_goals
      simp only [kind] at accepted
      cases accepted

theorem operations_keeps {ends : Token → Prop} {next : Reader Expr} {operator? : Kind → Option BinaryOp}
    (inner : Keeps ends next next) (stops : ∀ x, ends x → operator? x.kind = none) (left : Expr) :
    Keeps ends (operations next operator? left) (operations next operator? left) := by
  refine Keeps.recurse (f := operationStep next operator?) (fun again again' ih left => ?_) left
  intro ts e rest accepted x isEnd later
  cases ts with
  | nil =>
    cases accepted
    simp only [operationStep, List.nil_append, peek_bind, List.head?_cons, Option.bind_some,
      stops x isEnd, pure_apply]
  | cons t ts =>
    cases operator : operator? t.kind with
    | none =>
      simp only [operationStep, List.cons_append, peek_bind, List.head?_cons, Option.bind_some, operator,
        pure_apply] at accepted ⊢
      cases accepted
      rfl
    | some op =>
      simp only [operationStep, List.cons_append, peek_bind, List.head?_cons, Option.bind_some, operator,
        skip_bind, List.tail_cons] at accepted ⊢
      exact (inner.bind fun right => ih _) ts e rest accepted x isEnd later

theorem factors_keep (first : Expr) : Keeps Token.EndsProduct
    (operations (operand expression) Kind.product? first)
    (operations (operand expression) Kind.product? first) :=
  operations_keeps operand_keeps (fun _ ends => ends.notFactor) first

theorem product_keeps : Keeps Token.EndsProduct (product expression) (product expression) :=
  operand_keeps.bind factors_keep

/-! ## Sums that go on -/

/-- The terms of a sum that end a row are taken up again where they stopped. -/
theorem moreTerms_resumes {left e : Expr} {ts : List Token}
    (accepted : moreTerms expression left ts = .accept e []) {x : Token} (ends : x.EndsProduct)
    (later : List Token) :
    moreTerms expression left (ts ++ x :: later) = moreTerms expression e (x :: later) := by
  induction n : ts.length using Nat.strong_induction_on generalizing left ts with
  | _ n ih =>
    subst n
    cases ts with
    | nil =>
      rw [moreTerms_of_ends expression (by simp)] at accepted
      cases accepted
      rfl
    | cons t ts =>
      have goesOn : ∀ {r : Reader Expr} (whole : Expr → Expr), Keeps Token.EndsProduct r r → Shrinks r →
          (r >>= fun right => moreTerms expression (whole right)) ts = .accept e [] →
          (r >>= fun right => moreTerms expression (whole right)) (ts ++ x :: later) =
            moreTerms expression e (x :: later) := by
        intro r whole keeps shrinks accepted
        obtain ⟨right, rest, readRight, readRest⟩ := bind_eq_accept_iff.1 accepted
        have shorter := (shrinks ts).length_le
        rw [readRight, Reply.rest_accept] at shorter
        rw [bind_of_accept (keeps ts right rest readRight x ends later)]
        exact ih rest.length (by rw [List.length_cons]; omega) readRest rfl
      rw [List.cons_append]
      by_cases negative : t.isNegativeNumber
      · rw [moreTerms_cons_minus expression_shrinks negative] at accepted ⊢
        have shrinks := ((literal_local 1 t.dropFirst).bind fun first =>
          operations_local (operand_local (expression_local 0)) Kind.product? first).shrinks
        exact goesOn _ ((literal_keeps t.dropFirst _).bind factors_keep) shrinks accepted
      · cases operator : t.kind.sum? with
        | some op =>
          rw [moreTerms_cons expression_shrinks operator] at accepted ⊢
          exact goesOn _ product_keeps (product_local (expression_local 0)).shrinks accepted
        | none =>
          rw [moreTerms_of_ends expression (by simpa using ⟨operator, negative⟩)] at accepted
          cases accepted

theorem sum_resumes {e : Expr} {ts : List Token} (accepted : sum expression ts = .accept e [])
    {x : Token} (ends : x.EndsProduct) (later : List Token) :
    sum expression (ts ++ x :: later) = moreTerms expression e (x :: later) := by
  obtain ⟨first, rest, readFirst, readRest⟩ := bind_eq_accept_iff.1 accepted
  unfold sum
  rw [bind_of_accept (product_keeps ts first rest readFirst x ends later)]
  exact moreTerms_resumes readRest ends later

/-- A row of comparisons that ends a row is taken up again in its last sum.  The part before that sum only
shows in what becomes of it. -/
theorem comparisons_resume (whole : Expr → Expr) {e : Expr} {ts : List Token}
    (accepted : (sum expression >>= fun first =>
      operations (sum expression) Kind.comparison? (whole first)) ts = .accept e []) :
    ∃ (last : Expr) (whole' : Expr → Expr), ∀ x : Token, x.EndsProduct → ∀ later,
      (sum expression >>= fun first =>
        operations (sum expression) Kind.comparison? (whole first)) (ts ++ x :: later) =
      (moreTerms expression last >>= fun first =>
        operations (sum expression) Kind.comparison? (whole' first)) (x :: later) := by
  have sumLocal : ∀ n, Local n (sum expression) (sum expression) := fun n =>
    (sum_local (expression_local n)).mono (Nat.le_succ n)
  induction n : ts.length using Nat.strong_induction_on generalizing whole ts with
  | _ n ih =>
    subst n
    obtain ⟨first, rest, readFirst, readRest⟩ := bind_eq_accept_iff.1 accepted
    cases rest with
    | nil =>
      refine ⟨first, whole, fun x ends later => ?_⟩
      exact bind_congr_left (sum_resumes readFirst ends later) _
    | cons t rest =>
      cases operator : Kind.comparison? t.kind with
      | none =>
        rw [operations_of_ends _ (by simpa using operator)] at readRest
        cases readRest
      | some op =>
        have shorter := ((sumLocal 0).shrinks ts).length_le
        rw [readFirst, Reply.rest_accept, List.length_cons] at shorter
        rw [operations_cons (sumLocal 0).shrinks operator] at readRest
        obtain ⟨last, whole', resumes⟩ := ih rest.length (by omega) _ readRest rfl
        refine ⟨last, whole', fun x ends later => ?_⟩
        rw [bind_of_accept ((sumLocal _).accept_append (Nat.le_refl _) readFirst (List.cons_ne_nil _ _) _),
          List.cons_append, operations_cons (sumLocal 0).shrinks operator]
        exact resumes x ends later

/-- An expression that ends a row is taken up again in its last sum. -/
theorem expression_resumes {e : Expr} {ts : List Token} (accepted : expression ts = .accept e []) :
    ∃ (last : Expr) (whole : Expr → Expr), ∀ x : Token, x.EndsProduct → ∀ later,
      expression (ts ++ x :: later) =
      (moreTerms expression last >>= fun first =>
        operations (sum expression) Kind.comparison? (whole first)) (x :: later) := by
  rw [expression_eq] at accepted
  obtain ⟨last, whole, resumes⟩ := comparisons_resume id accepted
  refine ⟨last, whole, fun x ends later => ?_⟩
  rw [expression_eq]
  exact resumes x ends later

end Reader

end ToraCompiler
