import ToraCompiler.Proofs.Tree.Lookahead

/-!
# Recursive readers satisfy their own equations

`Reader.recurse` unrolls a step once more than there are tokens, so a reader and the calls in it are
different unrollings.  If the step takes a token before it calls itself, more unrollings change nothing
(`Reader.Same.unroll`), and the reader is its own step applied to itself (`Reader.recurse_eq`).  The chains
of operators, the terms of a sum and the expressions are such readers.
-/

namespace ToraCompiler.Reader

variable {α β σ : Type}

/-- It does not matter how readers in a row are grouped. -/
instance : LawfulMonad Reader := by
  refine LawfulMonad.mk' Reader ?_ ?_ ?_
  · intro α r
    funext ts
    show andThen r _ ts = r ts
    unfold andThen
    cases r ts <;> rfl
  · intro α β a next
    rfl
  · intro α β γ r next last
    funext ts
    show andThen (andThen r next) last ts = andThen r (fun a => andThen (next a) last) ts
    unfold andThen
    cases r ts <;> rfl

/-- The readers reply alike to rows of fewer than `n` tokens, and they give back no token that they were not
given. -/
structure Same (n : Nat) (r r' : Reader α) : Prop where
  shrinks : Shrinks r
  eq_of_lt : ∀ ts, ts.length < n → r ts = r' ts

/-- The same for the rows that start with `t`. -/
structure SameAt (t : Token) (n : Nat) (r r' : Reader α) : Prop where
  shrinks : Shrinks r
  eq_of_lt : ∀ ts, (t :: ts).length < n → r (t :: ts) = r' (t :: ts)

theorem Same.at {n : Nat} {r r' : Reader α} (h : Same n r r') (t : Token) : SameAt t n r r' :=
  ⟨h.shrinks, fun ts => h.eq_of_lt (t :: ts)⟩

/-- Behind a token that is taken, the rows are shorter. -/
theorem SameAt.skip {n : Nat} {next next' : Unit → Reader β} (h : Same n (next ()) (next' ()))
    (t : Token) : SameAt t (n + 1) (skip >>= next) (skip >>= next') :=
  ⟨fun ts => (h.shrinks ts.tail).trans (List.tail_suffix ts),
    fun ts short => h.eq_of_lt ts (Nat.lt_of_succ_lt_succ short)⟩

theorem SameAt.mono {m n : Nat} {t : Token} {r r' : Reader α} (h : SameAt t n r r') (le : m ≤ n) :
    SameAt t m r r' :=
  ⟨h.shrinks, fun ts short => h.eq_of_lt ts (Nat.lt_of_lt_of_le short le)⟩

namespace Same

/-! ## Ways of building readers -/

theorem mono {m n : Nat} {r r' : Reader α} (h : Same n r r') (le : m ≤ n) : Same m r r' :=
  ⟨h.shrinks, fun ts short => h.eq_of_lt ts (Nat.lt_of_lt_of_le short le)⟩

/-- A reader is the same as itself, if it gives back no new token. -/
theorem of_shrinks (n : Nat) {r : Reader α} (shrinks : Shrinks r) : Same n r r :=
  ⟨shrinks, fun _ _ => rfl⟩

protected theorem pure (n : Nat) (a : α) : Same n (pure a) (pure a) :=
  of_shrinks n fun _ => List.suffix_rfl

protected theorem refuse (n : Nat) (reason : Refusal) :
    Same n (refuse reason : Reader α) (refuse reason) :=
  of_shrinks n fun _ => List.suffix_rfl

theorem bind {n : Nat} {r r' : Reader α} {next next' : α → Reader β} (first : Same n r r')
    (second : ∀ a, Same n (next a) (next' a)) : Same n (r >>= next) (r' >>= next') := by
  refine ⟨fun ts => rest_bind_suffix (first.shrinks ts) fun a => (second a).shrinks, ?_⟩
  intro ts short
  show andThen r next ts = andThen r' next' ts
  unfold andThen
  rw [← first.eq_of_lt ts short]
  have left := (first.shrinks ts).length_le
  cases reply : r ts with
  | accept a rest =>
    rw [reply, Reply.rest_accept] at left
    exact (second a).eq_of_lt rest (by omega)
  | refuse reason rest => rfl

/-- Behind a look at the next token, only rows that start with it matter. -/
theorem peek {n : Nat} {next next' : Option Token → Reader β} (ended : Same n (next none) (next' none))
    (h : ∀ t, SameAt t n (next (some t)) (next' (some t))) :
    Same n (peek >>= next) (peek >>= next') := by
  refine ⟨fun ts => ?_, fun ts short => ?_⟩
  · cases ts with
    | nil => exact ended.shrinks []
    | cons t ts => exact (h t).shrinks (t :: ts)
  · cases ts with
    | nil => exact ended.eq_of_lt [] short
    | cons t ts => exact (h t).eq_of_lt ts short

theorem isNext {n : Nat} (kind : Kind) {next next' : Bool → Reader β}
    (no : Same n (next false) (next' false)) (yes : ∀ t, SameAt t n (next true) (next' true)) :
    Same n (isNext kind >>= next) (isNext kind >>= next') := by
  refine ⟨fun ts => ?_, fun ts short => ?_⟩
  · rw [isNext_bind]
    cases ts with
    | nil => exact no.shrinks []
    | cons t ts =>
      cases (t :: ts).head?.any (·.kind = kind) with
      | false => exact no.shrinks (t :: ts)
      | true => exact (yes t).shrinks (t :: ts)
  · rw [isNext_bind, isNext_bind]
    cases ts with
    | nil => exact no.eq_of_lt [] short
    | cons t ts =>
      cases (t :: ts).head?.any (·.kind = kind) with
      | false => exact no.eq_of_lt (t :: ts) short
      | true => exact (yes t).eq_of_lt ts short

/-- Of two unrollings of a step, the shorter one decides how far they agree. -/
theorem unroll {n : Nat} {f f' : (σ → Reader α) → σ → Reader α}
    (step : ∀ k (again again' : σ → Reader α), (∀ s, Same k (again s) (again' s)) →
      ∀ s, Same (min n (k + 1)) (f again s) (f' again' s)) :
    ∀ a b s, Same (min n (min a b)) (unroll f a s) (unroll f' b s) := by
  intro a
  induction a with
  | zero =>
    intro b s
    exact ⟨fun _ => List.suffix_rfl, fun ts short => by omega⟩
  | succ a ih =>
    intro b s
    cases b with
    | zero => exact ⟨(step _ _ _ (ih 0) s).shrinks, fun ts short => by omega⟩
    | succ b => exact (step _ _ _ (ih b) s).mono (by omega)

/-- Readers that may call themselves are the same if their steps are, on rows of one token more than the
calls. -/
theorem recurse {n : Nat} {f f' : (σ → Reader α) → σ → Reader α}
    (step : ∀ k (again again' : σ → Reader α), (∀ s, Same k (again s) (again' s)) →
      ∀ s, Same (min n (k + 1)) (f again s) (f' again' s)) (s : σ) :
    Same n (recurse f s) (recurse f' s) := by
  refine ⟨fun ts => (unroll step _ 0 s).shrinks ts, fun ts short => ?_⟩
  exact (unroll step (ts.length + 1) (ts.length + 1) s).eq_of_lt ts (by omega)

end Same

/-- A reader that calls itself on fewer tokens is its own step. -/
theorem recurse_eq {f : (σ → Reader α) → σ → Reader α}
    (step : ∀ k (again again' : σ → Reader α), (∀ s, Same k (again s) (again' s)) →
      ∀ s, Same (k + 1) (f again s) (f again' s)) (s : σ) (ts : List Token) :
    recurse f s ts = f (recurse f) s ts := by
  have unrolled : ∀ a b s, Same (min (a + b) (min a b)) (unroll f a s) (unroll f b s) := fun a b =>
    Same.unroll (fun k again again' ih s => (step k again again' ih s).mono (by omega)) a b
  have calls : ∀ s, Same ts.length (unroll f ts.length s) (recurse f s) := by
    intro s
    refine ⟨(unrolled _ 0 s).shrinks, fun us short => ?_⟩
    exact (unrolled ts.length (us.length + 1) s).eq_of_lt us (by omega)
  exact (step ts.length _ _ calls s).eq_of_lt ts (Nat.lt_succ_self _)

/-! ## Expressions -/

/-- One operator with its operand, after the operand `left`, and then `again`. -/
def operationStep (operand : Reader Expr) (operator? : Kind → Option BinaryOp)
    (again : Expr → Reader Expr) (left : Expr) : Reader Expr := do
  let next ← peek
  match next.bind fun t => operator? t.kind with
  | none => return left
  | some op =>
    skip
    let right ← operand
    again (.binary op left right)

theorem operations_eq_recurse (operand : Reader Expr) (operator? : Kind → Option BinaryOp) :
    operations operand operator? = recurse (operationStep operand operator?) := rfl

/-- An operation has an operator of its own before its operand and the operations behind it. -/
theorem operationStep_same {k n : Nat} {next next' : Reader Expr} {again again' : Expr → Reader Expr}
    (inner : Same n next next') (calls : ∀ s, Same k (again s) (again' s))
    (operator? : Kind → Option BinaryOp) (left : Expr) :
    Same (min n (k + 1)) (operationStep next operator? again left)
      (operationStep next' operator? again' left) := by
  refine .peek (.pure _ left) fun t => ?_
  rw [Option.bind_some]
  cases operator? t.kind with
  | none => exact (Same.pure _ left).at t
  | some op =>
    have more : Same (min n k) (next >>= fun right => again (.binary op left right))
        (next' >>= fun right => again' (.binary op left right)) :=
      (inner.mono (by omega)).bind fun right => (calls _).mono (by omega)
    exact (SameAt.skip more t).mono (by omega)

theorem operations_same {n : Nat} {next next' : Reader Expr} (inner : Same n next next')
    (operator? : Kind → Option BinaryOp) (left : Expr) :
    Same n (operations next operator? left) (operations next' operator? left) :=
  Same.recurse (fun _ _ _ ih left => operationStep_same inner ih operator? left) left

/-- In front of a token that is no operator, or of nothing, there are no operations. -/
theorem operations_of_ends (next : Reader Expr) {operator? : Kind → Option BinaryOp} {ts : List Token}
    (ends : ∀ t ∈ ts.head?, operator? t.kind = none) (left : Expr) :
    operations next operator? left ts = .accept left ts := by
  show operationStep next operator? _ left ts = _
  cases ts with
  | nil => rfl
  | cons t ts =>
    simp only [operationStep, peek_bind, List.head?_cons, Option.bind_some, ends t rfl, pure_apply]

/-- Behind an operator come its operand and the other operations. -/
theorem operations_cons {next : Reader Expr} (shrinks : Shrinks next) {operator? : Kind → Option BinaryOp}
    {t : Token} {op : BinaryOp} (operator : operator? t.kind = some op) (left : Expr) (ts : List Token) :
    operations next operator? left (t :: ts) =
      (next >>= fun right => operations next operator? (.binary op left right)) ts := by
  have unfolded := recurse_eq (f := operationStep next operator?) (fun k _ _ ih left =>
    (operationStep_same (.of_shrinks (k + 1) shrinks) ih operator? left).mono (by omega)) left (t :: ts)
  rw [operations_eq_recurse, unfolded]
  simp only [operationStep, peek_bind, List.head?_cons, Option.bind_some, operator, skip_bind,
    List.tail_cons]

theorem moreItems_same {n : Nat} {item item' : Reader α} (inner : Same n item item') :
    Same n (moreItems item) (moreItems item') := by
  refine Same.recurse (fun k again again' ih _ => .isNext _ (.pure _ []) fun t => ?_) ()
  have more : Same (min n k)
      (item >>= fun first => again () >>= fun rest => pure (first :: rest))
      (item' >>= fun first => again' () >>= fun rest => pure (first :: rest)) :=
    (inner.mono (by omega)).bind fun _ => ((ih ()).mono (by omega)).bind fun _ => .pure _ _
  exact (SameAt.skip more t).mono (by omega)

theorem itemsUntil_same {n : Nat} {item item' : Reader α} (inner : Same n item item') (close : Kind) :
    Same n (itemsUntil close item) (itemsUntil close item') := by
  refine .isNext _ ?_ fun t => (SameAt.skip (.pure n []) t).mono (Nat.le_succ n)
  exact inner.bind fun _ => (moreItems_same inner).bind fun _ =>
    (Same.of_shrinks n (Local.expect n close).shrinks).bind fun _ => .pure n _

/-- An operand has a token of its own before the expressions in it. -/
theorem operand_same {n : Nat} {inner inner' : Reader Expr} (h : Same n inner inner') :
    Same (n + 1) (operand inner) (operand inner') := by
  refine .peek (.refuse _ _) fun t => ?_
  cases kind : t.kind
  case number =>
    simp only [kind]
    exact .skip (.of_shrinks n (literal_local n t).shrinks) t
  case string =>
    simp only [kind]
    refine .skip ?_ t
    exact .pure n _
  case identifier =>
    simp only [kind]
    refine .skip ?_ t
    refine .isNext _ ?_ fun u => ?_
    · exact .pure n _
    · exact (SameAt.skip ((itemsUntil_same h _).bind fun _ => .pure n _) u).mono (Nat.le_succ n)
  case openParen =>
    simp only [kind]
    exact .skip (h.bind fun _ => (Same.of_shrinks n (Local.expect n _).shrinks).bind fun _ => .pure n _) t
  case openBracket =>
    simp only [kind]
    exact .skip ((itemsUntil_same h _).bind fun _ => .pure n _) t
  all_goals
    simp only [kind]
    exact (Same.refuse _ _).at t

theorem product_same {n : Nat} {inner inner' : Reader Expr} (h : Same n inner inner') :
    Same (n + 1) (product inner) (product inner') :=
  (operand_same h).bind fun first => operations_same (operand_same h) _ first

/-- One term of a sum, after the sum `left`, and then `again`. -/
def termStep (expression : Reader Expr) (again : Expr → Reader Expr) (left : Expr) : Reader Expr := do
  match ← peek with
  | none => return left
  | some t =>
    match t.kind.sum? with
    | some op =>
      skip
      let right ← product expression
      again (.binary op left right)
    | none =>
      if t.isNegativeNumber then
        skip
        let first ← literal t.dropFirst
        let right ← operations (operand expression) Kind.product? first
        again (.binary .sub left right)
      else return left

/-- A term has an operator of its own before its operands and the terms behind it. -/
theorem termStep_same {k n : Nat} {inner inner' : Reader Expr} {again again' : Expr → Reader Expr}
    (h : Same n inner inner') (calls : ∀ s, Same k (again s) (again' s)) (left : Expr) :
    Same (min (n + 1) (k + 1)) (termStep inner again left) (termStep inner' again' left) := by
  refine .peek (.pure _ left) fun t => ?_
  have goesOn : ∀ {r r' : Reader Expr} (whole : Expr → Expr), Same (n + 1) r r' →
      Same (min (n + 1) k) (r >>= fun right => again (whole right))
        (r' >>= fun right => again' (whole right)) := fun whole first =>
    (first.mono (by omega)).bind fun right => (calls _).mono (by omega)
  cases operator : t.kind.sum? with
  | some op =>
    simp only [operator]
    exact (SameAt.skip (goesOn (.binary op left) (product_same h)) t).mono (by omega)
  | none =>
    simp only [operator]
    split
    · refine (SameAt.skip (n := min (n + 1) k) ?_ t).mono (by omega)
      exact (Same.of_shrinks _ (literal_local 0 _).shrinks).bind fun first =>
        goesOn (.binary .sub left) (operations_same (operand_same h) _ first)
    · exact (Same.pure _ left).at t

theorem moreTerms_same {n : Nat} {inner inner' : Reader Expr} (h : Same n inner inner') (left : Expr) :
    Same (n + 1) (moreTerms inner left) (moreTerms inner' left) :=
  Same.recurse (fun _ _ _ ih left => termStep_same h ih left) left

/-- In front of a token that starts no term, or of nothing, there are no terms. -/
theorem moreTerms_of_ends (inner : Reader Expr) {ts : List Token}
    (ends : ∀ t ∈ ts.head?, t.kind.sum? = none ∧ ¬ t.isNegativeNumber) (left : Expr) :
    moreTerms inner left ts = .accept left ts := by
  show termStep inner _ left ts = _
  cases ts with
  | nil => rfl
  | cons t ts =>
    have notTerm := ends t rfl
    simp only [termStep, peek_bind, List.head?_cons, notTerm.1, if_neg notTerm.2, pure_apply]

theorem moreTerms_unfold {inner : Reader Expr} (shrinks : Shrinks inner) (left : Expr)
    (ts : List Token) : moreTerms inner left ts = termStep inner (moreTerms inner) left ts :=
  recurse_eq (fun k _ _ ih left => (termStep_same (.of_shrinks k shrinks) ih left).mono (by omega)) left ts

/-- Behind an operator of a sum come its product and the other terms. -/
theorem moreTerms_cons {inner : Reader Expr} (shrinks : Shrinks inner) {t : Token} {op : BinaryOp}
    (operator : t.kind.sum? = some op) (left : Expr) (ts : List Token) :
    moreTerms inner left (t :: ts) =
      (product inner >>= fun right => moreTerms inner (.binary op left right)) ts := by
  rw [moreTerms_unfold shrinks]
  simp only [termStep, peek_bind, List.head?_cons, operator, skip_bind, List.tail_cons]

/-- A number with a minus of its own starts the product that is subtracted. -/
theorem moreTerms_cons_minus {inner : Reader Expr} (shrinks : Shrinks inner) {t : Token}
    (negative : t.isNegativeNumber) (left : Expr) (ts : List Token) :
    moreTerms inner left (t :: ts) =
      (literal t.dropFirst >>= operations (operand inner) Kind.product? >>= fun right =>
        moreTerms inner (.binary .sub left right)) ts := by
  have notTerm : t.kind.sum? = none := by
    rw [negative.1]
    rfl
  rw [moreTerms_unfold shrinks, bind_assoc]
  simp only [termStep, peek_bind, List.head?_cons, notTerm, if_pos negative, skip_bind, List.tail_cons]

theorem sum_same {n : Nat} {inner inner' : Reader Expr} (h : Same n inner inner') :
    Same (n + 1) (sum inner) (sum inner') :=
  (product_same h).bind fun first => moreTerms_same h first

theorem comparison_same {n : Nat} {inner inner' : Reader Expr} (h : Same n inner inner') :
    Same (n + 1) (comparison inner) (comparison inner') :=
  (sum_same h).bind fun first => operations_same (sum_same h) _ first

theorem expression_shrinks : Shrinks expression :=
  (expression_local 0).shrinks

/-- An expression is a comparison of sums of products of operands, and the operands hold expressions. -/
theorem expression_eq (ts : List Token) : expression ts = comparison expression ts :=
  recurse_eq (fun _ _ _ ih _ => comparison_same (ih ())) () ts

end ToraCompiler.Reader
