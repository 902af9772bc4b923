import ToraCompiler.Proofs.Tree.Completeness
import ToraCompiler.Proofs.Tree.Soundness

/-!
# How far readers look ahead

A reader looks at the tokens that it takes and at the one behind them, and no further: as long as it leaves a
token of a row, its reply does not depend on what follows the row (`Reader.Local`).  The relation is between
two readers, because a reader that may call itself is unrolled as often as there are tokens, and rows of
different lengths are read by different unrollings.  The number in it bounds the length of the row; a step
that takes a token before it calls itself reaches one token further than the calls (`Reader.Local.recurse`).

One place looks at a second token: an assignment is told from an expression by the token behind its name.
There the name itself is taken whatever follows (`Reader.expression_takes_identifier`).
-/

namespace ToraCompiler

/-- The tokens that a reply leaves. -/
def Reply.rest {α : Type} : Reply α → List Token
  | .accept _ rest => rest
  | .refuse _ rest => rest

@[simp]
theorem Reply.rest_accept {α : Type} (a : α) (ts : List Token) : (Reply.accept a ts).rest = ts := rfl

@[simp]
theorem Reply.rest_refuse {α : Type} (reason : Refusal) (ts : List Token) :
    (Reply.refuse reason ts : Reply α).rest = ts := rfl

/-- What a reply to a row with `later` behind it says about the reply to the row with `later'` behind it: it
is the same if a token of the row is left, and may be anything if none is. -/
inductive Reply.Agrees {α : Type} (later later' : List Token) : Reply α → Reply α → Prop
  | accept (a : α) {left : List Token} :
    left ≠ [] → Agrees later later' (.accept a (left ++ later)) (.accept a (left ++ later'))
  | refuse (reason : Refusal) {left : List Token} :
    left ≠ [] → Agrees later later' (.refuse reason (left ++ later)) (.refuse reason (left ++ later'))
  | beyond {reply reply' : Reply α} : reply.rest <:+ later → Agrees later later' reply reply'

/-- A refusal that leaves a token of the row is the same whatever follows. -/
theorem Reply.Agrees.eq_refuse {α : Type} {later later' left : List Token} {reason : Refusal}
    {reply' : Reply α} (agrees : Agrees later later' (.refuse reason (left ++ later)) reply')
    (leaves : left ≠ []) : reply' = .refuse reason (left ++ later') := by
  generalize row : left ++ later = rest at agrees
  cases agrees with
  | refuse _ _ =>
    obtain rfl := List.append_cancel_right row
    rfl
  | beyond used =>
    have shorter := used.length_le
    have := List.length_pos_iff.2 leaves
    rw [Reply.rest_refuse, ← row, List.length_append] at shorter
    omega

namespace Reader

open Grammar

variable {α β σ : Type}

/-- The reader gives back no token that it was not given. -/
def Shrinks (r : Reader α) : Prop :=
  ∀ ts, (r ts).rest <:+ ts

/-- The reader takes a token of every row that it accepts. -/
def Takes (r : Reader α) : Prop :=
  ∀ ts a rest, r ts = .accept a rest → rest.length < ts.length

/-- A reader that is sound for a relation without the empty row takes a token. -/
theorem Sound.takes {r : Reader α} {related : List Token → α → Prop} (sound : Sound r related)
    (nonempty : ∀ us a, related us a → us ≠ []) : Takes r := by
  intro ts a rest accepted
  obtain ⟨used, rfl, derived⟩ := sound ts a rest accepted
  have := List.length_pos_iff.2 (nonempty used a derived)
  rw [List.length_append]
  omega

/-- What is left after two readers is left after the first one. -/
theorem rest_bind_suffix {r : Reader α} {next : α → Reader β} {ts left : List Token}
    (first : (r ts).rest <:+ left) (second : ∀ a, Shrinks (next a)) :
    ((r >>= next) ts).rest <:+ left := by
  show (andThen r next ts).rest <:+ left
  unfold andThen
  cases reply : r ts with
  | accept a rest =>
    rw [reply] at first
    exact (second a rest).trans first
  | refuse reason rest =>
    rw [reply] at first
    exact first

/-- The readers reply alike to rows of at most `n` tokens with anything behind them, as long as they leave a
token of the row. -/
structure Local (n : Nat) (r r' : Reader α) : Prop where
  shrinks : Shrinks r
  agrees : ∀ row later later', row ≠ [] → row.length ≤ n →
    (r (row ++ later)).Agrees later later' (r' (row ++ later'))

/-- The same for the rows that start with `t`. -/
structure LocalAt (t : Token) (n : Nat) (r r' : Reader α) : Prop where
  shrinks : Shrinks r
  agrees : ∀ row later later', (t :: row).length ≤ n →
    (r (t :: row ++ later)).Agrees later later' (r' (t :: row ++ later'))

theorem Local.at {n : Nat} {r r' : Reader α} (h : Local n r r') (t : Token) : LocalAt t n r r' :=
  ⟨h.shrinks, fun row later later' short => h.agrees (t :: row) later later' (List.cons_ne_nil _ _) short⟩

namespace Local

/-! ## Ways of building readers -/

theorem mono {m n : Nat} {r r' : Reader α} (h : Local n r r') (le : m ≤ n) : Local m r r' :=
  ⟨h.shrinks, fun row later later' nonempty short =>
    h.agrees row later later' nonempty (Nat.le_trans short le)⟩

protected theorem pure (n : Nat) (a : α) : Local n (pure a) (pure a) :=
  ⟨fun _ => List.suffix_rfl, fun _ _ _ nonempty _ => .accept a nonempty⟩

protected theorem refuse (n : Nat) (reason : Refusal) :
    Local n (refuse reason : Reader α) (refuse reason) :=
  ⟨fun _ => List.suffix_rfl, fun _ _ _ nonempty _ => .refuse reason nonempty⟩

/-- The second reader only has to deal with the rows that the first one leaves. -/
theorem bind_of_left {m n : Nat} {r r' : Reader α} {next next' : α → Reader β} (first : Local n r r')
    (second : ∀ a, Local m (next a) (next' a))
    (left : ∀ ts a rest, r ts = .accept a rest → rest.length + n ≤ ts.length + m) :
    Local n (r >>= next) (r' >>= next') := by
  refine ⟨fun ts => rest_bind_suffix (first.shrinks ts) fun a => (second a).shrinks, ?_⟩
  intro row later later' nonempty short
  have agrees := first.agrees row later later' nonempty short
  have shorter := left (row ++ later)
  show (andThen r next _).Agrees later later' (andThen r' next' _)
  unfold andThen
  generalize r (row ++ later) = reply at agrees shorter
  generalize r' (row ++ later') = reply' at agrees
  cases agrees with
  | @accept a left leaves =>
    have := shorter a _ rfl
    simp only [List.length_append] at this
    exact (second a).agrees left later later' leaves (by omega)
  | refuse reason leaves => exact .refuse reason leaves
  | beyond used =>
    cases reply with
    | accept a rest => exact .beyond (((second a).shrinks rest).trans used)
    | refuse reason rest => exact .beyond used

theorem bind {n : Nat} {r r' : Reader α} {next next' : α → Reader β} (first : Local n r r')
    (second : ∀ a, Local n (next a) (next' a)) : Local n (r >>= next) (r' >>= next') := by
  refine first.bind_of_left second fun ts a rest accepted => ?_
  have := (first.shrinks ts).length_le
  rw [accepted, Reply.rest_accept] at this
  omega

/-- Behind a reader that takes a token, the rows are shorter. -/
theorem bind_of_takes {m n : Nat} {r r' : Reader α} {next next' : α → Reader β}
    (first : Local n r r') (takes : Takes r) (second : ∀ a, Local m (next a) (next' a)) (le : n ≤ m + 1) :
    Local n (r >>= next) (r' >>= next') := by
  refine first.bind_of_left second fun ts a rest accepted => ?_
  have := takes ts a rest accepted
  omega

/-- Behind a look at the next token, only rows that start with it matter. -/
theorem peek_of {n : Nat} {next next' : Option Token → Reader β} (ended : Local n (next none) (next' none))
    (h : ∀ t, LocalAt t n (next (some t)) (next' (some t))) :
    Local n (peek >>= next) (peek >>= next') := by
  refine ⟨fun ts => ?_, fun row later later' nonempty short => ?_⟩
  · cases ts with
    | nil => exact ended.shrinks []
    | cons t ts => exact (h t).shrinks (t :: ts)
  · cases row with
    | nil => exact absurd rfl nonempty
    | cons t row => exact (h t).agrees row later later' short

theorem peek {n : Nat} {next next' : Option Token → Reader β}
    (h : ∀ o, Local n (next o) (next' o)) : Local n (Reader.peek >>= next) (Reader.peek >>= next') :=
  peek_of (h none) fun t => (h (some t)).at t

theorem isNext {n : Nat} (kind : Kind) {next next' : Bool → Reader β}
    (h : ∀ b, Local n (next b) (next' b)) :
    Local n (isNext kind >>= next) (isNext kind >>= next') := by
  refine ⟨fun ts => (h _).shrinks ts, fun row later later' nonempty short => ?_⟩
  cases row with
  | nil => exact absurd rfl nonempty
  | cons t row => exact (h (decide (t.kind = kind))).agrees (t :: row) later later' nonempty short

theorem skip {n : Nat} {next next' : Unit → Reader β} (h : Local n (next ()) (next' ())) :
    Local (n + 1) (skip >>= next) (skip >>= next') := by
  refine ⟨fun ts => (h.shrinks ts.tail).trans (List.tail_suffix ts), ?_⟩
  intro row later later' nonempty short
  cases row with
  | nil => exact absurd rfl nonempty
  | cons t row =>
    rcases eq_or_ne row [] with rfl | more
    · exact .beyond (h.shrinks later)
    · exact h.agrees row later later' more (Nat.le_of_succ_le_succ short)

theorem skip_le {n : Nat} {next next' : Unit → Reader β} (h : Local n (next ()) (next' ())) :
    Local n (Reader.skip >>= next) (Reader.skip >>= next') :=
  (skip h).mono (Nat.le_succ n)

theorem expect (n : Nat) (kind : Kind) : Local n (expect kind) (expect kind) := by
  refine ⟨fun ts => ?_, ?_⟩
  · cases ts with
    | nil => exact List.suffix_rfl
    | cons t ts =>
      by_cases fits : t.kind = kind
      · simp only [Reader.expect, if_pos fits, Reply.rest_accept, List.suffix_cons]
      · simp only [Reader.expect, if_neg fits, Reply.rest_refuse, List.suffix_rfl]
  · intro row later later' nonempty short
    cases row with
    | nil => exact absurd rfl nonempty
    | cons t row =>
      by_cases fits : t.kind = kind
      · simp only [Reader.expect, List.cons_append, if_pos fits]
        rcases eq_or_ne row [] with rfl | more
        · exact .beyond List.suffix_rfl
        · exact .accept t more
      · simp only [Reader.expect, List.cons_append, if_neg fits]
        exact .refuse _ nonempty

/-- Behind a token of a fixed kind, the rows are shorter. -/
theorem expect_bind {n : Nat} (kind : Kind) {next next' : Token → Reader β}
    (h : ∀ t, Local n (next t) (next' t)) :
    Local (n + 1) (Reader.expect kind >>= next) (Reader.expect kind >>= next') := by
  refine (expect (n + 1) kind).bind_of_takes (fun ts t rest accepted => ?_) h (Nat.le_refl _)
  obtain ⟨rfl, -⟩ := expect_eq_accept_iff.1 accepted
  exact Nat.lt_succ_self _

/-- Of two unrollings of a step, the shorter one decides how far they agree.  What is known of the calls, and
passes on to the step, may be used. -/
theorem unroll {n : Nat} {f f' : (σ → Reader α) → σ → Reader α} (known : Reader α → Prop)
    (stuck : known fun ts => .refuse (.unexpected ts.head?) ts)
    (step : ∀ k (again again' : σ → Reader α),
      (∀ s, Local k (again s) (again' s) ∧ known (again s)) →
      ∀ s, Local (min n (k + 1)) (f again s) (f' again' s) ∧ known (f again s)) :
    ∀ a b s, Local (min n (min a b)) (unroll f a s) (unroll f' b s) ∧ known (Reader.unroll f a s) := by
  intro a
  induction a with
  | zero =>
    -- A reader that has given up agrees with nothing, but the bound is zero and the rows are not empty.
    refine fun b s => ⟨⟨fun _ => List.suffix_rfl, fun row _ _ nonempty short => ?_⟩, stuck⟩
    have := List.length_pos_iff.2 nonempty
    omega
  | succ a ih =>
    intro b s
    cases b with
    | zero =>
      obtain ⟨loc, knows⟩ := step _ _ _ (ih 0) s
      refine ⟨⟨loc.shrinks, fun row _ _ nonempty short => ?_⟩, knows⟩
      have := List.length_pos_iff.2 nonempty
      omega
    | succ b =>
      obtain ⟨loc, knows⟩ := step _ _ _ (ih b) s
      exact ⟨loc.mono (by omega), knows⟩

/-- A reader that may call itself is local if its step is so, on rows of one token more than the calls. -/
theorem recurse_of {n : Nat} {f f' : (σ → Reader α) → σ → Reader α} (known : Reader α → Prop)
    (stuck : known fun ts => .refuse (.unexpected ts.head?) ts)
    (step : ∀ k (again again' : σ → Reader α),
      (∀ s, Local k (again s) (again' s) ∧ known (again s)) →
      ∀ s, Local (min n (k + 1)) (f again s) (f' again' s) ∧ known (f again s)) (s : σ) :
    Local n (recurse f s) (recurse f' s) := by
  refine ⟨fun ts => (unroll known stuck step _ 0 s).1.shrinks ts, ?_⟩
  intro row later later' nonempty short
  refine (unroll known stuck step _ _ s).1.agrees row later later' nonempty ?_
  simp only [List.length_append]
  omega

theorem recurse {n : Nat} {f f' : (σ → Reader α) → σ → Reader α}
    (step : ∀ k (again again' : σ → Reader α), (∀ s, Local k (again s) (again' s)) →
      ∀ s, Local (min n (k + 1)) (f again s) (f' again' s)) (s : σ) :
    Local n (recurse f s) (recurse f' s) :=
  recurse_of (fun _ => True) trivial
    (fun k again again' ih s => ⟨step k again again' (fun s => (ih s).1) s, trivial⟩) s

end Local

/-- A look at the second token does no harm if the first one is taken whatever it shows. -/
theorem LocalAt.peekSecond {n : Nat} {t : Token} {next next' : Option Token → Reader β}
    (h : ∀ o, Local n (next o) (next' o)) (takes : ∀ o ts, (next o (t :: ts)).rest <:+ ts) :
    LocalAt t n (peekSecond >>= next) (peekSecond >>= next') := by
  refine ⟨fun ts => (h _).shrinks ts, fun row later later' short => ?_⟩
  cases row with
  | nil => exact .beyond (takes _ later)
  | cons u row => exact ((h (some u)).at t).agrees (u :: row) later later' short

/-! ## Expressions -/

theorem name_local (n : Nat) : Local n name name :=
  (Local.expect n _).bind fun t => .pure n t.toName

theorem literal_local (n : Nat) (t : Token) : Local n (literal t) (literal t) := by
  unfold literal
  cases Number.ofLiteral? t.text with
  | none => exact .refuse n _
  | some value => exact .pure n _

theorem operations_local {n : Nat} {next next' : Reader Expr} (inner : Local n next next')
    (operator? : Kind → Option BinaryOp) (left : Expr) :
    Local n (operations next operator? left) (operations next' operator? left) := by
  refine Local.recurse (fun k again again' ih left => .peek fun o => ?_) left
  cases o.bind fun t => operator? t.kind with
  | none => exact .pure _ left
  | some op =>
    have more : Local (min n k) (next >>= fun right => again (.binary op left right))
        (next' >>= fun right => again' (.binary op left right)) :=
      (inner.mono (by omega)).bind fun right => (ih _).mono (by omega)
    exact (Local.skip more).mono (by omega)

theorem moreItems_local {n : Nat} {item item' : Reader α} (inner : Local n item item') :
    Local n (moreItems item) (moreItems item') := by
  refine Local.recurse (fun k again again' ih _ => .isNext _ fun isComma => ?_) ()
  cases isComma with
  | false => exact .pure _ []
  | true =>
    have more : Local (min n k)
        (item >>= fun first => again () >>= fun rest => pure (first :: rest))
        (item' >>= fun first => again' () >>= fun rest => pure (first :: rest)) :=
      (inner.mono (by omega)).bind fun _ => ((ih ()).mono (by omega)).bind fun _ => .pure _ _
    exact (Local.skip more).mono (by omega)

theorem itemsUntil_local {n : Nat} {item item' : Reader α} (inner : Local n item item') (close : Kind) :
    Local n (itemsUntil close item) (itemsUntil close item') := by
  refine .isNext _ fun isClose => ?_
  cases isClose with
  | true => exact .skip_le (.pure n [])
  | false =>
    exact inner.bind fun _ => (moreItems_local inner).bind fun _ =>
      (Local.expect n close).bind fun _ => .pure n _

/-- An operand has a token of its own before the expressions in it. -/
theorem operand_local {n : Nat} {inner inner' : Reader Expr} (h : Local n inner inner') :
    Local (n + 1) (operand inner) (operand inner') := by
  refine .peek fun o => ?_
  cases o with
  | none => exact .refuse _ _
  | some t =>
    cases kind : t.kind
    case number =>
      simp only [kind]
      exact .skip (literal_local n t)
    case string =>
      simp only [kind]
      exact .skip (.pure n _)
    case identifier =>
      simp only [kind]
      refine .skip (.isNext _ fun isCall => ?_)
      cases isCall with
      | false => exact .pure n _
      | true => exact .skip_le ((itemsUntil_local h _).bind fun _ => .pure n _)
    case openParen =>
      simp only [kind]
      exact .skip (h.bind fun _ => (Local.expect n _).bind fun _ => .pure n _)
    case openBracket =>
      simp only [kind]
      exact .skip ((itemsUntil_local h _).bind fun _ => .pure n _)
    all_goals
      simp only [kind]
      exact .refuse _ _

theorem product_local {n : Nat} {inner inner' : Reader Expr} (h : Local n inner inner') :
    Local (n + 1) (product inner) (product inner') :=
  (operand_local h).bind fun first => operations_local (operand_local h) _ first

theorem moreTerms_local {n : Nat} {inner inner' : Reader Expr} (h : Local n inner inner') (left : Expr) :
    Local (n + 1) (moreTerms inner left) (moreTerms inner' left) := by
  refine Local.recurse (fun k again again' ih left => .peek fun o => ?_) left
  have goesOn : ∀ {r r' : Reader Expr} (whole : Expr → Expr), Local (n + 1) r r' →
      Local (min (n + 1) k) (r >>= fun right => again (whole right))
        (r' >>= fun right => again' (whole right)) := fun whole first =>
    (first.mono (by omega)).bind fun right => (ih _).mono (by omega)
  cases o with
  | none => exact .pure _ left
  | some t =>
    cases operator : t.kind.sum? with
    | some op =>
      simp only [operator]
      exact (Local.skip (goesOn (.binary op left) (product_local h))).mono (by omega)
    | none =>
      simp only [operator]
      split
      · refine (Local.skip (n := min (n + 1) k) ?_).mono (by omega)
        exact (literal_local _ _).bind fun first =>
          goesOn (.binary .sub left) (operations_local (operand_local h) _ first)
      · exact .pure _ left

theorem sum_local {n : Nat} {inner inner' : Reader Expr} (h : Local n inner inner') :
    Local (n + 1) (sum inner) (sum inner') :=
  (product_local h).bind fun first => moreTerms_local h first

theorem comparison_local {n : Nat} {inner inner' : Reader Expr} (h : Local n inner inner') :
    Local (n + 1) (comparison inner) (comparison inner') :=
  (sum_local h).bind fun first => operations_local (sum_local h) _ first

theorem expression_local (n : Nat) : Local n expression expression :=
  Local.recurse (fun _ _ _ ih _ => (comparison_local (ih ())).mono (by omega)) ()

/-- An operand that starts with a name takes the name, whatever stands behind it. -/
theorem operand_takes_identifier {inner inner' : Reader Expr} (h : Local 0 inner inner') {t : Token}
    (kind : t.kind = .identifier) (ts : List Token) : (operand inner (t :: ts)).rest <:+ ts := by
  simp only [operand, peek_bind, List.head?_cons, kind, skip_bind, List.tail_cons, isNext_bind]
  split
  · rw [skip_bind]
    exact rest_bind_suffix (((itemsUntil_local h _).shrinks _).trans (List.tail_suffix ts))
      fun _ _ => List.suffix_rfl
  · exact List.suffix_rfl

theorem comparison_takes_identifier {inner inner' : Reader Expr} (h : Local 0 inner inner') {t : Token}
    (kind : t.kind = .identifier) (ts : List Token) : (comparison inner (t :: ts)).rest <:+ ts := by
  have afterProduct : (product inner (t :: ts)).rest <:+ ts :=
    rest_bind_suffix (operand_takes_identifier h kind ts) fun first =>
      (operations_local (operand_local h) _ first).shrinks
  have afterSum : (sum inner (t :: ts)).rest <:+ ts :=
    rest_bind_suffix afterProduct fun first => (moreTerms_local h first).shrinks
  exact rest_bind_suffix afterSum fun first => (operations_local (sum_local h) _ first).shrinks

theorem expression_takes_identifier {t : Token} (kind : t.kind = .identifier) (ts : List Token) :
    (expression (t :: ts)).rest <:+ ts := by
  have unrolled := Local.unroll (n := 0) (fun _ => True) trivial
    (fun _ _ _ ih _ => ⟨(comparison_local (ih ()).1).mono (by omega), trivial⟩) (ts.length + 1) 0 ()
  exact comparison_takes_identifier (unrolled.1.mono (Nat.zero_le _)) kind ts

/-! ## Statements -/

theorem typeAfterColon_local (n : Nat) : Local n typeAfterColon typeAfterColon := by
  refine .isNext _ fun isColon => ?_
  cases isColon with
  | false => exact .pure n _
  | true =>
    refine .skip_le (.peek fun o => ?_)
    cases o with
    | none => exact .refuse n _
    | some t =>
      simp only
      split
      · exact .skip_le (.pure n _)
      · exact .refuse n _

theorem param_local (n : Nat) : Local n param param :=
  (name_local n).bind fun _ => (typeAfterColon_local n).bind fun _ => .pure n _

theorem params_local (n : Nat) : Local n params params :=
  (Local.expect n _).bind fun _ => itemsUntil_local (param_local n) _

theorem inParens_local (n : Nat) : Local n inParens inParens :=
  (Local.expect n _).bind fun _ => (expression_local n).bind fun _ => (Local.expect n _).bind fun _ =>
    .pure n _

theorem expressionLine_local (n : Nat) : Local n expressionLine expressionLine :=
  (expression_local n).bind fun _ => (Local.expect n _).bind fun _ => .pure n _

theorem declaration_local (n : Nat) : Local n declaration declaration :=
  (name_local n).bind fun _ => (typeAfterColon_local n).bind fun _ => (Local.expect n _).bind fun _ =>
    (expressionLine_local n).bind fun _ => .pure n _

theorem skipIn_local (n : Nat) : Local n skipIn skipIn := by
  refine .peek fun o => ?_
  cases o with
  | none => exact .pure n ()
  | some t =>
    simp only
    split
    · exact .skip_le (.pure n ())
    · exact .pure n ()

theorem printing_local (n : Nat) (newline : Bool) : Local n (printing newline) (printing newline) :=
  (inParens_local n).bind fun _ => (Local.expect n _).bind fun _ => .pure n _

theorem assignment_local (n : Nat) : Local n assignment assignment :=
  (name_local n).bind fun _ => (Local.expect n _).bind fun _ => (expressionLine_local n).bind fun _ =>
    .pure n _

theorem evalLine_local (n : Nat) :
    Local n (do return Stmt.eval (← expressionLine)) (do return Stmt.eval (← expressionLine)) :=
  (expressionLine_local n).bind fun _ => .pure n _

theorem statementsUntilBrace_local {n : Nat} {inner inner' : Reader Stmt} (h : Local n inner inner')
    (takes : Takes inner) : Local n (statementsUntilBrace inner) (statementsUntilBrace inner') := by
  refine Local.recurse (fun k again again' ih _ => .peek fun o => ?_) ()
  cases o with
  | none => exact .pure _ []
  | some t =>
    simp only
    split
    · exact .pure _ []
    · exact (h.mono (by omega)).bind_of_takes takes
        (fun _ => (ih ()).bind fun _ => .pure k _) (by omega)

/-- A block has a brace of its own before the statements in it. -/
theorem block_local {n : Nat} {inner inner' : Reader Stmt} (h : Local n inner inner')
    (takes : Takes inner) : Local (n + 1) (block inner) (block inner') :=
  .expect_bind _ fun _ => (statementsUntilBrace_local h takes).bind fun _ => (Local.expect n _).bind fun _ =>
    .pure n _

theorem functionDeclaration_local {n : Nat} {inner inner' : Reader Stmt} (h : Local n inner inner')
    (takes : Takes inner) : Local (n + 1) (functionDeclaration inner) (functionDeclaration inner') :=
  (name_local _).bind fun _ => (params_local _).bind fun _ => (typeAfterColon_local _).bind fun _ =>
    (block_local h takes).bind fun _ => .pure _ _

theorem branch_local {n : Nat} {inner inner' : Reader Stmt} (h : Local n inner inner')
    (takes : Takes inner) : Local (n + 1) (branch inner) (branch inner') := by
  refine (inParens_local _).bind fun _ => (block_local h takes).bind fun _ => .isNext _ fun isElse => ?_
  cases isElse with
  | false => exact .pure _ _
  | true => exact .skip_le ((block_local h takes).bind fun _ => .pure _ _)

theorem conditionLoop_local {n : Nat} {inner inner' : Reader Stmt} (h : Local n inner inner')
    (takes : Takes inner) : Local (n + 1) (conditionLoop inner) (conditionLoop inner') := by
  refine .isNext _ fun isParen => ?_
  cases isParen with
  | true => exact (inParens_local _).bind fun _ => (block_local h takes).bind fun _ => .pure _ _
  | false => exact (expression_local _).bind fun _ => (block_local h takes).bind fun _ => .pure _ _

theorem listLoop_local {n : Nat} {inner inner' : Reader Stmt} (h : Local n inner inner')
    (takes : Takes inner) : Local (n + 1) (listLoop inner) (listLoop inner') :=
  (name_local _).bind fun _ => (skipIn_local _).bind fun _ => (expression_local _).bind fun _ =>
    (block_local h takes).bind fun _ => .pure _ _

/-- An assignment takes the name that it starts with, whatever stands behind it. -/
theorem assignment_takes_identifier {t : Token} (kind : t.kind = .identifier) (ts : List Token) :
    (assignment (t :: ts)).rest <:+ ts := by
  have named : (name (t :: ts)).rest <:+ ts := by rw [name_accepts kind]; exact List.suffix_rfl
  exact rest_bind_suffix named fun _ =>
    ((Local.expect 0 _).bind fun _ => (expressionLine_local 0).bind fun _ => .pure 0 _).shrinks

/-- So does a line that holds an expression. -/
theorem evalLine_takes_identifier {t : Token} (kind : t.kind = .identifier) (ts : List Token) :
    ((do return Stmt.eval (← expressionLine) : Reader Stmt) (t :: ts)).rest <:+ ts := by
  have line : (expressionLine (t :: ts)).rest <:+ ts :=
    rest_bind_suffix (expression_takes_identifier kind ts) fun _ =>
      ((Local.expect 0 _).bind fun _ => .pure 0 _).shrinks
  exact rest_bind_suffix line fun _ _ => List.suffix_rfl

/-- The token behind a name selects between two readers that both take the name. -/
theorem assignmentOrEval_local (n : Nat) {t : Token} (kind : t.kind = .identifier) :
    LocalAt t n
      (do if (← peekSecond).any (·.kind = .assign) then assignment else return .eval (← expressionLine))
      (do if (← peekSecond).any (·.kind = .assign) then assignment else return .eval (← expressionLine)) := by
  refine .peekSecond (fun o => ?_) (fun o ts => ?_)
  · split
    · exact assignment_local n
    · exact evalLine_local n
  · split
    · exact assignment_takes_identifier kind ts
    · exact evalLine_takes_identifier kind ts

/-- A statement with blocks has a keyword of its own before them. -/
theorem statementWith_local {n : Nat} {inner inner' : Reader Stmt} (h : Local n inner inner')
    (takes : Takes inner) : Local (n + 1) (statementWith inner) (statementWith inner') := by
  refine .peek_of (evalLine_local _) fun t => ?_
  rw [Option.map_some]
  cases kind : t.kind
  case letKeyword => exact (Local.skip_le (declaration_local _)).at t
  case fnKeyword => exact (Local.skip_le (functionDeclaration_local h takes)).at t
  case ifKeyword => exact (Local.skip_le (branch_local h takes)).at t
  case whileKeyword => exact (Local.skip_le (conditionLoop_local h takes)).at t
  case forKeyword => exact (Local.skip_le (listLoop_local h takes)).at t
  case printKeyword => exact (Local.skip_le (printing_local _ false)).at t
  case printlnKeyword => exact (Local.skip_le (printing_local _ true)).at t
  case returnKeyword => exact (Local.skip_le (evalLine_local _)).at t
  case identifier => exact assignmentOrEval_local _ kind
  all_goals exact (evalLine_local _).at t

theorem statement_takes {r : Reader Stmt} (sound : Sound r Statement) : Takes r := by
  refine sound.takes fun us s derived => ?_
  obtain ⟨t, rest, rfl, -⟩ := derived.starts
  exact List.cons_ne_nil _ _

theorem statement_local (n : Nat) : Local n statement statement := by
  -- A block reads one statement after the other, and these must take tokens.  Soundness tells that they do,
  -- so it goes along through the unrollings.
  refine Local.recurse_of (fun r => Sound r Statement) (fun _ _ _ h => by cases h)
    (fun k again again' ih _ => ?_) ()
  obtain ⟨loc, sound⟩ := ih ()
  exact ⟨(statementWith_local loc (statement_takes sound)).mono (by omega), statementWith_sound sound⟩

theorem program_local (n : Nat) : Local n program program := by
  refine Local.recurse (fun k again again' ih _ => .peek fun o => ?_) ()
  cases o with
  | none => exact .pure _ []
  | some t =>
    exact (statement_local _).bind_of_takes (statement_takes statement_sound)
      (fun _ => (ih ()).bind fun _ => .pure k _) (by omega)

/-- A refusal in front of a token does not depend on what follows the token. -/
theorem program_refuses_before {used later : List Token} {t : Token} {reason : Refusal}
    (refused : program (used ++ t :: later) = .refuse reason (t :: later)) (later' : List Token) :
    program (used ++ t :: later') = .refuse reason (t :: later') := by
  have agrees := (program_local (used ++ [t]).length).agrees (used ++ [t]) later later'
    (List.concat_ne_nil _ _) (Nat.le_refl _)
  simp only [List.append_assoc, List.singleton_append] at agrees
  rw [refused, ← List.singleton_append] at agrees
  exact agrees.eq_refuse (List.cons_ne_nil _ _)

end Reader
end ToraCompiler
