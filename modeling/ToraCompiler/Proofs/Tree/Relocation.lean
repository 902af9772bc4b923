import ToraCompiler.Proofs.Token.Lines
import ToraCompiler.Tree.Grammar

/-!
# Reading does not depend on places

The readers look at the kinds and the texts of tokens only.  So a row whose tokens have been moved to other
places is read as the same tree with its names moved in the same way, or refused in the same words
(`Reader.program_follows`).  The relation `Reader.Follows` says so for one reader and passes through
every way of building readers, recursion included.
-/

namespace ToraCompiler

/-! ## Moved trees -/

/-- The name at the place that `f` gives for its own. -/
def Name.moved (f : Position → Position) (n : Name) : Name :=
  { n with position := f n.position }

@[simp]
theorem Name.moved_text (f : Position → Position) (n : Name) : (n.moved f).text = n.text := rfl

mutual

/-- The expression with its names moved. -/
def Expr.moved (f : Position → Position) : Expr → Expr
  | .binary op left right => .binary op (left.moved f) (right.moved f)
  | .call callee args => .call (callee.moved f) (Expr.movedAll f args)
  | .name n => .name (n.moved f)
  | .number value => .number value
  | .str value => .str value
  | .list items => .list (Expr.movedAll f items)

/-- The expressions with their names moved. -/
def Expr.movedAll (f : Position → Position) : List Expr → List Expr
  | [] => []
  | e :: rest => e.moved f :: Expr.movedAll f rest

end

/-- The parameter with its name moved. -/
def Param.moved (f : Position → Position) (p : Param) : Param :=
  { p with name := p.name.moved f }

mutual

/-- The statement with its names moved. -/
def Stmt.moved (f : Position → Position) : Stmt → Stmt
  | .declare name type value => .declare (name.moved f) type (value.map (Expr.moved f))
  | .function name params result body =>
    .function (name.moved f) (params.map (Param.moved f)) result (Stmt.movedAll f body)
  | .branch condition yes no =>
    .branch (condition.moved f) (Stmt.movedAll f yes) (Stmt.movedElse f no)
  | .loop condition body => .loop (condition.moved f) (Stmt.movedAll f body)
  | .each item iterable body => .each (item.moved f) (iterable.moved f) (Stmt.movedAll f body)
  | .print value newline => .print (value.moved f) newline
  | .eval value => .eval (value.moved f)
  | .assign target value => .assign (target.moved f) (value.moved f)

/-- The statements with their names moved. -/
def Stmt.movedAll (f : Position → Position) : List Stmt → List Stmt
  | [] => []
  | s :: rest => s.moved f :: Stmt.movedAll f rest

/-- The second block of a branch with its names moved. -/
def Stmt.movedElse (f : Position → Position) : Option (List Stmt) → Option (List Stmt)
  | none => none
  | some body => some (Stmt.movedAll f body)

end

theorem Expr.movedAll_eq_map (f : Position → Position) (es : List Expr) :
    Expr.movedAll f es = es.map (Expr.moved f) := by
  induction es with
  | nil => rfl
  | cons e es ih => rw [Expr.movedAll, List.map_cons, ih]

mutual

theorem Expr.moved_id : ∀ e : Expr, e.moved id = e
  | .binary op left right => by rw [Expr.moved, moved_id left, moved_id right]
  | .call callee args => by
    rw [Expr.moved, movedAll_id args]
    rfl
  | .name _ => rfl
  | .number _ => rfl
  | .str _ => rfl
  | .list items => by rw [Expr.moved, movedAll_id items]

theorem Expr.movedAll_id : ∀ es : List Expr, Expr.movedAll id es = es
  | [] => rfl
  | e :: rest => by rw [Expr.movedAll, moved_id e, movedAll_id rest]

end

theorem Param.map_moved_id (params : List Param) : params.map (Param.moved id) = params := by
  have same : Param.moved id = id := rfl
  rw [same, List.map_id]

mutual

theorem Stmt.moved_id : ∀ s : Stmt, s.moved id = s
  | .declare _ _ none => rfl
  | .declare _ _ (some e) => by
    rw [Stmt.moved, Option.map_some, Expr.moved_id]
    rfl
  | .function _ params _ body => by
    rw [Stmt.moved, Param.map_moved_id params, movedAll_id body]
    rfl
  | .branch condition yes no => by
    rw [Stmt.moved, Expr.moved_id, movedAll_id yes, movedElse_id no]
  | .loop condition body => by rw [Stmt.moved, Expr.moved_id, movedAll_id body]
  | .each _ iterable body => by
    rw [Stmt.moved, Expr.moved_id, movedAll_id body]
    rfl
  | .print value _ => by rw [Stmt.moved, Expr.moved_id]
  | .eval value => by rw [Stmt.moved, Expr.moved_id]
  | .assign _ value => by
    rw [Stmt.moved, Expr.moved_id]
    rfl

theorem Stmt.movedAll_id : ∀ p : List Stmt, Stmt.movedAll id p = p
  | [] => rfl
  | s :: rest => by rw [Stmt.movedAll, moved_id s, movedAll_id rest]

theorem Stmt.movedElse_id : ∀ no : Option (List Stmt), Stmt.movedElse id no = no
  | none => rfl
  | some body => by rw [Stmt.movedElse, movedAll_id body]

end

/-! ## Replies and readers -/

/-- What a reply becomes when the tokens are moved by `f`: the value `g` instead of the value, with the
rest moved, or a refusal in the same words. -/
inductive Reply.Follows {α β : Type} (f : Position → Position) (g : α → β) :
    Reply α → Reply β → Prop
  | accept (a : α) (rest : List Token) :
    Follows f g (.accept a rest) (.accept (g a) (rest.map (Token.moved f)))
  | refuse {reason reason' : Refusal} (rest : List Token) : reason'.message = reason.message →
    Follows f g (.refuse reason rest) (.refuse reason' (rest.map (Token.moved f)))

namespace Reader

variable {α β γ δ σ : Type} {f : Position → Position}

/-- The second reader replies to the moved tokens as the first one does to the tokens themselves. -/
def Follows (f : Position → Position) (g : α → β) (r : Reader α) (r' : Reader β) : Prop :=
  ∀ ts, (r ts).Follows f g (r' (ts.map (Token.moved f)))

theorem Follows.pure {g : α → β} {a : α} {b : β} (same : b = g a) :
    Follows f g (pure a) (pure b) := by
  subst same
  exact fun ts => .accept a ts

theorem Follows.refuse {g : α → β} {reason reason' : Refusal}
    (same : reason'.message = reason.message) :
    Follows f g (Reader.refuse reason) (Reader.refuse reason') :=
  fun ts => .refuse ts same

theorem Follows.bind {g : α → β} {h : γ → δ} {r : Reader α} {r' : Reader β} {next : α → Reader γ}
    {next' : β → Reader δ} (first : Follows f g r r')
    (second : ∀ a, Follows f h (next a) (next' (g a))) :
    Follows f h (r >>= next) (r' >>= next') := by
  intro ts
  show (andThen r next ts).Follows f h (andThen r' next' _)
  unfold andThen
  have replied := first ts
  generalize r ts = reply, r' (ts.map (Token.moved f)) = reply' at replied ⊢
  cases replied with
  | accept a rest => exact second a rest
  | refuse rest same => exact .refuse rest same

theorem Follows.ite {g : α → β} {c : Prop} [Decidable c] {yes no : Reader α} {yes' no' : Reader β}
    (left : Follows f g yes yes') (right : Follows f g no no') :
    Follows f g (if c then yes else no) (if c then yes' else no') := by
  split
  · exact left
  · exact right

theorem peek_follows : Follows f (Option.map (Token.moved f)) peek peek := by
  intro ts
  unfold peek
  rw [List.head?_map]
  exact .accept _ _

theorem peekSecond_follows : Follows f (Option.map (Token.moved f)) peekSecond peekSecond := by
  intro ts
  unfold peekSecond
  rw [← List.map_tail, List.head?_map]
  exact .accept _ _

theorem skip_follows : Follows f id skip skip := by
  intro ts
  unfold skip
  rw [← List.map_tail]
  exact .accept _ _

theorem isNext_follows (kind : Kind) : Follows f id (isNext kind) (isNext kind) := by
  intro ts
  have same : (ts.map (Token.moved f)).head?.any (·.kind = kind) = ts.head?.any (·.kind = kind) := by
    cases ts <;> rfl
  unfold isNext
  rw [same]
  exact .accept _ _

theorem expect_follows (kind : Kind) : Follows f (Token.moved f) (expect kind) (expect kind) := by
  intro ts
  cases ts with
  | nil => exact .refuse [] rfl
  | cons t ts =>
    simp only [expect, List.map_cons, Token.moved_kind]
    split
    · exact .accept t ts
    · exact .refuse (t :: ts) rfl

/-- A reader that may call itself follows itself if its step does as soon as the calls do. -/
theorem Follows.recurse {g : α → α} {h : σ → σ} {step : (σ → Reader α) → σ → Reader α}
    (steps : ∀ again : σ → Reader α, (∀ s, Follows f g (again s) (again (h s))) →
      ∀ s, Follows f g (step again s) (step again (h s))) (s : σ) :
    Follows f g (recurse step s) (recurse step (h s)) := by
  have unrolled : ∀ n s, Follows f g (unroll step n s) (unroll step n (h s)) := by
    intro n
    induction n with
    | zero =>
      intro s ts
      refine .refuse ts ?_
      cases ts <;> rfl
    | succ n ih => exact steps _ ih
  intro ts
  have sameLength : (ts.map (Token.moved f)).length = ts.length := List.length_map ..
  unfold Reader.recurse
  rw [sameLength]
  exact unrolled _ s ts

/-! ## Expressions -/

theorem name_follows : Follows f (Name.moved f) name name :=
  .bind (expect_follows _) fun _ => .pure rfl

theorem literal_follows {t t' : Token} (same : t'.text = t.text) :
    Follows f (Expr.moved f) (literal t) (literal t') := by
  unfold literal
  rw [same]
  cases Number.ofLiteral? t.text with
  | none => exact .refuse rfl
  | some value => exact .pure rfl

theorem operations_follows {r : Reader Expr} (operands : Follows f (Expr.moved f) r r)
    (operator? : Kind → Option BinaryOp) (left : Expr) :
    Follows f (Expr.moved f) (operations r operator? left) (operations r operator? (left.moved f)) := by
  refine .recurse (fun again ih left => ?_) left
  refine .bind peek_follows fun next => ?_
  have same : ((next.map (Token.moved f)).bind fun t => operator? t.kind) =
      next.bind fun t => operator? t.kind := by
    cases next <;> rfl
  rw [same]
  cases next.bind fun t => operator? t.kind with
  | none => exact .pure rfl
  | some op => exact .bind skip_follows fun _ => .bind operands fun right => ih (.binary op left right)

theorem moreItems_follows {g : α → α} {item : Reader α} (items : Follows f g item item) :
    Follows f (List.map g) (moreItems item) (moreItems item) := by
  refine .recurse (h := id) (fun again ih _ => ?_) ()
  refine .bind (isNext_follows _) fun isNext => ?_
  cases isNext with
  | false => exact .pure rfl
  | true =>
    exact .bind skip_follows fun _ => .bind items fun first => .bind (ih ()) fun rest => .pure rfl

theorem itemsUntil_follows {g : α → α} {item : Reader α} (items : Follows f g item item)
    (close : Kind) : Follows f (List.map g) (itemsUntil close item) (itemsUntil close item) := by
  refine .bind (isNext_follows _) fun isNext => ?_
  cases isNext with
  | true => exact .bind skip_follows fun _ => .pure rfl
  | false =>
    exact .bind items fun first => .bind (moreItems_follows items) fun rest =>
      .bind (expect_follows _) fun _ => .pure rfl

section Expressions

variable {r : Reader Expr} (expressions : Follows f (Expr.moved f) r r)
include expressions

theorem operand_follows : Follows f (Expr.moved f) (operand r) (operand r) := by
  refine .bind peek_follows fun next => ?_
  cases next with
  | none => exact .refuse rfl
  | some t =>
    have listed := itemsUntil_follows expressions
    simp only [Option.map_some, Token.moved_kind]
    cases kind : t.kind
    case number => exact .bind skip_follows fun _ => literal_follows rfl
    case string => exact .bind skip_follows fun _ => .pure rfl
    case identifier =>
      refine .bind skip_follows fun _ => .bind (isNext_follows _) fun isNext => ?_
      cases isNext with
      | false => exact .pure rfl
      | true =>
        refine .bind skip_follows fun _ => .bind (listed _) fun args => .pure ?_
        rw [Expr.moved, Expr.movedAll_eq_map]
        rfl
    case openParen =>
      exact .bind skip_follows fun _ => .bind expressions fun inner =>
        .bind (expect_follows _) fun _ => .pure rfl
    case openBracket =>
      refine .bind skip_follows fun _ => .bind (listed _) fun items => .pure ?_
      rw [Expr.moved, Expr.movedAll_eq_map]
    all_goals exact .refuse rfl

theorem product_follows : Follows f (Expr.moved f) (product r) (product r) :=
  .bind (operand_follows expressions) fun first =>
    operations_follows (operand_follows expressions) _ first

theorem moreTerms_follows (left : Expr) :
    Follows f (Expr.moved f) (moreTerms r left) (moreTerms r (left.moved f)) := by
  refine .recurse (fun again ih left => ?_) left
  refine .bind peek_follows fun next => ?_
  cases next with
  | none => exact .pure rfl
  | some t =>
    simp only [Option.map_some, Token.moved_kind]
    cases t.kind.sum? with
    | some op =>
      exact .bind skip_follows fun _ => .bind (product_follows expressions) fun right =>
        ih (.binary op left right)
    | none =>
      have same : (t.moved f).isNegativeNumber ↔ t.isNegativeNumber := Iff.rfl
      simp only [same]
      refine .ite ?_ (.pure rfl)
      exact .bind skip_follows fun _ => .bind (literal_follows rfl) fun first =>
        .bind (operations_follows (operand_follows expressions) _ first) fun right =>
          ih (.binary .sub left right)

theorem sum_follows : Follows f (Expr.moved f) (sum r) (sum r) :=
  .bind (product_follows expressions) fun first => moreTerms_follows expressions first

theorem comparison_follows : Follows f (Expr.moved f) (comparison r) (comparison r) :=
  .bind (sum_follows expressions) fun first =>
    operations_follows (sum_follows expressions) _ first

end Expressions

theorem expression_follows : Follows f (Expr.moved f) expression expression := by
  refine .recurse (h := id) (fun again ih _ => ?_) ()
  exact comparison_follows (ih ())

/-! ## Statements -/

theorem typeAfterColon_follows : Follows f id typeAfterColon typeAfterColon := by
  refine .bind (isNext_follows _) fun isNext => ?_
  cases isNext with
  | false => exact .pure rfl
  | true =>
    refine .bind skip_follows fun _ => .bind peek_follows fun next => ?_
    cases next with
    | none => exact .refuse rfl
    | some t =>
      exact .ite (.bind skip_follows fun _ => .pure rfl) (.refuse rfl)

theorem param_follows : Follows f (Param.moved f) param param :=
  .bind name_follows fun _ => .bind typeAfterColon_follows fun _ => .pure rfl

theorem params_follows : Follows f (List.map (Param.moved f)) params params :=
  .bind (expect_follows _) fun _ => itemsUntil_follows param_follows _

theorem inParens_follows : Follows f (Expr.moved f) inParens inParens :=
  .bind (expect_follows _) fun _ => .bind expression_follows fun _ =>
    .bind (expect_follows _) fun _ => .pure rfl

theorem expressionLine_follows : Follows f (Expr.moved f) expressionLine expressionLine :=
  .bind expression_follows fun _ => .bind (expect_follows _) fun _ => .pure rfl

theorem declaration_follows : Follows f (Stmt.moved f) declaration declaration :=
  .bind name_follows fun _ => .bind typeAfterColon_follows fun _ => .bind (expect_follows _) fun _ =>
    .bind expressionLine_follows fun _ => .pure rfl

theorem skipIn_follows : Follows f id skipIn skipIn := by
  refine .bind peek_follows fun next => ?_
  cases next with
  | none => exact .pure rfl
  | some t =>
    exact .ite skip_follows (.pure rfl)

theorem printing_follows (newline : Bool) :
    Follows f (Stmt.moved f) (printing newline) (printing newline) :=
  .bind inParens_follows fun _ => .bind (expect_follows _) fun _ => .pure rfl

theorem assignment_follows : Follows f (Stmt.moved f) assignment assignment :=
  .bind name_follows fun _ => .bind (expect_follows _) fun _ => .bind expressionLine_follows fun _ =>
    .pure rfl

theorem evaluation_follows : Follows f (Stmt.moved f)
    (do return .eval (← expressionLine)) (do return .eval (← expressionLine)) :=
  .bind expressionLine_follows fun _ => .pure rfl

section Statements

variable {r : Reader Stmt} (statements : Follows f (Stmt.moved f) r r)
include statements

theorem statementsUntilBrace_follows :
    Follows f (Stmt.movedAll f) (statementsUntilBrace r) (statementsUntilBrace r) := by
  refine .recurse (h := id) (fun again ih _ => ?_) ()
  refine .bind peek_follows fun next => ?_
  cases next with
  | none => exact .pure rfl
  | some t =>
    exact .ite (.pure rfl) (.bind statements fun _ => .bind (ih ()) fun _ => .pure rfl)

theorem block_follows : Follows f (Stmt.movedAll f) (block r) (block r) :=
  .bind (expect_follows _) fun _ => .bind (statementsUntilBrace_follows statements) fun _ =>
    .bind (expect_follows _) fun _ => .pure rfl

theorem functionDeclaration_follows :
    Follows f (Stmt.moved f) (functionDeclaration r) (functionDeclaration r) :=
  .bind name_follows fun _ => .bind params_follows fun _ => .bind typeAfterColon_follows fun _ =>
    .bind (block_follows statements) fun _ => .pure rfl

theorem branch_follows : Follows f (Stmt.moved f) (branch r) (branch r) := by
  refine .bind inParens_follows fun _ => .bind (block_follows statements) fun _ =>
    .bind (isNext_follows _) fun isNext => ?_
  cases isNext with
  | false => exact .pure rfl
  | true => exact .bind skip_follows fun _ => .bind (block_follows statements) fun _ => .pure rfl

theorem conditionLoop_follows : Follows f (Stmt.moved f) (conditionLoop r) (conditionLoop r) := by
  refine .bind (isNext_follows _) fun isNext => ?_
  cases isNext with
  | false =>
    exact .bind expression_follows fun _ => .bind (block_follows statements) fun _ => .pure rfl
  | true => exact .bind inParens_follows fun _ => .bind (block_follows statements) fun _ => .pure rfl

theorem listLoop_follows : Follows f (Stmt.moved f) (listLoop r) (listLoop r) :=
  .bind name_follows fun _ => .bind skipIn_follows fun _ => .bind expression_follows fun _ =>
    .bind (block_follows statements) fun _ => .pure rfl

theorem statementWith_follows : Follows f (Stmt.moved f) (statementWith r) (statementWith r) := by
  refine .bind peek_follows fun next => ?_
  cases next with
  | none => exact evaluation_follows
  | some t =>
    simp only [Option.map_some, Token.moved_kind]
    cases t.kind
    case letKeyword => exact .bind skip_follows fun _ => declaration_follows
    case fnKeyword => exact .bind skip_follows fun _ => functionDeclaration_follows statements
    case ifKeyword => exact .bind skip_follows fun _ => branch_follows statements
    case whileKeyword => exact .bind skip_follows fun _ => conditionLoop_follows statements
    case forKeyword => exact .bind skip_follows fun _ => listLoop_follows statements
    case printKeyword => exact .bind skip_follows fun _ => printing_follows _
    case printlnKeyword => exact .bind skip_follows fun _ => printing_follows _
    case returnKeyword => exact .bind skip_follows fun _ => evaluation_follows
    case identifier =>
      refine .bind peekSecond_follows fun second => ?_
      have same : (second.map (Token.moved f)).any (·.kind = .assign) =
          second.any (·.kind = .assign) := by
        cases second <;> rfl
      rw [same]
      exact .ite assignment_follows evaluation_follows
    all_goals exact evaluation_follows

end Statements

theorem statement_follows : Follows f (Stmt.moved f) statement statement := by
  refine .recurse (h := id) (fun again ih _ => ?_) ()
  exact statementWith_follows (ih ())

/-- Moved tokens make a moved program. -/
theorem program_follows : Follows f (Stmt.movedAll f) program program := by
  refine .recurse (h := id) (fun again ih _ => ?_) ()
  refine .bind peek_follows fun next => ?_
  cases next with
  | none => exact .pure rfl
  | some t => exact .bind statement_follows fun _ => .bind (ih ()) fun _ => .pure rfl

end Reader

end ToraCompiler
