import ToraCompiler.Proofs.Tree.Completeness
import ToraCompiler.Proofs.Tree.Soundness

/-!
# What readers took can be completed

A reader that refuses a row has taken tokens that begin something it would accept, and complains about the
token behind them: some other tokens in place of that one and the rest complete what was taken.
`Reader.Viable` says so for one reader and passes through every way of building readers.  It asks for a
completion of nothing as well.  With that, a completion of a row of readers is put together from its parts: the
first reader completes what it took, and each reader behind it completes nothing.

The completions hold no number, so that they cannot be refused for the value of one.
-/

namespace ToraCompiler

/-- The refusal is about the first of these tokens, or about the end if there is none. -/
def Refusal.PointsAt (reason : Refusal) (rest : List Token) : Prop :=
  ∀ finish, reason.place finish = (rest.head?.map Token.position).getD finish

/-- A token of this kind, for use in a completion. -/
def Kind.sample (kind : Kind) : Token where
  kind := kind
  text := ((marks.find? (·.2 = kind)).map fun mark => String.ofList mark.1).getD "x"
  position := ⟨1, 1⟩

/-- Tokens of this kind have no value that could be missing, and are not the end. -/
def Kind.IsPlain (kind : Kind) : Prop :=
  kind ≠ .number ∧ kind ≠ .endOfInput

instance (kind : Kind) : Decidable kind.IsPlain :=
  inferInstanceAs (Decidable (_ ∧ _))

/-- The row begins one that is related to a value. -/
def Completable {α : Type} (related : List Token → α → Prop) (used : List Token) : Prop :=
  ∃ more a, (∀ t ∈ more, t.kind.IsPlain) ∧ related (used ++ more) a

/-- If the reply to the row is a refusal, it is about the token behind a beginning of something related. -/
def Reply.Viable {α : Type} (related : List Token → α → Prop) (ts : List Token) (reply : Reply α) : Prop :=
  ∀ reason rest, reply = .refuse reason rest →
    ∃ used, ts = used ++ rest ∧ reason.PointsAt rest ∧ Completable related used

namespace Completable

variable {α β : Type} {related : List Token → α → Prop}

theorem of_related {us : List Token} {a : α} (h : related us a) : Completable related us :=
  ⟨[], a, by simp, by rwa [List.append_nil]⟩

/-- A token of some kind completes nothing. -/
theorem of_sample (kind : Kind) (plain : kind.IsPlain) {a : α} (h : related [kind.sample] a) :
    Completable related [] :=
  ⟨[kind.sample], a, fun t member => by rw [List.mem_singleton.1 member]; exact plain, h⟩

/-- What is completed to something that can be completed can be completed. -/
theorem trans {target : List Token → β → Prop} {used : List Token} (h : Completable related used)
    (goesOn : ∀ us a, related us a → Completable target us) : Completable target used := by
  obtain ⟨more, a, plain, derived⟩ := h
  obtain ⟨last, b, lastPlain, derived'⟩ := goesOn _ a derived
  refine ⟨more ++ last, b, fun t member => ?_, by rwa [← List.append_assoc]⟩
  exact (List.mem_append.1 member).elim (plain t) (lastPlain t)

/-- A row in front of the completed one belongs to it. -/
theorem behind (us : List Token) {used : List Token}
    (h : Completable (fun vs a => related (us ++ vs) a) used) : Completable related (us ++ used) := by
  obtain ⟨more, a, plain, derived⟩ := h
  exact ⟨more, a, plain, by rwa [List.append_assoc]⟩

theorem of_behind {us : List Token} (h : Completable (fun vs a => related (us ++ vs) a) []) :
    Completable related us := by
  simpa using h.behind us

end Completable

namespace Reply.Viable

variable {α β : Type} {related : List Token → α → Prop}

theorem accept (a : α) (ts rest : List Token) : Viable related ts (.accept a rest) := by
  intro _ _ refused
  cases refused

/-- A refusal that takes nothing. -/
theorem refuse (starts : Completable related []) {reason : Refusal} {ts : List Token}
    (points : reason.PointsAt ts) : Viable related ts (.refuse reason ts) := by
  rintro _ _ ⟨⟩
  exact ⟨[], rfl, points, starts⟩

/-- Tokens that have been taken before belong to what was taken. -/
theorem behind (us : List Token) {ts : List Token} {reply : Reply α}
    (h : Viable (fun vs a => related (us ++ vs) a) ts reply) : Viable related (us ++ ts) reply := by
  intro reason rest refused
  obtain ⟨used, rfl, points, completable⟩ := h reason rest refused
  exact ⟨us ++ used, by simp, points, completable.behind us⟩

theorem cons {t : Token} {ts : List Token} {reply : Reply α}
    (h : Viable (fun vs a => related (t :: vs) a) ts reply) : Viable related (t :: ts) reply :=
  behind [t] h

/-- What is known of the first token of the row is known of the first token of its completions. -/
theorem with_head {holds : Token → Prop} {ts : List Token} {reply : Reply α}
    (head : ∀ t ∈ ts.head?, holds t)
    (starts : Completable (fun us a => related us a ∧ ∀ t ∈ us.head?, holds t) [])
    (h : Viable related ts reply) :
    Viable (fun us a => related us a ∧ ∀ t ∈ us.head?, holds t) ts reply := by
  intro reason rest refused
  obtain ⟨used, rfl, points, more, a, plain, derived⟩ := h reason rest refused
  cases used with
  | nil => exact ⟨[], rfl, points, starts⟩
  | cons t used => exact ⟨t :: used, rfl, points, more, a, plain, derived, head⟩

end Reply.Viable

/-! ## Rows with marks around them -/

namespace Grammar

/-- Items with the token that closes them. -/
def ItemsUntil {α : Type} (close : Kind) (related : List Token → α → Prop) (us : List Token)
    (items : List α) : Prop :=
  ∃ vs closing, us = vs ++ [closing] ∧ closing.kind = close ∧ Items related vs items

/-- Something in parentheses. -/
def InParens {α : Type} (related : List Token → α → Prop) (us : List Token) (a : α) : Prop :=
  ∃ opening vs closing, us = opening :: (vs ++ [closing]) ∧ opening.kind = .openParen ∧
    closing.kind = .closeParen ∧ related vs a

/-- An expression with a semicolon. -/
def Line (us : List Token) (e : Expr) : Prop :=
  ∃ vs semicolon, us = vs ++ [semicolon] ∧ semicolon.kind = .semicolon ∧ Expression vs e

end Grammar

namespace Reader

open Grammar

variable {α β σ : Type}

/-- Something is accepted, and what the reader takes of a row that it refuses begins something accepted. -/
structure Viable (r : Reader α) (related : List Token → α → Prop) : Prop where
  starts : Completable related []
  refusal : ∀ ts, (∀ t ∈ ts, t.HasValue) → (r ts).Viable related ts

/-- Refusals of two readers in a row: the second one begins where the first one ends, and has to complete what
that took. -/
theorem viable_bind {r : Reader α} {next : α → Reader β} {related : List Token → α → Prop}
    {target : List Token → β → Prop} {ts : List Token} (values : ∀ t ∈ ts, t.HasValue)
    (first : (r ts).Viable related ts)
    (sound : ∀ a rest, r ts = .accept a rest → ∃ used, ts = used ++ rest ∧ related used a)
    (second : ∀ us a, related us a → Viable (next a) fun vs b => target (us ++ vs) b) :
    ((r >>= next) ts).Viable target ts := by
  show (andThen r next ts).Viable target ts
  unfold andThen
  cases reply : r ts with
  | accept a rest =>
    obtain ⟨us, rfl, derived⟩ := sound a rest reply
    exact ((second us a derived).refusal rest fun t member =>
      values t (List.mem_append_right us member)).behind us
  | refuse reason rest =>
    rintro _ _ ⟨⟩
    obtain ⟨used, split, points, completable⟩ := first reason rest reply
    exact ⟨used, split, points, completable.trans fun us a derived => .of_behind (second us a derived).starts⟩

namespace Viable

protected theorem pure {related : List Token → α → Prop} {a : α} (h : related [] a) :
    Viable (pure a) related :=
  ⟨.of_related h, fun ts _ => .accept a ts ts⟩

theorem bind {r : Reader α} {next : α → Reader β} {related : List Token → α → Prop}
    {target : List Token → β → Prop} (first : Viable r related) (sound : Sound r related)
    (second : ∀ us a, related us a → Viable (next a) fun vs b => target (us ++ vs) b) :
    Viable (r >>= next) target := by
  refine ⟨first.starts.trans fun us a derived => .of_behind (second us a derived).starts, fun ts values => ?_⟩
  exact viable_bind values (first.refusal ts values) (sound ts) second

theorem mono {r : Reader α} {related target : List Token → α → Prop} (h : Viable r related)
    (weaker : ∀ us a, related us a → target us a) : Viable r target := by
  have completable : ∀ {used}, Completable related used → Completable target used := fun h =>
    h.trans fun us a derived => .of_related (weaker us a derived)
  refine ⟨completable h.starts, fun ts values reason rest refused => ?_⟩
  obtain ⟨used, split, points, begins⟩ := h.refusal ts values reason rest refused
  exact ⟨used, split, points, completable begins⟩

/-- The reader behind a token that has been taken. -/
theorem after {r : Reader α} {related : List Token → α → Prop} {t : Token} {ts : List Token}
    (h : Viable r fun vs a => related (t :: vs) a) (values : ∀ u ∈ t :: ts, u.HasValue) :
    (r ts).Viable related (t :: ts) :=
  .cons (h.refusal ts fun u member => values u (List.mem_cons_of_mem t member))

theorem skip {next : Unit → Reader α} {related : List Token → α → Prop} {t : Token} {ts : List Token}
    (h : Viable (next ()) fun vs a => related (t :: vs) a) (values : ∀ u ∈ t :: ts, u.HasValue) :
    ((skip >>= next) (t :: ts)).Viable related (t :: ts) :=
  h.after values

/-- A reader whose value is only changed. -/
theorem bind_pure {r : Reader α} {g : α → β} {related : List Token → α → Prop}
    {target : List Token → β → Prop} (first : Viable r related)
    (h : ∀ us a, related us a → target us (g a)) : Viable (r >>= fun a => pure (g a)) target := by
  refine ⟨first.starts.trans fun us a derived => .of_related (h us a derived), fun ts values => ?_⟩
  show (andThen r _ ts).Viable target ts
  unfold andThen
  cases reply : r ts with
  | accept a rest => exact .accept _ _ _
  | refuse reason rest =>
    rintro _ _ ⟨⟩
    obtain ⟨used, split, points, completable⟩ := first.refusal ts values reason rest reply
    exact ⟨used, split, points, completable.trans fun us a derived => .of_related (h us a derived)⟩

/-- A reader that gives up has taken nothing. -/
theorem unroll_zero {f : (σ → Reader α) → σ → Reader α} {related : List Token → α → Prop}
    (starts : Completable related []) (s : σ) : Viable (unroll f 0 s) related :=
  ⟨starts, fun _ _ => .refuse starts fun _ => rfl⟩

theorem of_unroll {f : (σ → Reader α) → σ → Reader α} {related : List Token → α → Prop} {s : σ}
    (h : ∀ n, Viable (unroll f n s) related) : Viable (recurse f s) related :=
  ⟨(h 0).starts, fun ts => (h (ts.length + 1)).refusal ts⟩

/-- A reader that may call itself is viable if its step is viable as soon as the calls are. -/
theorem recurse {f : (σ → Reader α) → σ → Reader α} (related : σ → List Token → α → Prop)
    (starts : ∀ s, Completable (related s) [])
    (step : ∀ again : σ → Reader α, (∀ s, Viable (again s) (related s)) →
      ∀ s, Viable (f again s) (related s)) (s : σ) : Viable (recurse f s) (related s) := by
  refine of_unroll fun n => ?_
  induction n generalizing s with
  | zero => exact unroll_zero (starts s) s
  | succ n ih => exact step _ ih s

/-- The same for a step that needs its calls to be sound. -/
theorem recurse_sound {f : (Unit → Reader α) → Unit → Reader α} {related : List Token → α → Prop}
    (starts : Completable related [])
    (sound : ∀ again : Unit → Reader α, Sound (again ()) related → Sound (f again ()) related)
    (step : ∀ again : Unit → Reader α, Sound (again ()) related → Viable (again ()) related →
      Viable (f again ()) related) : Viable (Reader.recurse f ()) related := by
  have unrolled : ∀ n, Sound (unroll f n ()) related ∧ Viable (unroll f n ()) related := by
    intro n
    induction n with
    | zero => exact ⟨fun _ _ _ accepted => (by cases accepted), unroll_zero starts ()⟩
    | succ n ih => exact ⟨sound _ ih.1, step _ ih.1 ih.2⟩
  exact of_unroll fun n => (unrolled n).2

end Viable

/-! ## Expressions -/

theorem expect_viable (kind : Kind) (plain : kind.IsPlain) :
    Viable (expect kind) fun us t => us = [t] ∧ t.kind = kind := by
  have starts : Completable (fun us t => us = [t] ∧ t.kind = kind) [] := .of_sample kind plain ⟨rfl, rfl⟩
  refine ⟨starts, fun ts _ => ?_⟩
  cases ts with
  | nil => exact .refuse starts fun _ => rfl
  | cons t ts =>
    by_cases fits : t.kind = kind
    · simp only [expect, if_pos fits]
      exact .accept _ _ _
    · simp only [expect, if_neg fits]
      exact .refuse starts fun _ => rfl

theorem expect_sound (kind : Kind) : Sound (expect kind) fun us t => us = [t] ∧ t.kind = kind := by
  intro ts t rest accepted
  obtain ⟨rfl, fits⟩ := expect_eq_accept_iff.1 accepted
  exact ⟨[t], rfl, rfl, fits⟩

/-- A token of a fixed kind, and what comes behind it. -/
theorem Viable.expect_bind {kind : Kind} (plain : kind.IsPlain) {next : Token → Reader β}
    {target : List Token → β → Prop}
    (second : ∀ t, t.kind = kind → Viable (next t) fun vs b => target (t :: vs) b) :
    Viable (expect kind >>= next) target := by
  refine (expect_viable kind plain).bind (expect_sound kind) ?_
  rintro _ t ⟨rfl, fits⟩
  exact second t fits

theorem operations_viable {next : Reader Expr} {related : List Token → Expr → Prop}
    (inner : Viable next related) (sound : Sound next related) (operator? : Kind → Option BinaryOp)
    (left : Expr) : Viable (operations next operator? left) (Chain related operator? left) := by
  refine Viable.recurse (Chain related operator?) (fun _ => .of_related .nil) (fun again ih left => ?_) left
  refine ⟨.of_related .nil, fun ts values => ?_⟩
  cases ts with
  | nil => exact .accept _ _ _
  | cons t ts =>
    simp only [peek_bind, List.head?_cons, Option.bind_some]
    cases operator : operator? t.kind with
    | none => exact .accept _ _ _
    | some op =>
      refine Viable.skip (inner.bind sound fun us right operand => ?_) values
      exact (ih (.binary op left right)).mono fun vs whole chain => .cons operator operand chain

theorem moreItems_viable {item : Reader α} {related : List Token → α → Prop} (inner : Viable item related)
    (sound : Sound item related) : Viable (moreItems item) (MoreItems related) := by
  refine Viable.recurse (fun _ => MoreItems related) (fun _ => .of_related .nil) (fun again ih _ => ?_) ()
  refine ⟨.of_related .nil, fun ts values => ?_⟩
  rw [isNext_bind]
  split
  · next isComma =>
    cases ts with
    | nil => cases isComma
    | cons comma ts =>
      refine Viable.skip (inner.bind sound fun us a derived => ?_) values
      exact (ih ()).bind_pure fun vs as more => .cons (by simpa using isComma) derived more
  · exact .accept _ _ _

theorem itemsUntil_viable {item : Reader α} {related : List Token → α → Prop} (inner : Viable item related)
    (sound : Sound item related) {close : Kind} (plain : close.IsPlain) :
    Viable (itemsUntil close item) (ItemsUntil close related) := by
  have nonempty : Viable (do
      let first ← item
      let rest ← moreItems item
      let _ ← expect close
      return first :: rest) (ItemsUntil close related) := by
    refine inner.bind sound fun us a derived => ?_
    refine (moreItems_viable inner sound).bind (moreItems_sound sound) fun vs as more => ?_
    exact .expect_bind plain fun closing kind => .pure
      ⟨us ++ vs, closing, by simp, kind, .cons derived more⟩
  refine ⟨nonempty.starts, fun ts values => ?_⟩
  unfold itemsUntil
  rw [isNext_bind]
  split
  · exact .accept _ _ _
  · exact nonempty.refusal ts values

theorem operand_viable {inner : Reader Expr} (viable : Viable inner Expression)
    (sound : Sound inner Expression) : Viable (operand inner) Operand := by
  have starts : Completable Operand [] := .of_sample .identifier (by decide) (.name rfl)
  refine ⟨starts, fun ts values => ?_⟩
  cases ts with
  | nil => exact .refuse starts fun _ => rfl
  | cons t ts =>
    simp only [operand, peek_bind, List.head?_cons]
    cases kind : t.kind
    case number =>
      obtain ⟨⟨value, denotes⟩, -⟩ := values t List.mem_cons_self kind
      simp only [skip_bind, List.tail_cons, literal_accepts denotes]
      exact .accept _ _ _
    case string => exact .accept _ _ _
    case identifier =>
      simp only [skip_bind, List.tail_cons, isNext_bind]
      split
      · next isOpening =>
        cases ts with
        | nil => cases isOpening
        | cons opening ts =>
          rw [skip_bind, List.tail_cons]
          refine .behind [t, opening] (Viable.refusal ?_ ts fun u member => values u (by simp [member]))
          refine (itemsUntil_viable viable sound (by decide)).bind_pure ?_
          rintro _ args ⟨vs, closing, rfl, closed, items⟩
          exact .call kind (by simpa using isOpening) items closed
      · exact .accept _ _ _
    case openParen =>
      refine Viable.skip (viable.bind sound fun us e derived => ?_) values
      exact .expect_bind (by decide) fun closing closed => .pure (.parens kind derived closed)
    case openBracket =>
      refine Viable.skip ((itemsUntil_viable viable sound (by decide)).bind_pure ?_) values
      rintro _ items ⟨vs, closing, rfl, closed, derived⟩
      exact .list kind derived closed
    all_goals exact .refuse starts fun _ => rfl

theorem product_viable {inner : Reader Expr} (viable : Viable inner Expression)
    (sound : Sound inner Expression) : Viable (product inner) Product := by
  refine (operand_viable viable sound).bind (operand_sound sound) fun us first operand => ?_
  exact (operations_viable (operand_viable viable sound) (operand_sound sound) _ first).mono
    fun vs whole chain => .intro operand chain

theorem moreTerms_viable {inner : Reader Expr} (viable : Viable inner Expression)
    (sound : Sound inner Expression) (left : Expr) : Viable (moreTerms inner left) (Terms left) := by
  refine Viable.recurse Terms (fun _ => .of_related .nil) (fun again ih left => ?_) left
  refine ⟨.of_related .nil, fun ts values => ?_⟩
  cases ts with
  | nil => exact .accept _ _ _
  | cons t ts =>
    simp only [peek_bind, List.head?_cons]
    cases operator : t.kind.sum? with
    | some op =>
      refine Viable.skip ((product_viable viable sound).bind (product_sound sound) ?_) values
      exact fun us right product => (ih (.binary op left right)).mono fun vs whole terms =>
        .term operator product terms
    | none =>
      simp only
      split
      · next negative =>
        -- The literal cannot be what is refused, since every number of the row has a value.
        obtain ⟨value, denotes⟩ := (values t List.mem_cons_self negative.1).2 negative
        rw [skip_bind, List.tail_cons, bind_of_accept (literal_accepts denotes ts)]
        refine Viable.after ((operations_viable (operand_viable viable sound) (operand_sound sound) _ _).bind
          (operations_sound (operand_sound sound) _ _) ?_) values
        exact fun us right chain => (ih (.binary .sub left right)).mono fun vs whole terms =>
          .minus negative chain terms
      · exact .accept _ _ _

theorem sum_viable {inner : Reader Expr} (viable : Viable inner Expression)
    (sound : Sound inner Expression) : Viable (sum inner) Sum := by
  refine (product_viable viable sound).bind (product_sound sound) fun us first product => ?_
  exact (moreTerms_viable viable sound first).mono fun vs whole terms => .intro product terms

theorem comparison_viable {inner : Reader Expr} (viable : Viable inner Expression)
    (sound : Sound inner Expression) : Viable (comparison inner) Expression := by
  refine (sum_viable viable sound).bind (sum_sound sound) fun us first sum => ?_
  exact (operations_viable (sum_viable viable sound) (sum_sound sound) _ first).mono
    fun vs whole chain => .intro sum chain

theorem expression_viable : Viable expression Expression :=
  Viable.recurse_sound (.of_sample .identifier (by decide) (Operand.name rfl).expression)
    (fun _ sound => comparison_sound sound) fun _ sound viable => comparison_viable viable sound

/-! ## Statements -/

/-- A name, and what comes behind it. -/
theorem Viable.name_bind {next : Name → Reader β} {target : List Token → β → Prop}
    (second : ∀ t, t.kind = .identifier → Viable (next t.toName) fun vs b => target (t :: vs) b) :
    Viable (name >>= next) target := by
  have same : (name >>= next) = (expect .identifier >>= fun t => next t.toName) := by
    funext ts
    show andThen (andThen (expect .identifier) fun t => pure t.toName) next ts = andThen _ _ ts
    unfold andThen
    cases expect .identifier ts <;> rfl
  rw [same]
  exact .expect_bind (by decide) second

theorem typeAfterColon_viable : Viable typeAfterColon Annotation := by
  refine ⟨.of_related .none, fun ts values => ?_⟩
  unfold typeAfterColon
  rw [isNext_bind]
  split
  · next isColon =>
    cases ts with
    | nil => cases isColon
    | cons colon ts =>
      have starts : Completable (fun vs type => Annotation (colon :: vs) type) [] :=
        .of_sample .identifier (by decide) (.some (by simpa using isColon) rfl)
      simp only [skip_bind, List.tail_cons, peek_bind]
      refine .cons ?_
      cases ts with
      | nil => exact .refuse starts fun _ => rfl
      | cons t ts =>
        simp only [List.head?_cons]
        split
        · exact .accept _ _ _
        · exact .refuse starts fun _ => rfl
  · exact .accept _ _ _

theorem param_viable : Viable param Parameter :=
  .name_bind fun _ kind => typeAfterColon_viable.bind_pure fun _ _ typing => .intro kind typing

theorem params_viable : Viable params (InParens (Items Parameter)) := by
  refine .expect_bind (by decide) fun opening openingKind => ?_
  refine (itemsUntil_viable param_viable param_sound (by decide)).mono ?_
  rintro _ ps ⟨vs, closing, rfl, closingKind, items⟩
  exact ⟨opening, vs, closing, rfl, openingKind, closingKind, items⟩

theorem params_encloses : Sound params (InParens (Items Parameter)) := by
  intro ts ps rest h
  obtain ⟨opening, us, closing, rfl, enclosed⟩ := params_sound h
  exact ⟨opening :: (us ++ [closing]), by simp, opening, us, closing, rfl, enclosed⟩

theorem inParens_viable : Viable inParens (InParens Expression) := by
  refine .expect_bind (by decide) fun opening openingKind => ?_
  refine expression_viable.bind expression_sound fun vs e derived => ?_
  exact .expect_bind (by decide) fun closing closingKind => .pure
    ⟨opening, vs, closing, rfl, openingKind, closingKind, derived⟩

theorem inParens_encloses : Sound inParens (InParens Expression) := by
  intro ts e rest h
  obtain ⟨opening, us, closing, rfl, enclosed⟩ := inParens_sound h
  exact ⟨opening :: (us ++ [closing]), by simp, opening, us, closing, rfl, enclosed⟩

theorem expressionLine_viable : Viable expressionLine Line := by
  refine expression_viable.bind expression_sound fun vs e derived => ?_
  exact .expect_bind (by decide) fun semicolon kind => .pure ⟨vs, semicolon, rfl, kind, derived⟩

theorem statementsUntilBrace_viable {inner : Reader Stmt} (viable : Viable inner Statement)
    (sound : Sound inner Statement) : Viable (statementsUntilBrace inner) (Sequence Statement) := by
  refine Viable.recurse (fun _ => Sequence Statement) (fun _ => .of_related .nil) (fun again ih _ => ?_) ()
  have goesOn : Viable (do
      let first ← inner
      let rest ← again ()
      return first :: rest) (Sequence Statement) :=
    viable.bind sound fun us first derived => (ih ()).bind_pure fun vs rest more => .cons derived more
  refine ⟨.of_related .nil, fun ts values => ?_⟩
  cases ts with
  | nil => exact .accept _ _ _
  | cons t ts =>
    simp only [peek_bind, List.head?_cons]
    split
    · exact .accept _ _ _
    · exact goesOn.refusal (t :: ts) values

theorem block_viable {inner : Reader Stmt} (viable : Viable inner Statement)
    (sound : Sound inner Statement) : Viable (block inner) Block := by
  refine .expect_bind (by decide) fun opening openingKind => ?_
  refine (statementsUntilBrace_viable viable sound).bind (statementsUntilBrace_sound sound)
    fun us body derived => ?_
  exact .expect_bind (by decide) fun closing closingKind => .pure (.intro openingKind derived closingKind)

theorem declaration_viable {keyword : Token} (kind : keyword.kind = .letKeyword) :
    Viable declaration fun vs s => Statement (keyword :: vs) s := by
  refine .name_bind fun t nameKind => ?_
  refine typeAfterColon_viable.bind typeAfterColon_sound fun us type typing => ?_
  refine .expect_bind (by decide) fun equals equalsKind => expressionLine_viable.bind_pure ?_
  rintro _ value ⟨vs, semicolon, rfl, semicolonKind, derived⟩
  exact .declare kind nameKind typing equalsKind derived semicolonKind

theorem functionDeclaration_viable {inner : Reader Stmt} (viable : Viable inner Statement)
    (sound : Sound inner Statement) {keyword : Token} (kind : keyword.kind = .fnKeyword) :
    Viable (functionDeclaration inner) fun vs s => Statement (keyword :: vs) s := by
  refine .name_bind fun t nameKind => ?_
  refine params_viable.bind params_encloses ?_
  rintro _ ps ⟨opening, us, closing, rfl, openingKind, closingKind, items⟩
  refine typeAfterColon_viable.bind typeAfterColon_sound fun vs result typing => ?_
  refine (block_viable viable sound).bind_pure fun ws body derived => ?_
  simpa using Statement.function kind nameKind openingKind items closingKind typing derived

theorem branch_viable {inner : Reader Stmt} (viable : Viable inner Statement)
    (sound : Sound inner Statement) {keyword : Token} (kind : keyword.kind = .ifKeyword) :
    Viable (branch inner) fun vs s => Statement (keyword :: vs) s := by
  refine inParens_viable.bind inParens_encloses ?_
  rintro _ condition ⟨opening, us, closing, rfl, openingKind, closingKind, derived⟩
  refine (block_viable viable sound).bind (block_sound sound) fun vs yes yesBlock => ?_
  have withoutElse := Statement.branch kind openingKind derived closingKind yesBlock
  refine ⟨.of_related (by simpa using withoutElse), fun ts values => ?_⟩
  rw [isNext_bind]
  split
  · next isElse =>
    cases ts with
    | nil => cases isElse
    | cons otherwise ts =>
      refine Viable.skip ((block_viable viable sound).bind_pure fun ws no noBlock => ?_) values
      simpa using Statement.branchElse kind openingKind derived closingKind yesBlock
        (by simpa using isElse) noBlock
  · exact .accept _ _ _

/-- An expression and a block behind it, in a row whose first token is known to differ from some. -/
theorem expression_block_viable {inner : Reader Stmt} (viable : Viable inner Statement)
    (sound : Sound inner Statement) {p : Token → Prop} (sample : p Kind.identifier.sample)
    {build : Expr → List Stmt → Stmt} {target : List Token → Stmt → Prop}
    (made : ∀ us e vs body, Expression us e → (∀ t ∈ us.head?, p t) → Block vs body →
      target (us ++ vs) (build e body))
    {ts : List Token} (head : ∀ t ∈ ts.head?, p t) (values : ∀ t ∈ ts, t.HasValue) :
    ((do
      let e ← expression
      let body ← block inner
      return build e body : Reader Stmt) ts).Viable target ts := by
  refine viable_bind values ((expression_viable.refusal ts values).with_head head
    (.of_sample .identifier (by decide) ⟨(Operand.name rfl).expression, by simpa using sample⟩)) ?_ ?_
  · intro e rest accepted
    obtain ⟨us, rfl, derived⟩ := expression_sound _ _ _ accepted
    refine ⟨us, rfl, derived, fun t first => head t ?_⟩
    cases us with
    | nil => cases first
    | cons u us => exact first
  · rintro us e ⟨derived, first⟩
    exact (block_viable viable sound).bind_pure fun vs body blocked => made us e vs body derived first blocked

theorem conditionLoop_viable {inner : Reader Stmt} (viable : Viable inner Statement)
    (sound : Sound inner Statement) {keyword : Token} (kind : keyword.kind = .whileKeyword) :
    Viable (conditionLoop inner) fun vs s => Statement (keyword :: vs) s := by
  have parens : Viable (do
      let condition ← inParens
      let body ← block inner
      return .loop condition body) fun vs s => Statement (keyword :: vs) s := by
    refine inParens_viable.bind inParens_encloses ?_
    rintro _ condition ⟨opening, us, closing, rfl, openingKind, closingKind, derived⟩
    refine (block_viable viable sound).bind_pure fun vs body blocked => ?_
    simpa using Statement.loopParens kind openingKind derived closingKind blocked
  refine ⟨parens.starts, fun ts values => ?_⟩
  unfold conditionLoop
  rw [isNext_bind]
  split
  · exact parens.refusal ts values
  · next noParens =>
    refine expression_block_viable viable sound (p := fun t => t.kind ≠ .openParen) (by decide)
      (fun us e vs body derived first blocked => .loop kind derived first blocked) ?_ values
    intro t first same
    exact noParens (by simp [Option.mem_def.1 first, same])

theorem listLoop_viable {inner : Reader Stmt} (viable : Viable inner Statement)
    (sound : Sound inner Statement) {keyword : Token} (kind : keyword.kind = .forKeyword) :
    Viable (listLoop inner) fun vs s => Statement (keyword :: vs) s := by
  -- A completion that starts with `in` would have it skipped, and the list would be missing.
  have notIn : ¬ IsIn Kind.identifier.sample := fun isIn => absurd isIn.2 (by decide)
  refine .name_bind fun t nameKind => ⟨?_, fun ts values => ?_⟩
  · have body : Block [Kind.openBrace.sample, Kind.closeBrace.sample] [] := .intro rfl .nil rfl
    have bare := Statement.each kind nameKind (Operand.name rfl).expression (by simpa using notIn) body
    exact ⟨_, _, by decide, bare⟩
  · by_cases isIn : ∃ word ∈ ts.head?, IsIn word
    · obtain ⟨word, first, isIn⟩ := isIn
      obtain ⟨rest, rfl⟩ := List.head?_eq_some_iff.1 first
      rw [bind_of_accept (skipIn_accepts isIn rest)]
      refine .cons (expression_block_viable viable sound (p := fun _ => True) trivial ?_ (fun _ _ => trivial)
        fun u member => values u (List.mem_cons_of_mem word member))
      exact fun us e vs body derived _ blocked => .eachIn kind nameKind isIn derived blocked
    · have differs : ∀ word ∈ ts.head?, ¬ IsIn word := fun word first same => isIn ⟨word, first, same⟩
      rw [bind_of_accept (skipIn_of_not differs)]
      refine expression_block_viable viable sound (p := fun word => ¬ IsIn word) notIn ?_ differs values
      exact fun us e vs body derived first blocked => .each kind nameKind derived first blocked

theorem assignment_viable : Viable assignment Statement := by
  refine .name_bind fun t nameKind => .expect_bind (by decide) fun equals equalsKind =>
    expressionLine_viable.bind_pure ?_
  rintro _ value ⟨us, semicolon, rfl, semicolonKind, derived⟩
  exact .assign nameKind equalsKind derived semicolonKind

theorem printing_viable {keyword : Token} {newline : Bool} (kind : PrintWord keyword.kind newline) :
    Viable (printing newline) fun vs s => Statement (keyword :: vs) s := by
  refine inParens_viable.bind inParens_encloses ?_
  rintro _ value ⟨opening, us, closing, rfl, openingKind, closingKind, derived⟩
  refine .expect_bind (by decide) fun semicolon semicolonKind => .pure ?_
  simpa using Statement.print kind openingKind derived closingKind semicolonKind

theorem evalLine_viable : Viable (do return Stmt.eval (← expressionLine)) Statement := by
  refine expressionLine_viable.bind_pure ?_
  rintro _ value ⟨us, semicolon, rfl, semicolonKind, derived⟩
  exact .eval derived semicolonKind

theorem statementWith_viable {inner : Reader Stmt} (viable : Viable inner Statement)
    (sound : Sound inner Statement) : Viable (statementWith inner) Statement := by
  refine ⟨evalLine_viable.starts, fun ts values => ?_⟩
  unfold statementWith
  rw [peek_bind]
  cases ts with
  | nil => exact evalLine_viable.refusal [] values
  | cons t ts =>
    rw [List.head?_cons, Option.map_some]
    cases kind : t.kind
    case letKeyword => exact Viable.skip (declaration_viable kind) values
    case fnKeyword => exact Viable.skip (functionDeclaration_viable viable sound kind) values
    case ifKeyword => exact Viable.skip (branch_viable viable sound kind) values
    case whileKeyword => exact Viable.skip (conditionLoop_viable viable sound kind) values
    case forKeyword => exact Viable.skip (listLoop_viable viable sound kind) values
    case printKeyword => exact Viable.skip (printing_viable (kind ▸ .print)) values
    case printlnKeyword => exact Viable.skip (printing_viable (kind ▸ .println)) values
    case returnKeyword =>
      refine Viable.skip (expressionLine_viable.bind_pure ?_) values
      rintro _ value ⟨us, semicolon, rfl, semicolonKind, derived⟩
      exact .giveBack kind derived semicolonKind
    case identifier =>
      simp only [peekSecond_bind]
      split
      · exact assignment_viable.refusal _ values
      · exact evalLine_viable.refusal _ values
    all_goals exact evalLine_viable.refusal _ values

theorem statement_viable : Viable statement Statement :=
  Viable.recurse_sound evalLine_viable.starts (fun _ sound => statementWith_sound sound)
    fun _ sound viable => statementWith_viable viable sound

theorem program_viable : Viable program Statements := by
  refine Viable.recurse (fun _ => Statements) (fun _ => .of_related .nil) (fun again ih _ => ?_) ()
  refine ⟨.of_related .nil, fun ts values => ?_⟩
  cases ts with
  | nil => exact .accept _ _ _
  | cons t ts =>
    have goesOn : Viable (do
        let first ← statement
        let rest ← again ()
        return first :: rest) Statements :=
      statement_viable.bind statement_sound fun us first derived =>
        (ih ()).bind_pure fun vs rest more => .cons derived more
    exact goesOn.refusal (t :: ts) values

end Reader
end ToraCompiler
