import ToraCompiler.Proofs.Tree.FirstOffence
import ToraCompiler.Proofs.Tree.LoopCondition
import ToraCompiler.Tree.Walk

/-!
# Walks and readers give the same results

A walk tracks a reader if it gives, from any position up to the first end token, what the reader replies to
the tokens from there to the end token, and stops in front of the tokens that the reader leaves
(`Walk.Tracks`).  So a walk that tracks a reader ends, cuts no text where it cannot be cut, and depends on
nothing behind the end token: the reader has never seen that.

Walks and readers are built alike, and the relation passes through every way of building them.  A walk calls
itself without a bound, and the reader is unrolled; the number in the relation bounds the tokens that are left,
and a walk that goes over a token before it calls itself tracks one unrolling more
(`Walk.Tracks.recurse`).  The only assumption is about the tokens before the end: the text of a string token
stands between quotes.

The relation says one thing more, about readers alone: a number is refused only in a row where one has no value
(`Row.Grounded`).  It has the same cases.
-/

namespace ToraCompiler

/-! ## Refusals at the end -/

/-- Refusals with the same words and the same place say the same. -/
theorem Refusal.diagnostic_congr {reason reason' : Refusal} {finish : Position}
    (words : reason.message = reason'.message) (place : reason.place finish = reason'.place finish) :
    reason.diagnostic finish = reason'.diagnostic finish := by
  unfold diagnostic
  rw [words, place]

/-- An end token is called what a missing token is called. -/
theorem Refusal.foundLabel_end {t : Token} (isEnd : t.kind = .endOfInput) :
    foundLabel (some t) = foundLabel none := by
  unfold foundLabel
  rw [Option.map_some, isEnd]
  rfl

theorem Refusal.diagnostic_expected_end {t : Token} (isEnd : t.kind = .endOfInput) (kind : Kind) :
    (expected kind (some t)).diagnostic t.position = (expected kind none).diagnostic t.position :=
  diagnostic_congr (congrArg ("Expected " ++ kind.label ++ ", got " ++ ·) (foundLabel_end isEnd)) rfl

theorem Refusal.diagnostic_expectedType_end {t : Token} (isEnd : t.kind = .endOfInput) :
    (expectedType (some t)).diagnostic t.position = (expectedType none).diagnostic t.position :=
  diagnostic_congr (congrArg ("Expected type, got " ++ ·) (foundLabel_end isEnd)) rfl

/-! ## Number tokens -/

theorem Token.not_hasValue_of_none {t : Token} (isNumber : t.kind = .number)
    (noValue : Number.ofLiteral? t.text = none) : ¬ t.HasValue := by
  intro values
  obtain ⟨value, has⟩ := (values isNumber).1
  rw [noValue] at has
  cases has

theorem Token.not_hasValue_of_magnitude {t : Token} (negative : t.isNegativeNumber)
    (noValue : Number.ofLiteral? t.dropFirst.text = none) : ¬ t.HasValue := by
  intro values
  obtain ⟨value, has⟩ := (values negative.1).2 negative
  rw [noValue] at has
  cases has

/-- A minus at the start can be cut off. -/
theorem Token.slice?_dropFirst {t : Token} (negative : t.isNegativeNumber) :
    slice? t.text 1 t.text.utf8ByteSize = some t.dropFirst.text := by
  obtain ⟨digits, text⟩ := List.head?_eq_some_iff.1 negative.2
  rw [slice?_behind (by decide) text, dropFirst, text, List.tail_cons]

/-! ## Rows up to their first end -/

namespace Row

variable {row : Row} {p : Nat} {t : Token} {ts : List Token}

/-- The tokens from a position up to the first end token. -/
def window (row : Row) (p : Nat) : List Token :=
  (tokensBeforeEnd row.tokens).drop p

/-- What a reader replies to the tokens up to the first end token, as an outcome with a position. -/
def settled {α : Type} (row : Row) : Reply α → Except Diagnostic α × Nat
  | .accept a rest => (.ok a, row.finish - rest.length)
  | .refuse reason rest =>
    (.error (reason.diagnostic (row.token row.finish).position), row.finish - rest.length)

/-- A number is refused only if a token up to the first end token has no value. -/
def Grounded (row : Row) (reason : Refusal) : Prop :=
  ∀ text place, reason = .badNumber text place → ∃ t ∈ tokensBeforeEnd row.tokens, ¬ t.HasValue

theorem tokensBeforeEnd_eq_take (row : Row) : tokensBeforeEnd row.tokens = row.tokens.take row.finish := by
  unfold tokensBeforeEnd finish
  rw [List.takeWhile_eq_take_findIdx_not]
  simp

theorem finish_lt (row : Row) : row.finish < row.tokens.length := by
  obtain ⟨t, isLast, kind⟩ := row.ended
  refine List.findIdx_lt_length_of_exists ⟨t, List.mem_of_getLast? isLast, by simpa using kind⟩

theorem length_tokensBeforeEnd (row : Row) : (tokensBeforeEnd row.tokens).length = row.finish := by
  rw [tokensBeforeEnd_eq_take, List.length_take, Nat.min_eq_left row.finish_lt.le]

theorem length_window (row : Row) (p : Nat) : (row.window p).length = row.finish - p := by
  rw [window, List.length_drop, length_tokensBeforeEnd]

theorem token_eq (inRow : p < row.tokens.length) : row.token p = row.tokens[p] := by
  have clamped : min p (row.tokens.length - 1) = p := by omega
  simp only [token, List.get_eq_getElem, clamped]

theorem kind_token_finish (row : Row) : (row.token row.finish).kind = .endOfInput := by
  rw [token_eq row.finish_lt]
  exact of_decide_eq_true (List.findIdx_getElem (w := row.finish_lt))

/-- The window starts with the token at its position. -/
theorem token_of_window (starts : row.window p = t :: ts) :
    row.token p = t ∧ t ∈ tokensBeforeEnd row.tokens ∧ row.window (p + 1) = ts ∧ p < row.finish := by
  have within : p < row.finish := by
    have := row.length_window p
    rw [starts, List.length_cons] at this
    omega
  have first : (tokensBeforeEnd row.tokens)[p]? = some t := by
    rw [← List.head?_drop]
    exact congrArg List.head? starts
  refine ⟨?_, List.mem_of_getElem? first, ?_, within⟩
  · rw [tokensBeforeEnd_eq_take, List.getElem?_take_of_lt within] at first
    rw [token_eq (within.trans row.finish_lt)]
    exact (List.getElem?_eq_some_iff.1 first).2
  · rw [window, ← List.tail_drop]
    exact congrArg List.tail starts

/-- At the end of its window, a position is that of the first end token. -/
theorem eq_finish_of_window (inRange : p ≤ row.finish) (empty : row.window p = []) : p = row.finish := by
  have := row.length_window p
  rw [empty, List.length_nil] at this
  omega

/-- The tokens that are left of a window are a window again. -/
theorem window_of_suffix (suffix : ts <:+ row.window p) : row.window (row.finish - ts.length) = ts := by
  rw [window, ← length_tokensBeforeEnd]
  exact (List.suffix_iff_eq_drop.1 (suffix.trans (List.drop_suffix p _))).symm

end Row

namespace Walk

variable {α β σ : Type} {row : Row} {n : Nat}

/-! ## Single steps -/

theorem result?_bind (w : Walk α) (next : α → Walk β) (p : Nat) :
    (w >>= next).result? p = (w.result? p).bind fun
      | (.ok a, q) => (next a).result? q
      | (.error d, q) => some (.error d, q) := by
  show (w p).bind _ = (w p).bind _
  cases w p with
  | none => rfl
  | some reply =>
    obtain ⟨outcome, q⟩ := reply
    cases outcome <;> rfl

theorem result?_current_bind (next : Token → Walk β) (row : Row) (p : Nat) :
    (row.current >>= next).result? p = (next (row.token p)).result? p := rfl

theorem result?_following_bind (next : Token → Walk β) (row : Row) (p : Nat) :
    (row.following >>= next).result? p = (next (row.token (p + 1))).result? p := rfl

theorem result?_advance {row : Row} {p : Nat} (goesOn : (row.token p).kind ≠ .endOfInput) :
    row.advance.result? p = some (.ok (row.token p), p + 1) := by
  unfold Row.advance
  rw [result?_current_bind, if_pos goesOn]
  rfl

theorem result?_expect {kind : Kind} {row : Row} {p : Nat} (fits : (row.token p).kind = kind)
    (goesOn : kind ≠ .endOfInput) : (row.expect kind).result? p = some (.ok (row.token p), p + 1) := by
  unfold Row.expect
  rw [result?_current_bind, if_pos fits, result?_advance (fits ▸ goesOn)]

theorem cut_eq_pure {text part : String} {low high : Nat} (inRange : slice? text low high = some part) :
    cut text low high = pure part := by
  unfold cut
  rw [inRange]
  rfl

/-! ## The relation -/

/-- From the position on, the walk gives what the reader replies to the tokens up to the first end token.  The
reader gives back no token that it was not given, and refuses a number only where one has no value. -/
structure TracksFrom (row : Row) (p : Nat) (w : Walk α) (r : Reader α) : Prop where
  shrinks : (r (row.window p)).rest <:+ row.window p
  result : w.result? p = some (row.settled (r (row.window p)))
  grounded : ∀ reason rest, r (row.window p) = .refuse reason rest → row.Grounded reason

/-- The walk tracks the reader from every position up to the first end token with fewer than `n` tokens left. -/
def Tracks (row : Row) (n : Nat) (w : Walk α) (r : Reader α) : Prop :=
  ∀ p, p ≤ row.finish → (row.window p).length < n → TracksFrom row p w r

/-- The same from the positions of the token `t`. -/
def TracksAt (row : Row) (t : Token) (n : Nat) (w : Walk α) (r : Reader α) : Prop :=
  ∀ p ts, row.window p = t :: ts → ts.length + 1 < n → TracksFrom row p w r

theorem Tracks.at {w : Walk α} {r : Reader α} (h : Tracks row n w r) (t : Token) : TracksAt row t n w r :=
  fun p _ starts short => h p (Row.token_of_window starts).2.2.2.le (by rwa [starts])

theorem TracksAt.mono {m : Nat} {t : Token} {w : Walk α} {r : Reader α} (h : TracksAt row t n w r)
    (le : m ≤ n) : TracksAt row t m w r :=
  fun p ts starts short => h p ts starts (Nat.lt_of_lt_of_le short le)

/-- Behind the token that the walk goes over, fewer tokens are left. -/
theorem TracksAt.over {t : Token} {step : Walk Token} {next : Token → Walk β} {next' : Unit → Reader β}
    (goesOver : ∀ p, row.token p = t → step.result? p = some (.ok t, p + 1))
    (h : Tracks row n (next t) (next' ())) :
    TracksAt row t (n + 1) (step >>= next) (Reader.skip >>= next') := by
  intro p ts starts short
  obtain ⟨isFirst, -, behind, within⟩ := Row.token_of_window starts
  have tracks := h (p + 1) within (by rw [behind]; exact Nat.lt_of_succ_lt_succ short)
  refine ⟨?_, ?_, ?_⟩
  · rw [Reader.skip_bind, starts, List.tail_cons, ← behind]
    exact tracks.shrinks.trans (by rw [behind]; exact List.suffix_cons t ts)
  · rw [result?_bind, goesOver p isFirst, Option.bind_some, Reader.skip_bind, starts, List.tail_cons,
      ← behind]
    exact tracks.result
  · rw [Reader.skip_bind, starts, List.tail_cons, ← behind]
    exact tracks.grounded

theorem TracksAt.advance {t : Token} {next : Token → Walk β} {next' : Unit → Reader β}
    (member : t ∈ tokensBeforeEnd row.tokens) (h : Tracks row n (next t) (next' ())) :
    TracksAt row t (n + 1) (row.advance >>= next) (Reader.skip >>= next') := by
  refine .over (fun p isFirst => ?_) h
  rw [result?_advance (by rw [isFirst]; exact kind_ne_of_mem_tokensBeforeEnd member), isFirst]

theorem TracksAt.expect {t : Token} {kind : Kind} {next : Token → Walk β} {next' : Unit → Reader β}
    (member : t ∈ tokensBeforeEnd row.tokens) (fits : t.kind = kind) (h : Tracks row n (next t) (next' ())) :
    TracksAt row t (n + 1) (row.expect kind >>= next) (Reader.skip >>= next') := by
  refine .over (fun p isFirst => ?_) h
  have goesOn : kind ≠ .endOfInput := fits ▸ kind_ne_of_mem_tokensBeforeEnd member
  rw [result?_expect (by rw [isFirst, fits]) goesOn, isFirst]

/-- The token behind `t` decides. -/
theorem TracksAt.following {t : Token} {kind : Kind} (notEnd : kind ≠ .endOfInput) {yes no : Walk β}
    {r yes' no' : Reader β} (tracksYes : TracksAt row t n yes yes') (tracksNo : TracksAt row t n no no')
    (ifYes : ∀ ts, ts.head?.any (·.kind = kind) → r (t :: ts) = yes' (t :: ts))
    (ifNo : ∀ ts, ¬ ts.head?.any (·.kind = kind) → r (t :: ts) = no' (t :: ts)) :
    TracksAt row t n (row.following >>= fun u => if u.kind = kind then yes else no) r := by
  intro p ts starts short
  obtain ⟨-, -, behind, within⟩ := Row.token_of_window starts
  have same : (row.token (p + 1)).kind = kind ↔ ts.head?.any (·.kind = kind) := by
    cases ts with
    | nil =>
      have isEnd := Row.kind_token_finish row
      rw [← Row.eq_finish_of_window within behind] at isEnd
      simp [isEnd, notEnd.symm]
    | cons u us => simp [(Row.token_of_window behind).1]
  by_cases fits : ts.head?.any (·.kind = kind)
  · obtain ⟨shrinks, result, grounded⟩ := tracksYes p ts starts short
    rw [starts, ← ifYes ts fits, ← starts] at shrinks result grounded
    refine ⟨shrinks, ?_, grounded⟩
    rw [result?_following_bind, if_pos (same.2 fits), result]
  · obtain ⟨shrinks, result, grounded⟩ := tracksNo p ts starts short
    rw [starts, ← ifNo ts fits, ← starts] at shrinks result grounded
    refine ⟨shrinks, ?_, grounded⟩
    rw [result?_following_bind, if_neg (mt same.1 fits), result]

namespace Tracks

/-! ## Ways of building walks -/

theorem mono {m : Nat} {w : Walk α} {r : Reader α} (h : Tracks row n w r) (le : m ≤ n) : Tracks row m w r :=
  fun p inRange short => h p inRange (Nat.lt_of_lt_of_le short le)

/-- A walk that stays where it is tracks a reader that leaves all tokens and settles for the same outcome. -/
theorem of_stays {w : Walk α} {r : Reader α} (outcome : Except Diagnostic α)
    (stays : ∀ p, w.result? p = some (outcome, p))
    (replies : ∀ ts, row.settled (r ts) = (outcome, row.finish - ts.length) ∧ (r ts).rest = ts ∧
      ∀ reason rest, r ts = .refuse reason rest → row.Grounded reason) (n : Nat) : Tracks row n w r := by
  intro p inRange _
  obtain ⟨settles, left, grounded⟩ := replies (row.window p)
  have back : row.finish - (row.window p).length = p := by
    rw [Row.length_window]
    omega
  refine ⟨left.symm ▸ List.suffix_rfl, ?_, grounded⟩
  rw [stays, settles, back]

protected theorem pure (n : Nat) (a : α) : Tracks row n (pure a) (pure a) :=
  of_stays (.ok a) (fun _ => rfl) (fun _ => ⟨rfl, rfl, fun _ _ refused => by cases refused⟩) n

/-- A refusal at a token tracks a refusal of the reader that says the same. -/
theorem refuse (n : Nat) {reason reason' : Refusal} {t : Token} (grounded : row.Grounded reason')
    (same : reason.diagnostic t.position = reason'.diagnostic (row.token row.finish).position) :
    Tracks row n (refuse reason t : Walk α) (Reader.refuse reason') := by
  refine of_stays (.error (reason.diagnostic t.position)) (fun _ => rfl) (fun _ => ⟨?_, rfl, ?_⟩) n
  · rw [same]
    rfl
  · rintro _ _ ⟨⟩
    exact grounded

/-- The second walk only has to deal with the tokens that the first one leaves. -/
theorem bind_of_left {m : Nat} {w : Walk α} {r : Reader α} {next : α → Walk β} {next' : α → Reader β}
    (first : Tracks row n w r) (second : ∀ a, Tracks row m (next a) (next' a))
    (left : ∀ ts a rest, r ts = .accept a rest → rest <:+ ts → rest.length + n ≤ ts.length + m) :
    Tracks row n (w >>= next) (r >>= next') := by
  intro p inRange short
  obtain ⟨shrinks, result, grounded⟩ := first p inRange short
  cases reply : r (row.window p) with
  | refuse reason rest =>
    have stopped : (r >>= next') (row.window p) = .refuse reason rest := Reader.bind_of_refuse reply next'
    rw [reply] at shrinks result grounded
    refine ⟨by rwa [stopped], ?_, ?_⟩
    · rw [result?_bind, result, stopped]
      rfl
    · rw [stopped]
      rintro _ _ ⟨⟩
      exact grounded _ _ rfl
  | accept a rest =>
    rw [reply, Reply.rest_accept] at shrinks
    rw [reply] at result
    have shorter := left _ _ _ reply shrinks
    have behind := Row.window_of_suffix shrinks
    have goesOn := Reader.bind_of_accept reply next'
    obtain ⟨shrinks', result', grounded'⟩ :=
      second a (row.finish - rest.length) (Nat.sub_le _ _) (by rw [behind]; omega)
    rw [behind] at shrinks' result' grounded'
    refine ⟨?_, ?_, ?_⟩
    · rw [goesOn]
      exact shrinks'.trans shrinks
    · rw [result?_bind, result, goesOn]
      exact result'
    · rw [goesOn]
      exact grounded'

theorem bind {w : Walk α} {r : Reader α} {next : α → Walk β} {next' : α → Reader β}
    (first : Tracks row n w r) (second : ∀ a, Tracks row n (next a) (next' a)) :
    Tracks row n (w >>= next) (r >>= next') :=
  first.bind_of_left second fun _ _ _ _ suffix => Nat.add_le_add_right suffix.length_le n

/-- Behind a walk that goes over a token, fewer tokens are left. -/
theorem bind_of_takes {m : Nat} {w : Walk α} {r : Reader α} {next : α → Walk β} {next' : α → Reader β}
    (first : Tracks row n w r) (takes : Reader.Takes r) (second : ∀ a, Tracks row m (next a) (next' a))
    (le : n ≤ m + 1) : Tracks row n (w >>= next) (r >>= next') := by
  refine first.bind_of_left second fun ts a rest accepted _ => ?_
  have := takes ts a rest accepted
  omega

/-- At a token, the reader has the token; at the end, it has none. -/
theorem current {next : Token → Walk β} {next' : Option Token → Reader β}
    (ended : Tracks row n (next (row.token row.finish)) (next' none))
    (h : ∀ t ∈ tokensBeforeEnd row.tokens, TracksAt row t n (next t) (next' (some t))) :
    Tracks row n (row.current >>= next) (Reader.peek >>= next') := by
  intro p inRange short
  cases starts : row.window p with
  | nil =>
    obtain rfl := Row.eq_finish_of_window inRange starts
    obtain ⟨shrinks, result, grounded⟩ := ended _ inRange short
    refine ⟨?_, ?_, ?_⟩ <;> rw [starts] at *
    · exact shrinks
    · exact result
    · exact grounded
  | cons t ts =>
    obtain ⟨isFirst, member, -, -⟩ := Row.token_of_window starts
    obtain ⟨shrinks, result, grounded⟩ := h t member p ts starts (by rwa [starts] at short)
    refine ⟨?_, ?_, ?_⟩
    · rw [Reader.peek_bind, starts]
      rwa [starts] at shrinks
    · rw [result?_current_bind, isFirst, result, Reader.peek_bind, starts]
      rfl
    · rw [Reader.peek_bind, starts]
      rwa [starts] at grounded

theorem isAt {kind : Kind} (notEnd : kind ≠ .endOfInput) {next : Bool → Walk β} {next' : Bool → Reader β}
    (no : Tracks row n (next false) (next' false))
    (yes : ∀ t ∈ tokensBeforeEnd row.tokens, t.kind = kind → TracksAt row t n (next true) (next' true)) :
    Tracks row n (row.isAt kind >>= next) (Reader.isNext kind >>= next') := by
  have ended : decide ((row.token row.finish).kind = kind) = false := by
    rw [Row.kind_token_finish]
    exact decide_eq_false notEnd.symm
  show Tracks row n (row.current >>= fun t => next (decide (t.kind = kind)))
    (Reader.peek >>= fun t => next' (t.any (·.kind = kind)))
  refine .current ?_ fun t member => ?_
  · rw [ended]
    exact no
  · by_cases fits : t.kind = kind
    · simpa [fits] using yes t member fits
    · simpa [fits] using no.at t

theorem expect (n : Nat) {kind : Kind} (notEnd : kind ≠ .endOfInput) :
    Tracks row n (row.expect kind) (Reader.expect kind) := by
  have looks : Reader.expect kind = Reader.peek >>= fun found =>
      found.elim (Reader.refuse (.expected kind none)) fun t =>
        if t.kind = kind then Reader.skip >>= fun _ => pure t
        else Reader.refuse (.expected kind (some t)) := by
    funext ts
    cases ts with
    | nil => rfl
    | cons t ts =>
      show (if t.kind = kind then _ else _) = (if t.kind = kind then _ else _ : Reader Token) (t :: ts)
      split <;> rfl
  have ended : ¬ (row.token row.finish).kind = kind := by
    rw [Row.kind_token_finish]
    exact notEnd.symm
  rw [looks]
  refine .current ?_ fun t member => ?_
  · simp only [if_neg ended]
    exact .refuse n (by rintro _ _ ⟨⟩) (Refusal.diagnostic_expected_end row.kind_token_finish kind)
  · by_cases fits : t.kind = kind
    · simp only [if_pos fits, Option.elim_some]
      rw [← bind_pure row.advance]
      exact (TracksAt.advance member (.pure n t)).mono (Nat.le_succ n)
    · simp only [if_neg fits, Option.elim_some]
      exact (Tracks.refuse n (by rintro _ _ ⟨⟩) rfl).at t

/-- A walk that calls itself tracks a reader that does, if it tracks a step of the reader on one token more than
the calls.  What is known of the calls, and passes on to the step, may be used. -/
theorem recurse_of {f : (σ → Reader α) → σ → Reader α} {w : σ → Walk α} (known : Reader α → Prop)
    (stuck : known fun ts => .refuse (.unexpected ts.head?) ts)
    (step : ∀ k (again : σ → Reader α), (∀ s, Tracks row k (w s) (again s) ∧ known (again s)) →
      ∀ s, Tracks row (min n (k + 1)) (w s) (f again s) ∧ known (f again s)) (s : σ) :
    Tracks row n (w s) (Reader.recurse f s) := by
  have unrolled : ∀ k s, Tracks row (min n k) (w s) (Reader.unroll f k s) ∧ known (Reader.unroll f k s) := by
    intro k
    induction k with
    | zero => exact fun s => ⟨fun p _ short => absurd short (by simp), stuck⟩
    | succ k ih =>
      intro s
      obtain ⟨tracks, knows⟩ := step _ _ ih s
      exact ⟨tracks.mono (by omega), knows⟩
  intro p inRange short
  obtain ⟨shrinks, result, grounded⟩ := (unrolled ((row.window p).length + 1) s).1 p inRange (by omega)
  exact ⟨shrinks, result, grounded⟩

theorem recurse {f : (σ → Reader α) → σ → Reader α} {w : σ → Walk α}
    (step : ∀ k (again : σ → Reader α), (∀ s, Tracks row k (w s) (again s)) →
      ∀ s, Tracks row (min n (k + 1)) (w s) (f again s)) (s : σ) :
    Tracks row n (w s) (Reader.recurse f s) :=
  recurse_of (fun _ => True) trivial (fun k again ih s => ⟨step k again (fun s => (ih s).1) s, trivial⟩) s

end Tracks

/-! ## Literals -/

/-- Between quotes, there is something to cut out. -/
theorem stringLiteral_eq_pure {t : Token} (quoted : IsQuoted t.text.toList) :
    stringLiteral t = pure (.str t.stringValue) := by
  obtain ⟨body, text⟩ := quoted
  unfold stringLiteral
  rw [cut_eq_pure (slice?_inside (by decide) (by decide) text), pure_bind, String.toList_ofList,
    Token.stringValue, text, List.tail_cons, List.dropLast_concat]

theorem magnitude_eq_pure {t : Token} (negative : t.isNegativeNumber) : magnitude t = pure t.dropFirst := by
  unfold magnitude
  rw [cut_eq_pure (Token.slice?_dropFirst negative), pure_bind]
  rfl

/-- A literal is refused only if it has no value. -/
theorem literal_tracks (n : Nat) {t : Token}
    (grounds : Number.ofLiteral? t.text = none → ∃ u ∈ tokensBeforeEnd row.tokens, ¬ u.HasValue) :
    Tracks row n (literal t) (Reader.literal t) := by
  unfold literal Reader.literal
  cases value : Number.ofLiteral? t.text with
  | none => exact .refuse n (fun _ _ _ => grounds value) rfl
  | some value => exact .pure n _

/-! ## Rows of operators and of items -/

/-- A walk that goes on with operators and operands. -/
theorem operations_tracks {operand : Walk Expr} {next : Reader Expr} {operator? : Kind → Option BinaryOp}
    {goOn : Expr → Walk Expr}
    (unfolds : ∀ left, goOn left = do
      let t ← row.current
      match operator? t.kind with
      | none => return left
      | some op =>
        let _ ← row.advance
        let right ← operand
        goOn (.binary op left right))
    (noEnd : operator? .endOfInput = none) (inner : Tracks row n operand next) (left : Expr) :
    Tracks row n (goOn left) (Reader.operations next operator? left) := by
  refine Tracks.recurse (fun k again ih left => ?_) left
  rw [unfolds]
  refine .current ?_ fun t member => ?_
  · rw [row.kind_token_finish, noEnd]
    exact .pure _ left
  · rw [Option.bind_some]
    cases operator? t.kind with
    | none => exact (Tracks.pure _ left).at t
    | some op =>
      have more : Tracks row (min n k) (operand >>= fun right => goOn (.binary op left right))
          (next >>= fun right => again (.binary op left right)) :=
        (inner.mono (by omega)).bind fun right => (ih _).mono (by omega)
      exact (TracksAt.advance member more).mono (by omega)

/-- A walk that goes on with items, each after a comma. -/
theorem moreItems_tracks {item : Walk α} {item' : Reader α} {goOn : Walk (List α)}
    (unfolds : goOn = do
      if ← row.isAt .comma then
        let _ ← row.advance
        let first ← item
        let rest ← goOn
        return first :: rest
      else return [])
    (inner : Tracks row n item item') : Tracks row n goOn (Reader.moreItems item') := by
  refine Tracks.recurse (w := fun _ => goOn) (fun k again ih _ => ?_) ()
  rw [unfolds]
  refine .isAt (by decide) (.pure _ []) fun t member _ => ?_
  have more : Tracks row (min n k) (item >>= fun first => goOn >>= fun rest => pure (first :: rest))
      (item' >>= fun first => again () >>= fun rest => pure (first :: rest)) :=
    (inner.mono (by omega)).bind fun _ => ((ih ()).mono (by omega)).bind fun _ => .pure _ _
  exact (TracksAt.advance member more).mono (by omega)

/-- A walk over items with commas between them and a token that closes the list. -/
theorem itemsUntil_tracks {item : Walk α} {item' : Reader α} {goOn : Walk (List α)} {close : Kind}
    (notEnd : close ≠ .endOfInput) (inner : Tracks row n item item')
    (more : Tracks row n goOn (Reader.moreItems item')) :
    Tracks row n
      (do
        if ← row.isAt close then
          let _ ← row.expect close
          return []
        else
          let first ← item
          let rest ← goOn
          let _ ← row.expect close
          return first :: rest)
      (Reader.itemsUntil close item') := by
  refine .isAt notEnd ?_ fun t member fits => ?_
  · exact inner.bind fun _ => more.bind fun _ => (Tracks.expect n notEnd).bind fun _ => .pure n _
  · exact (TracksAt.expect member fits (.pure n [])).mono (Nat.le_succ n)

end Walk
end ToraCompiler
