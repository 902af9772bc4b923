import ToraCompiler.Tree.Reader

/-!
# Readers and what they read

A reader is sound for a relation between rows of tokens and values if every row that it takes is related
to the value that it gives; it accepts a relation if it takes every row that is related to a value, and
nothing more, whenever the tokens behind allow that.  Both notions pass through `Reader.recurse`:
`Sound.recurse` is an induction on the unrolling, and `Accepts.recurse` one on the length of the row.
-/

namespace ToraCompiler.Reader

variable {α β σ : Type}

/-! ## Single steps -/

theorem bind_eq_accept_iff {r : Reader α} {next : α → Reader β} {ts rest : List Token} {b : β} :
    (r >>= next) ts = .accept b rest ↔
      ∃ a middle, r ts = .accept a middle ∧ next a middle = .accept b rest := by
  show andThen r next ts = _ ↔ _
  unfold andThen
  cases r ts with
  | accept a middle =>
    constructor
    · intro h
      exact ⟨a, middle, rfl, h⟩
    · rintro ⟨_, _, same, h⟩
      cases same
      exact h
  | refuse reason middle => simp

theorem bind_of_accept {r : Reader α} {ts middle : List Token} {a : α}
    (accepted : r ts = .accept a middle) (next : α → Reader β) : (r >>= next) ts = next a middle := by
  show andThen r next ts = _
  unfold andThen
  rw [accepted]

@[simp]
theorem pure_apply (a : α) (ts : List Token) : (pure a : Reader α) ts = .accept a ts := rfl

@[simp]
theorem peek_bind (next : Option Token → Reader β) (ts : List Token) :
    (peek >>= next) ts = next ts.head? ts := rfl

@[simp]
theorem peekSecond_bind (next : Option Token → Reader β) (ts : List Token) :
    (peekSecond >>= next) ts = next ts.tail.head? ts := rfl

@[simp]
theorem skip_bind (next : Unit → Reader β) (ts : List Token) :
    (skip >>= next) ts = next () ts.tail := rfl

@[simp]
theorem isNext_bind (kind : Kind) (next : Bool → Reader β) (ts : List Token) :
    (isNext kind >>= next) ts = next (ts.head?.any (·.kind = kind)) ts := rfl

theorem expect_eq_accept_iff {kind : Kind} {ts rest : List Token} {t : Token} :
    expect kind ts = .accept t rest ↔ ts = t :: rest ∧ t.kind = kind := by
  cases ts with
  | nil => simp [expect]
  | cons u us =>
    by_cases fits : u.kind = kind
    · simp only [expect, if_pos fits, Reply.accept.injEq, List.cons.injEq]
      constructor
      · rintro ⟨rfl, rfl⟩
        exact ⟨⟨rfl, rfl⟩, fits⟩
      · rintro ⟨⟨rfl, rfl⟩, -⟩
        exact ⟨rfl, rfl⟩
    · simp only [expect, if_neg fits, reduceCtorEq, List.cons.injEq, false_iff]
      rintro ⟨⟨rfl, -⟩, same⟩
      exact fits same

theorem expect_bind {kind : Kind} {t : Token} (fits : t.kind = kind) (next : Token → Reader β)
    (ts : List Token) : (expect kind >>= next) (t :: ts) = next t ts :=
  bind_of_accept (expect_eq_accept_iff.2 ⟨rfl, fits⟩) next

/-! ## Soundness -/

/-- What holds of every step as soon as it holds of the calls in it holds of a reader that calls itself,
if it holds of a reader that gives up. -/
theorem recurse_induction {f : (σ → Reader α) → σ → Reader α} 
    (holds : σ → List Token → Reply α → Prop)
    (stuck : ∀ s ts, holds s ts (.refuse (.unexpected ts.head?) ts))
    (step : ∀ again : σ → Reader α, (∀ s ts, holds s ts (again s ts)) →
      ∀ s ts, holds s ts (f again s ts)) (s : σ) (ts : List Token) :
    holds s ts (recurse f s ts) := by
  have unrolled : ∀ n s ts, holds s ts (unroll f n s ts) := by
    intro n
    induction n with
    | zero => exact stuck
    | succ n ih => exact step _ ih
  exact unrolled _ s ts

/-- Every row that the reader takes is related to the value that it gives. -/
def Sound (r : Reader α) (related : List Token → α → Prop) : Prop :=
  ∀ ts a rest, r ts = .accept a rest → ∃ used, ts = used ++ rest ∧ related used a

/-- A reader that may call itself is sound if its step is sound as soon as the calls are. -/
theorem Sound.recurse {f : (σ → Reader α) → σ → Reader α} (related : σ → List Token → α → Prop)
    (step : ∀ again : σ → Reader α, (∀ s, Sound (again s) (related s)) →
      ∀ s, Sound (f again s) (related s)) (s : σ) : Sound (recurse f s) (related s) := by
  intro ts
  refine recurse_induction
    (fun s ts reply => ∀ a rest, reply = .accept a rest →
      ∃ used, ts = used ++ rest ∧ related s used a) ?_ step s ts
  intro s ts a rest h
  cases h

/-! ## Acceptance -/

/-- The reader takes every row that is related to a value and to the tokens behind, and only that row. -/
def Accepts (r : Reader α) (related : List Token → α → List Token → Prop) : Prop :=
  ∀ used a rest, related used a rest → r (used ++ rest) = .accept a rest

/-- The same for rows with fewer than `n` tokens. -/
def AcceptsBelow (n : Nat) (r : Reader α) (related : List Token → α → List Token → Prop) : Prop :=
  Accepts r fun used a rest => used.length < n ∧ related used a rest

/-- A reader that may call itself accepts a relation if its step accepts the rows of one more token as
soon as the calls accept the shorter ones. -/
theorem Accepts.recurse {f : (σ → Reader α) → σ → Reader α}
    (related : σ → List Token → α → List Token → Prop)
    (step : ∀ n (again : σ → Reader α), (∀ s, AcceptsBelow n (again s) (related s)) →
      ∀ s, AcceptsBelow (n + 1) (f again s) (related s)) (s : σ) :
    Accepts (recurse f s) (related s) := by
  have unrolled : ∀ n s, AcceptsBelow n (unroll f n s) (related s) := by
    intro n
    induction n with
    | zero =>
      intro s used a rest h
      exact absurd h.1 (Nat.not_lt_zero _)
    | succ n ih => exact step n _ ih
  intro used a rest h
  refine unrolled _ s used a rest ⟨?_, h⟩
  rw [List.length_append]
  omega

end ToraCompiler.Reader
