import ToraCompiler.Token.Basic

/-!
# Reading tokens

A reader takes tokens from the front of a row and either accepts, with a value, or refuses, with a
reason.  Both ways it says what is left, so that reading can go on after a refusal.  The end of the input
is the end of the row: a reader never sees a token of that kind.

Recursion goes through `Reader.recurse`, which unrolls its step once more than there are tokens.  That is
enough for a step that takes a token before it calls itself, and the steps of a grammar do.
-/

namespace ToraCompiler

/-- Why a row of tokens does not fit.  A token found where another was due may be missing, at the end of
the input. -/
inductive Refusal where
  /-- Another kind of token was due. -/
  | expected (kind : Kind) (found : Option Token)
  /-- The name of a type was due. -/
  | expectedType (found : Option Token)
  /-- No expression starts with this token. -/
  | unexpected (found : Option Token)
  /-- A number token whose text denotes no number. -/
  | badNumber (text : String) (place : Position)
deriving DecidableEq, Repr

namespace Refusal

/-- The word for what was found. -/
def foundLabel (found : Option Token) : String :=
  ((found.map Token.kind).getD .endOfInput).label

/-- The words for a refusal. -/
def message : Refusal → String
  | .expected kind found => "Expected " ++ kind.label ++ ", got " ++ foundLabel found
  | .expectedType found => "Expected type, got " ++ foundLabel found
  | .unexpected none => "Unexpected end of input"
  | .unexpected (some t) => "Unexpected token " ++ t.kind.label
  | .badNumber text _ => "Invalid number literal '" ++ text ++ "'"

/-- The place of a refusal, in an input that ends at `finish`. -/
def place (finish : Position) : Refusal → Position
  | .expected _ found | .expectedType found | .unexpected found =>
    (found.map Token.position).getD finish
  | .badNumber _ place => place

/-- What the user is told, about an input that ends at `finish`. -/
def diagnostic (r : Refusal) (finish : Position) : Diagnostic :=
  Diagnostic.located { stage := .grammatical, message := r.message } (r.place finish)

end Refusal

/-- The outcome of reading, with the tokens that are left. -/
inductive Reply (α : Type) where
  /-- The tokens taken make up this value. -/
  | accept (value : α) (rest : List Token)
  /-- The tokens do not fit. -/
  | refuse (reason : Refusal) (rest : List Token)
deriving DecidableEq, Repr

/-- A reader of values from a row of tokens. -/
def Reader (α : Type) : Type := List Token → Reply α

namespace Reader

variable {α β σ : Type}

/-- Reads with the first reader, then with the one that its value selects. -/
def andThen (first : Reader α) (next : α → Reader β) : Reader β := fun ts =>
  match first ts with
  | .accept a rest => next a rest
  | .refuse reason rest => .refuse reason rest

instance : Monad Reader where
  pure a := fun ts => .accept a ts
  bind := andThen

/-- Accepts nothing. -/
def refuse (reason : Refusal) : Reader α := fun ts => .refuse reason ts

/-- The next token, which stays. -/
def peek : Reader (Option Token) := fun ts => .accept ts.head? ts

/-- The token after the next one; both stay. -/
def peekSecond : Reader (Option Token) := fun ts => .accept ts.tail.head? ts

/-- Whether the next token is of this kind; it stays. -/
def isNext (kind : Kind) : Reader Bool := fun ts => .accept (ts.head?.any (·.kind = kind)) ts

/-- Takes the next token, if there is one. -/
def skip : Reader Unit := fun ts => .accept () ts.tail

/-- Takes a token of this kind. -/
def expect (kind : Kind) : Reader Token := fun ts =>
  match ts with
  | [] => .refuse (.expected kind none) ts
  | t :: rest => if t.kind = kind then .accept t rest else .refuse (.expected kind (some t)) ts

/-! ## Recursion -/

/-- The step `f` unrolled `n` times, and refusing below that. -/
def unroll (f : (σ → Reader α) → σ → Reader α) : Nat → σ → Reader α
  | 0 => fun _ ts => .refuse (.unexpected ts.head?) ts
  | n + 1 => f (unroll f n)

/-- The reader that may call itself, through the first argument of `f`, on fewer tokens. -/
def recurse (f : (σ → Reader α) → σ → Reader α) (s : σ) : Reader α := fun ts =>
  unroll f (ts.length + 1) s ts

end Reader

end ToraCompiler
