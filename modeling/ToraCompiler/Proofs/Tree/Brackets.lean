import ToraCompiler.Proofs.Compilation.Batch
import ToraCompiler.Proofs.Tree.Phrase

/-!
# Brackets in programs

The brackets of a program nest: each opening one has a closing one of its own sort, and what stands between them
nests as well (`Nested`).  Every rule of the grammar puts rows together in such a way, so a row that is read as a
program nests (`Program.nested_of_ofTokens`), and opens as many brackets as it closes.
-/

namespace ToraCompiler

namespace Kind

/-- The bracket that closes an opening one. -/
def partner? : Kind → Option Kind
  | openParen => some closeParen
  | openBrace => some closeBrace
  | openBracket => some closeBracket
  | _ => none

/-- Whether a token of the kind opens brackets. -/
def opens (k : Kind) : Bool :=
  k.partner?.isSome

/-- Whether a token of the kind closes brackets. -/
def closes (k : Kind) : Bool :=
  k = closeParen || k = closeBrace || k = closeBracket

/-- How a token of the kind changes the number of open brackets. -/
def turn (k : Kind) : Int :=
  if k.opens then 1 else if k.closes then -1 else 0

theorem turn_of_partner? {k k' : Kind} (partners : k.partner? = some k') : k.turn = 1 ∧ k'.turn = -1 := by
  cases k <;> cases partners <;> decide

theorem operator?_not_bracket {k : Kind} {op : BinaryOp} (operator : k.operator? = some op) :
    k.opens = false ∧ k.closes = false := by
  cases k <;> cases operator <;> decide

end Kind

namespace Token

/-- The number of brackets that a row of tokens opens. -/
def opened (ts : List Token) : Nat :=
  ts.countP (·.kind.opens)

/-- The number of brackets that a row of tokens closes. -/
def closed (ts : List Token) : Nat :=
  ts.countP (·.kind.closes)

/-- How many more brackets a row opens than it closes. -/
def depth (ts : List Token) : Int :=
  opened ts - closed ts

@[simp]
theorem depth_nil : depth [] = 0 := rfl

theorem depth_append (ts us : List Token) : depth (ts ++ us) = depth ts + depth us := by
  simp only [depth, opened, closed, List.countP_append]
  omega

theorem depth_cons (t : Token) (ts : List Token) : depth (t :: ts) = depth [t] + depth ts :=
  depth_append [t] ts

theorem depth_singleton (t : Token) : depth [t] = t.kind.turn := by
  have notBoth : t.kind.opens → t.kind.closes = false := by
    cases t.kind <;> decide
  unfold depth opened closed Kind.turn
  cases opens : t.kind.opens with
  | true => simp [opens, notBoth opens]
  | false => cases closes : t.kind.closes <;> simp [opens, closes]

end Token

/-! ## Nested rows -/

/-- Every bracket of the row has a partner, with a nested row between the two. -/
inductive Nested : List Token → Prop
  | nil : Nested []
  | other {t : Token} {us : List Token} :
    t.kind.opens = false ∧ t.kind.closes = false → Nested us → Nested (t :: us)
  | pair {opening closing : Token} {us vs : List Token} :
    opening.kind.partner? = some closing.kind → Nested us → Nested vs →
    Nested (opening :: (us ++ closing :: vs))

namespace Nested

variable {t opening closing : Token} {us vs : List Token} {k k' : Kind}

theorem append (first : Nested us) (second : Nested vs) : Nested (us ++ vs) := by
  induction first with
  | nil => exact second
  | other plain _ ih => exact .other plain ih
  | pair partners inner _ _ ih =>
    rw [List.cons_append, List.append_assoc]
    exact .pair partners inner ih

/-- A token of a kind that is no bracket stands before a nested row. -/
theorem after (kind : t.kind = k) (plain : k.opens = false ∧ k.closes = false) (behind : Nested us) :
    Nested (t :: us) :=
  .other (by rwa [kind]) behind

/-- Brackets of two kinds that belong together stand around a nested row and before another one. -/
theorem around (opens : opening.kind = k) (inner : Nested us) (closes : closing.kind = k')
    (partners : k.partner? = some k') (behind : Nested vs) : Nested (opening :: (us ++ closing :: vs)) :=
  .pair (by rw [opens, closes, partners]) inner behind

/-- A nested row closes what it opens. -/
theorem depth_eq_zero (nested : Nested us) : Token.depth us = 0 := by
  induction nested with
  | nil => rfl
  | @other t us plain _ ih =>
    have still : t.kind.turn = 0 := by simp [Kind.turn, plain.1, plain.2]
    rw [Token.depth_cons, Token.depth_singleton, still, ih, Int.add_zero]
  | @pair opening closing us vs partners _ _ inner behind =>
    obtain ⟨opens, closes⟩ := Kind.turn_of_partner? partners
    rw [Token.depth_cons opening, Token.depth_append, Token.depth_cons closing, Token.depth_singleton opening,
      Token.depth_singleton closing, opens, closes, inner, behind]
    rfl

end Nested

/-! ## Derivations nest -/

namespace Grammar

mutual

theorem Phrase.nested : ∀ {us : List Token} {e : Expr}, Phrase us e → Nested us
  | _, _, .number kind => .after kind ⟨rfl, rfl⟩ .nil
  | _, _, .magnitude negative => .after negative.1 ⟨rfl, rfl⟩ .nil
  | _, _, .string kind => .after kind ⟨rfl, rfl⟩ .nil
  | _, _, .name kind => .after kind ⟨rfl, rfl⟩ .nil
  | _, _, .call kind opening args closing =>
    .after kind ⟨rfl, rfl⟩ (.around opening args.nested closing rfl .nil)
  | _, _, .parens opening inner closing => .around opening inner.nested closing rfl .nil
  | _, _, .list opening items closing => .around opening items.nested closing rfl .nil
  | _, _, .operation left operator right =>
    left.nested.append (.other (Kind.operator?_not_bracket operator) right.nested)
  | _, _, .folded left right => left.nested.append right.nested

theorem Phrases.nested : ∀ {us : List Token} {es : List Expr}, Phrases us es → Nested us
  | _, _, .nil => .nil
  | _, _, .comma kind rest => .after kind ⟨rfl, rfl⟩ rest.nested
  | _, _, .cons first rest => first.nested.append rest.nested

end

theorem Expression.nested {us : List Token} {e : Expr} (h : Expression us e) : Nested us :=
  h.phrase.nested

theorem Annotation.nested {us : List Token} {type : Option String} (h : Annotation us type) : Nested us := by
  cases h with
  | none => exact .nil
  | some colon kind => exact .after colon ⟨rfl, rfl⟩ (.after kind ⟨rfl, rfl⟩ .nil)

theorem Parameter.nested {us : List Token} {param : Param} (h : Parameter us param) : Nested us := by
  cases h with
  | intro kind typed => exact .after kind ⟨rfl, rfl⟩ typed.nested

theorem MoreItems.nested {us : List Token} {params : List Param} (h : MoreItems Parameter us params) :
    Nested us := by
  induction h with
  | nil => exact .nil
  | cons comma first _ ih => exact .after comma ⟨rfl, rfl⟩ (first.nested.append ih)

theorem Items.nested {us : List Token} {params : List Param} (h : Items Parameter us params) : Nested us := by
  cases h with
  | nil => exact .nil
  | cons first more => exact first.nested.append (MoreItems.nested more)

/-- A block nests if the row of statements inside it does. -/
theorem Block.nested {us : List Token} {body : List Stmt} (h : Block us body)
    (inner : ∀ vs, Sequence Statement vs body → Nested vs) : Nested us := by
  cases h with
  | intro opening sequence closing => exact .around opening (inner _ sequence) closing rfl .nil

mutual

theorem Statement.nested : ∀ (s : Stmt) {us : List Token}, Statement us s → Nested us
  | .declare _ _ _, us, h => by
    cases h with
    | declare keyword kind typed equals value semicolon =>
      have line := value.nested.append (.after semicolon ⟨rfl, rfl⟩ .nil)
      exact .after keyword ⟨rfl, rfl⟩ (.after kind ⟨rfl, rfl⟩
        (typed.nested.append (.after equals ⟨rfl, rfl⟩ line)))
  | .function _ _ _ body, us, h => by
    cases h with
    | function keyword kind opening params closing typed block =>
      have inBody := block.nested fun _ sequence => Sequence.nested body sequence
      exact .after keyword ⟨rfl, rfl⟩ (.after kind ⟨rfl, rfl⟩
        (.around opening (Items.nested params) closing rfl (typed.nested.append inBody)))
  | .branch _ yes none, us, h => by
    cases h with
    | branch keyword opening condition closing block =>
      have inYes := block.nested fun _ sequence => Sequence.nested yes sequence
      exact .after keyword ⟨rfl, rfl⟩ (.around opening condition.nested closing rfl inYes)
  | .branch _ yes (some no), us, h => by
    cases h with
    | branchElse keyword opening condition closing block otherwise other =>
      have inYes := block.nested fun _ sequence => Sequence.nested yes sequence
      have inNo := other.nested fun _ sequence => Sequence.nested no sequence
      exact .after keyword ⟨rfl, rfl⟩ (.around opening condition.nested closing rfl
        (inYes.append (.after otherwise ⟨rfl, rfl⟩ inNo)))
  | .loop _ body, us, h => by
    cases h with
    | loopParens keyword opening condition closing block =>
      have inBody := block.nested fun _ sequence => Sequence.nested body sequence
      exact .after keyword ⟨rfl, rfl⟩ (.around opening condition.nested closing rfl inBody)
    | loop keyword condition _ block =>
      have inBody := block.nested fun _ sequence => Sequence.nested body sequence
      exact .after keyword ⟨rfl, rfl⟩ (condition.nested.append inBody)
  | .each _ _ body, us, h => by
    cases h with
    | eachIn keyword kind word iterable block =>
      have inBody := block.nested fun _ sequence => Sequence.nested body sequence
      exact .after keyword ⟨rfl, rfl⟩ (.after kind ⟨rfl, rfl⟩
        (.after word.1 ⟨rfl, rfl⟩ (iterable.nested.append inBody)))
    | each keyword kind iterable _ block =>
      have inBody := block.nested fun _ sequence => Sequence.nested body sequence
      exact .after keyword ⟨rfl, rfl⟩ (.after kind ⟨rfl, rfl⟩ (iterable.nested.append inBody))
  | .print _ _, us, h => by
    cases h with
    | print keyword opening value closing semicolon =>
      have plain : ∀ {k newline}, PrintWord k newline → k.opens = false ∧ k.closes = false := by
        rintro k newline (_ | _) <;> decide
      exact .other (plain keyword)
        (.around opening value.nested closing rfl (.after semicolon ⟨rfl, rfl⟩ .nil))
  | .eval _, us, h => by
    cases h with
    | giveBack keyword value semicolon =>
      exact .after keyword ⟨rfl, rfl⟩ (value.nested.append (.after semicolon ⟨rfl, rfl⟩ .nil))
    | eval value semicolon => exact value.nested.append (.after semicolon ⟨rfl, rfl⟩ .nil)
  | .assign _ _, us, h => by
    cases h with
    | assign kind equals value semicolon =>
      have line := value.nested.append (.after semicolon ⟨rfl, rfl⟩ .nil)
      exact .after kind ⟨rfl, rfl⟩ (.after equals ⟨rfl, rfl⟩ line)

theorem Sequence.nested : ∀ (p : List Stmt) {us : List Token}, Sequence Statement us p → Nested us
  | [], _, .nil => .nil
  | s :: rest, _, .cons first others => (Statement.nested s first).append (Sequence.nested rest others)

end

end Grammar

/-- The brackets of a row that is read as a program nest. -/
theorem Program.nested_of_ofTokens {ts : List Token} {p : Program} (read : Program.ofTokens ts = .ok p) :
    Nested (tokensBeforeEnd ts) :=
  Grammar.Sequence.nested p (Program.derivable_of_ofTokens read)

/-- A source that is read as a program closes all the brackets that it opens. -/
theorem Program.depth_of_ofSource {source : String} {p : Program} (read : Program.ofSource source = .ok p) :
    ∃ ts, tokensOf source = .ok ts ∧ Token.depth ts = 0 := by
  obtain ⟨ts, scanned, parsed⟩ := Program.ofSource_eq_ok_iff.1 read
  obtain ⟨finish, ends⟩ := tokensOf_ends scanned
  refine ⟨ts, scanned, ?_⟩
  rw [ends, Token.depth_append, (Program.nested_of_ofTokens parsed).depth_eq_zero]
  rfl

end ToraCompiler
