import Mathlib.Data.List.Forall2
import ToraCompiler.Proofs.Tree.Vocabulary

/-!
# The numbers of a tree

The numbers in the tree of a program, from left to right, are its number tokens in the order of the source: each
token gives one number, and no number comes from elsewhere (`Program.numbers_of_ofSource`).  A token with a minus
of its own gives the number with the minus, or the number behind it where the minus is an operator.
-/

namespace ToraCompiler

mutual

/-- The numbers of an expression, from left to right. -/
def Expr.numbers : Expr → List Number
  | .binary _ left right => left.numbers ++ right.numbers
  | .call _ args => Expr.numbersAll args
  | .name _ => []
  | .number value => [value]
  | .str _ => []
  | .list items => Expr.numbersAll items

/-- The numbers of expressions. -/
def Expr.numbersAll : List Expr → List Number
  | [] => []
  | e :: rest => e.numbers ++ Expr.numbersAll rest

end

mutual

/-- The numbers of a statement, from its first line to its last. -/
def Stmt.numbers : Stmt → List Number
  | .declare _ _ value => (value.map Expr.numbers).getD []
  | .function _ _ _ body => Stmt.numbersAll body
  | .branch condition yes no => condition.numbers ++ Stmt.numbersAll yes ++ Stmt.numbersElse no
  | .loop condition body => condition.numbers ++ Stmt.numbersAll body
  | .each _ iterable body => iterable.numbers ++ Stmt.numbersAll body
  | .print value _ => value.numbers
  | .eval value => value.numbers
  | .assign _ value => value.numbers

/-- The numbers of statements. -/
def Stmt.numbersAll : List Stmt → List Number
  | [] => []
  | s :: rest => s.numbers ++ Stmt.numbersAll rest

/-- The numbers of the second block of a branch. -/
def Stmt.numbersElse : Option (List Stmt) → List Number
  | none => []
  | some body => Stmt.numbersAll body

end

/-! ## Number tokens -/

namespace Token

/-- The number tokens of a row. -/
def numberTokens (ts : List Token) : List Token :=
  ts.filter (·.kind = .number)

/-- What a number token may give: the number that it denotes or, if it has a minus of its own, the one that it
denotes without the minus. -/
inductive Gives (t : Token) : Number → Prop
  | whole : Gives t t.numberValue
  | magnitude : t.isNegativeNumber → Gives t t.dropFirst.numberValue

@[simp]
theorem numberTokens_nil : numberTokens [] = [] := rfl

@[simp]
theorem numberTokens_append (us vs : List Token) : numberTokens (us ++ vs) = numberTokens us ++ numberTokens vs :=
  List.filter_append ..

theorem numberTokens_number {t : Token} (kind : t.kind = .number) (us : List Token) :
    numberTokens (t :: us) = t :: numberTokens us :=
  List.filter_cons_of_pos (decide_eq_true kind)

@[simp]
theorem numberTokens_other {t : Token} (other : t.kind ≠ .number) (us : List Token) :
    numberTokens (t :: us) = numberTokens us :=
  List.filter_cons_of_neg (by simp [other])

end Token

namespace Grammar

open Token (Gives numberTokens)

theorem operator?_number {t : Token} {op : BinaryOp} (operator : t.kind.operator? = some op) :
    t.kind ≠ .number := by
  intro kind
  rw [kind] at operator
  cases operator

/-! ## Expressions -/

mutual

theorem Phrase.numbers : ∀ {us : List Token} {e : Expr}, Phrase us e →
    List.Forall₂ Gives (numberTokens us) e.numbers
  | _, _, .number kind => by
    rw [Token.numberTokens_number kind]
    exact .cons .whole .nil
  | _, _, .magnitude negative => by
    rw [Token.numberTokens_number negative.1]
    exact .cons (.magnitude negative) .nil
  | _, _, .string kind => by simp [kind, Expr.numbers]
  | _, _, .name kind => by simp [kind, Expr.numbers]
  | _, _, .call kind opening args closing => by simpa [kind, opening, closing, Expr.numbers] using args.numbers
  | _, _, .parens opening inner closing => by simpa [opening, closing] using inner.numbers
  | _, _, .list opening items closing => by simpa [opening, closing, Expr.numbers] using items.numbers
  | _, _, .operation left operator right => by
    have both := List.rel_append left.numbers right.numbers
    simpa [operator?_number operator, Expr.numbers] using both
  | _, _, .folded left right => by
    have both := List.rel_append left.numbers right.numbers
    simpa [Expr.numbers] using both

theorem Phrases.numbers : ∀ {us : List Token} {es : List Expr}, Phrases us es →
    List.Forall₂ Gives (numberTokens us) (Expr.numbersAll es)
  | _, _, .nil => .nil
  | _, _, .comma kind rest => by simpa [kind] using rest.numbers
  | _, _, .cons first rest => by
    rw [Token.numberTokens_append]
    exact List.rel_append first.numbers rest.numbers

end

theorem Expression.numbers {us : List Token} {e : Expr} (h : Expression us e) :
    List.Forall₂ Gives (numberTokens us) e.numbers :=
  h.phrase.numbers

/-! ## Statements -/

@[simp]
theorem Annotation.numberTokens {us : List Token} {type : Option String} (h : Annotation us type) :
    numberTokens us = [] := by
  cases h with
  | none => rfl
  | some colon kind => simp [colon, kind]

theorem Parameter.numberTokens {us : List Token} {param : Param} (h : Parameter us param) :
    Token.numberTokens us = [] := by
  cases h with
  | intro kind annotation => simp [kind, annotation.numberTokens]

theorem MoreItems.numberTokens {us : List Token} {params : List Param} (h : MoreItems Parameter us params) :
    Token.numberTokens us = [] := by
  induction h with
  | nil => rfl
  | cons comma first _ ih => simp [comma, first.numberTokens, ih]

/-- There are no numbers among parameters. -/
theorem Items.numberTokens {us : List Token} {params : List Param} (h : Items Parameter us params) :
    Token.numberTokens us = [] := by
  cases h with
  | nil => rfl
  | cons first more => simp [first.numberTokens, more.numberTokens]

/-- The number tokens of a block are those of the row of statements inside it. -/
theorem Block.numbers {us : List Token} {body : List Stmt} (h : Block us body)
    (inner : ∀ vs, Sequence Statement vs body → List.Forall₂ Gives (numberTokens vs) (Stmt.numbersAll body)) :
    List.Forall₂ Gives (numberTokens us) (Stmt.numbersAll body) := by
  cases h with
  | intro opening sequence closing => simpa [opening, closing] using inner _ sequence

mutual

theorem Statement.numbers : ∀ (s : Stmt) {us : List Token}, Statement us s →
    List.Forall₂ Gives (numberTokens us) s.numbers
  | .declare _ _ _, us, h => by
    cases h with
    | declare keyword kind annotation equals value semicolon =>
      simpa [keyword, kind, annotation.numberTokens, equals, semicolon, Stmt.numbers] using value.numbers
  | .function _ params _ body, us, h => by
    cases h with
    | function keyword kind opening items closing annotation block =>
      have inBody := block.numbers fun _ sequence => Sequence.numbers body sequence
      simpa [keyword, kind, opening, items.numberTokens, closing, annotation.numberTokens, Stmt.numbers] using inBody
  | .branch _ yes none, us, h => by
    cases h with
    | branch keyword opening condition closing block =>
      have inYes := block.numbers fun _ sequence => Sequence.numbers yes sequence
      have row := List.rel_append condition.numbers inYes
      simpa [keyword, opening, closing, Stmt.numbers, Stmt.numbersElse] using row
  | .branch _ yes (some no), us, h => by
    cases h with
    | branchElse keyword opening condition closing block otherwise other =>
      have inYes := block.numbers fun _ sequence => Sequence.numbers yes sequence
      have inNo := other.numbers fun _ sequence => Sequence.numbers no sequence
      have row := List.rel_append condition.numbers (List.rel_append inYes inNo)
      simpa [keyword, opening, closing, otherwise, Stmt.numbers, Stmt.numbersElse] using row
  | .loop _ body, us, h => by
    cases h with
    | loopParens keyword opening condition closing block =>
      have inBody := block.numbers fun _ sequence => Sequence.numbers body sequence
      have row := List.rel_append condition.numbers inBody
      simpa [keyword, opening, closing, Stmt.numbers] using row
    | loop keyword condition _ block =>
      have inBody := block.numbers fun _ sequence => Sequence.numbers body sequence
      have row := List.rel_append condition.numbers inBody
      simpa [keyword, Stmt.numbers] using row
  | .each _ _ body, us, h => by
    cases h with
    | eachIn keyword kind word iterable block =>
      have inBody := block.numbers fun _ sequence => Sequence.numbers body sequence
      have row := List.rel_append iterable.numbers inBody
      simpa [keyword, kind, word.1, Stmt.numbers] using row
    | each keyword kind iterable _ block =>
      have inBody := block.numbers fun _ sequence => Sequence.numbers body sequence
      have row := List.rel_append iterable.numbers inBody
      simpa [keyword, kind, Stmt.numbers] using row
  | .print _ _, us, h => by
    cases h with
    | print keyword opening value closing semicolon =>
      have notNumber : ∀ {k newline}, PrintWord k newline → k ≠ .number := by
        rintro k newline (_ | _) <;> decide
      simpa [notNumber keyword, opening, closing, semicolon, Stmt.numbers] using value.numbers
  | .eval _, us, h => by
    cases h with
    | giveBack keyword value semicolon => simpa [keyword, semicolon, Stmt.numbers] using value.numbers
    | eval value semicolon => simpa [semicolon, Stmt.numbers] using value.numbers
  | .assign _ _, us, h => by
    cases h with
    | assign kind equals value semicolon => simpa [kind, equals, semicolon, Stmt.numbers] using value.numbers

theorem Sequence.numbers : ∀ (p : List Stmt) {us : List Token}, Sequence Statement us p →
    List.Forall₂ Gives (numberTokens us) (Stmt.numbersAll p)
  | [], _, .nil => .nil
  | s :: rest, us, h => by
    cases h with
    | cons first others =>
      rw [Token.numberTokens_append]
      exact List.rel_append (Statement.numbers s first) (Sequence.numbers rest others)

end

end Grammar

/-- The numbers of a program that is read from a source are given by the number tokens of the source, one by each. -/
theorem Program.numbers_of_ofSource {source : String} {p : Program} (read : Program.ofSource source = .ok p) :
    ∃ ts, tokensOf source = .ok ts ∧ List.Forall₂ Token.Gives (Token.numberTokens ts) (Stmt.numbersAll p) := by
  obtain ⟨ts, scanned, parsed⟩ := Program.ofSource_eq_ok_iff.1 read
  obtain ⟨finish, ends⟩ := tokensOf_ends scanned
  have same : Token.numberTokens ts = Token.numberTokens (tokensBeforeEnd ts) := by
    conv_lhs => rw [ends]
    simp
  refine ⟨ts, scanned, ?_⟩
  rw [same]
  exact Grammar.Sequence.numbers p (Program.derivable_of_ofTokens parsed)

end ToraCompiler
