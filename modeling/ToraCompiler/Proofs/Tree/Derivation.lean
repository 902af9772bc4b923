import ToraCompiler.Proofs.Token.Spelling
import ToraCompiler.Tree.Grammar

/-!
# The grammar as derivations

The language without its readers: which rows of tokens are expressions, statements and programs, and
which trees they stand for.  The rules follow the notation `first {operator next}`, and a row of
operators groups from the left, so `Chain` carries the tree of what stands before it.

Three rules carry a condition on the token that comes first, because the language prefers another rule
there: a condition loop without parentheses, a list loop without the word `in`, and the number with a
minus of its own, which is a subtraction wherever an operator may stand.
-/

namespace ToraCompiler

/-- The number that a number token denotes; its text as it stands if that denotes none. -/
def Token.numberValue (t : Token) : Number :=
  (Number.ofLiteral? t.text).getD (.wide t.text)

namespace Grammar

/-! ## Rows of items -/

/-- Items one after another. -/
inductive Sequence {α : Type} (item : List Token → α → Prop) : List Token → List α → Prop
  | nil : Sequence item [] []
  | cons {us vs : List Token} {a : α} {as : List α} :
    item us a → Sequence item vs as → Sequence item (us ++ vs) (a :: as)

/-- Items with a comma before each. -/
inductive MoreItems {α : Type} (item : List Token → α → Prop) : List Token → List α → Prop
  | nil : MoreItems item [] []
  | cons {comma : Token} {us vs : List Token} {a : α} {as : List α} :
    comma.kind = .comma → item us a → MoreItems item vs as →
    MoreItems item (comma :: (us ++ vs)) (a :: as)

/-- Items with commas between them, or none at all. -/
inductive Items {α : Type} (item : List Token → α → Prop) : List Token → List α → Prop
  | nil : Items item [] []
  | cons {us vs : List Token} {a : α} {as : List α} :
    item us a → MoreItems item vs as → Items item (us ++ vs) (a :: as)

/-- Operators with an operand after each, grouped from the left around what stands before them. -/
inductive Chain (operand : List Token → Expr → Prop) (operator? : Kind → Option BinaryOp) :
    Expr → List Token → Expr → Prop
  | nil {left : Expr} : Chain operand operator? left [] left
  | cons {left right whole : Expr} {op : BinaryOp} {t : Token} {us vs : List Token} :
    operator? t.kind = some op → operand us right →
    Chain operand operator? (.binary op left right) vs whole →
    Chain operand operator? left (t :: (us ++ vs)) whole

/-! ## Expressions -/

mutual

/-- A literal, a name, a call, an expression in parentheses, or a list. -/
inductive Operand : List Token → Expr → Prop
  | number {t : Token} : t.kind = .number → Operand [t] (.number t.numberValue)
  | string {t : Token} : t.kind = .string → Operand [t] (.str t.stringValue)
  | name {t : Token} : t.kind = .identifier → Operand [t] (.name t.toName)
  | call {t opening closing : Token} {us : List Token} {args : List Expr} :
    t.kind = .identifier → opening.kind = .openParen → Items Expression us args →
    closing.kind = .closeParen → Operand (t :: opening :: (us ++ [closing])) (.call t.toName args)
  | parens {opening closing : Token} {us : List Token} {inner : Expr} :
    opening.kind = .openParen → Expression us inner → closing.kind = .closeParen →
    Operand (opening :: (us ++ [closing])) inner
  | list {opening closing : Token} {us : List Token} {items : List Expr} :
    opening.kind = .openBracket → Items Expression us items → closing.kind = .closeBracket →
    Operand (opening :: (us ++ [closing])) (.list items)

/-- Operands with `*` and `/` between them. -/
inductive Product : List Token → Expr → Prop
  | intro {us vs : List Token} {first whole : Expr} :
    Operand us first → Chain Operand Kind.product? first vs whole → Product (us ++ vs) whole

/-- Products with `+` or `-` before each, around what stands before them.  A number with a minus of its
own is both the operator and the first operand of the product. -/
inductive Terms : Expr → List Token → Expr → Prop
  | nil {left : Expr} : Terms left [] left
  | term {left right whole : Expr} {op : BinaryOp} {t : Token} {us vs : List Token} :
    t.kind.sum? = some op → Product us right → Terms (.binary op left right) vs whole →
    Terms left (t :: (us ++ vs)) whole
  | minus {left right whole : Expr} {t : Token} {us vs : List Token} :
    t.isNegativeNumber → Chain Operand Kind.product? (.number t.dropFirst.numberValue) us right →
    Terms (.binary .sub left right) vs whole → Terms left (t :: (us ++ vs)) whole

/-- Products with `+` and `-` between them. -/
inductive Sum : List Token → Expr → Prop
  | intro {us vs : List Token} {first whole : Expr} :
    Product us first → Terms first vs whole → Sum (us ++ vs) whole

/-- Sums with comparisons between them. -/
inductive Expression : List Token → Expr → Prop
  | intro {us vs : List Token} {first whole : Expr} :
    Sum us first → Chain Sum Kind.comparison? first vs whole → Expression (us ++ vs) whole

end

theorem Operand.product {us : List Token} {e : Expr} (operand : Operand us e) : Product us e := by
  simpa using Product.intro operand .nil

theorem Product.sum {us : List Token} {e : Expr} (product : Product us e) : Sum us e := by
  simpa using Sum.intro product .nil

theorem Sum.expression {us : List Token} {e : Expr} (sum : Sum us e) : Expression us e := by
  simpa using Expression.intro sum .nil

/-- An operand is an expression. -/
theorem Operand.expression {us : List Token} {e : Expr} (operand : Operand us e) : Expression us e :=
  operand.product.sum.expression

/-! ## Statements -/

/-- The name of a type after a colon, or nothing. -/
inductive Annotation : List Token → Option String → Prop
  | none : Annotation [] none
  | some {colon t : Token} :
    colon.kind = .colon → t.kind = .identifier → Annotation [colon, t] (some t.text)

/-- A name with the type that it is annotated with. -/
inductive Parameter : List Token → Param → Prop
  | intro {t : Token} {us : List Token} {type : Option String} :
    t.kind = .identifier → Annotation us type → Parameter (t :: us) ⟨t.toName, type⟩

/-- The word that may stand between the variable of a list loop and the list. -/
def IsIn (t : Token) : Prop :=
  t.kind = .identifier ∧ t.text = "in"

/-- The keyword of a print statement, and whether the line ends after the value. -/
inductive PrintWord : Kind → Bool → Prop
  | print : PrintWord .printKeyword false
  | println : PrintWord .printlnKeyword true

mutual

/-- A statement. -/
inductive Statement : List Token → Stmt → Prop
  | declare {keyword t equals semicolon : Token} {us vs : List Token} {type : Option String}
      {value : Expr} :
    keyword.kind = .letKeyword → t.kind = .identifier → Annotation us type →
    equals.kind = .assign → Expression vs value → semicolon.kind = .semicolon →
    Statement (keyword :: t :: (us ++ equals :: (vs ++ [semicolon])))
      (.declare t.toName type (some value))
  | function {keyword t opening closing : Token} {us vs ws : List Token} {params : List Param}
      {result : Option String} {body : List Stmt} :
    keyword.kind = .fnKeyword → t.kind = .identifier → opening.kind = .openParen →
    Items Parameter us params → closing.kind = .closeParen → Annotation vs result →
    Block ws body →
    Statement (keyword :: t :: opening :: (us ++ closing :: (vs ++ ws)))
      (.function t.toName params result body)
  | branch {keyword opening closing : Token} {us vs : List Token} {condition : Expr}
      {yes : List Stmt} :
    keyword.kind = .ifKeyword → opening.kind = .openParen → Expression us condition →
    closing.kind = .closeParen → Block vs yes →
    Statement (keyword :: opening :: (us ++ closing :: vs)) (.branch condition yes none)
  | branchElse {keyword opening closing otherwise : Token} {us vs ws : List Token} {condition : Expr}
      {yes no : List Stmt} :
    keyword.kind = .ifKeyword → opening.kind = .openParen → Expression us condition →
    closing.kind = .closeParen → Block vs yes → otherwise.kind = .elseKeyword → Block ws no →
    Statement (keyword :: opening :: (us ++ closing :: (vs ++ otherwise :: ws)))
      (.branch condition yes (some no))
  | loopParens {keyword opening closing : Token} {us vs : List Token} {condition : Expr}
      {body : List Stmt} :
    keyword.kind = .whileKeyword → opening.kind = .openParen → Expression us condition →
    closing.kind = .closeParen → Block vs body →
    Statement (keyword :: opening :: (us ++ closing :: vs)) (.loop condition body)
  | loop {keyword : Token} {us vs : List Token} {condition : Expr} {body : List Stmt} :
    keyword.kind = .whileKeyword → Expression us condition →
    (∀ t ∈ us.head?, t.kind ≠ .openParen) → Block vs body →
    Statement (keyword :: (us ++ vs)) (.loop condition body)
  | eachIn {keyword t word : Token} {us vs : List Token} {iterable : Expr} {body : List Stmt} :
    keyword.kind = .forKeyword → t.kind = .identifier → IsIn word → Expression us iterable →
    Block vs body → Statement (keyword :: t :: word :: (us ++ vs)) (.each t.toName iterable body)
  | each {keyword t : Token} {us vs : List Token} {iterable : Expr} {body : List Stmt} :
    keyword.kind = .forKeyword → t.kind = .identifier → Expression us iterable →
    (∀ word ∈ us.head?, ¬ IsIn word) → Block vs body →
    Statement (keyword :: t :: (us ++ vs)) (.each t.toName iterable body)
  | print {keyword opening closing semicolon : Token} {us : List Token} {value : Expr}
      {newline : Bool} :
    PrintWord keyword.kind newline → opening.kind = .openParen → Expression us value →
    closing.kind = .closeParen → semicolon.kind = .semicolon →
    Statement (keyword :: opening :: (us ++ [closing, semicolon])) (.print value newline)
  | giveBack {keyword semicolon : Token} {us : List Token} {value : Expr} :
    keyword.kind = .returnKeyword → Expression us value → semicolon.kind = .semicolon →
    Statement (keyword :: (us ++ [semicolon])) (.eval value)
  | assign {t equals semicolon : Token} {us : List Token} {value : Expr} :
    t.kind = .identifier → equals.kind = .assign → Expression us value →
    semicolon.kind = .semicolon →
    Statement (t :: equals :: (us ++ [semicolon])) (.assign t.toName value)
  | eval {semicolon : Token} {us : List Token} {value : Expr} :
    Expression us value → semicolon.kind = .semicolon → Statement (us ++ [semicolon]) (.eval value)

/-- Statements in braces. -/
inductive Block : List Token → List Stmt → Prop
  | intro {opening closing : Token} {us : List Token} {body : List Stmt} :
    opening.kind = .openBrace → Sequence Statement us body → closing.kind = .closeBrace →
    Block (opening :: (us ++ [closing])) body

end

/-- A program is a sequence of statements. -/
def Statements : List Token → Program → Prop :=
  Sequence Statement

end Grammar

end ToraCompiler
