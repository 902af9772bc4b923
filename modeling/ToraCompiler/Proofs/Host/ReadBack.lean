import Mathlib.Data.List.Forall2
import ToraCompiler.Proofs.Compilation.Layout
import ToraCompiler.Proofs.Text.Numeral
import ToraCompiler.Proofs.Token.Lossless
import ToraCompiler.Proofs.Tree.FirstOffence

/-!
# Written expressions are read back

The host language and this one share most of the notation of expressions.  An expression whose text uses
nothing else (`Host.Shared`) can be scanned and read by this language again, and what is read is the expression
that was written, with other places for its names (`Host.exprText_read`).  So the parentheses, blanks and
escapes that the writer puts in group the text as the tree does.

The proof follows the text from left to right.  `Scan.Spells` says what tokens some characters are cut into
in front of others, and composes along a text; a written operand keeps its tokens to itself because the writer
puts only a blank, a comma or a closing mark behind it (`Host.Closed`).
-/

namespace ToraCompiler

open Grammar

/-! ## Texts in front of others -/

/-- Whether the text is a word that no keyword takes. -/
def isIdentifier (text : String) : Bool :=
  text.toList.head?.any isWordStart && text.toList.tail.all isWordPart && (keywords.lookup text).isNone

namespace Piece

/-- An identifier is found whole in front of anything that does not go on with it. -/
theorem first?_identifier {text : String} (h : isIdentifier text) {rest : List Char}
    (stops : ∀ c ∈ rest.head?, isWordPart c = false) :
    first? (text.toList ++ rest) = some ⟨some .identifier, text.toList⟩ := by
  simp only [isIdentifier, Bool.and_eq_true, Option.isNone_iff_eq_none] at h
  obtain ⟨⟨start, parts⟩, notKeyword⟩ := h
  have same := String.ofList_toList (s := text)
  generalize text.toList = cs at start parts same ⊢
  cases cs with
  | nil => cases start
  | cons c cs =>
    have isStart : isWordStart c = true := start
    have taken := (takeWhile_append_stopped (List.all_eq_true.1 parts) stops).1
    rw [List.tail_cons] at taken
    simp only [List.cons_append, first?, isStart, if_true, taken, word, same, notKeyword, Option.getD_none]

/-- A number is found whole in front of neither a digit nor a point. -/
theorem first?_numeral {text rest : List Char} (h : IsNumeral text)
    (stops : ∀ c ∈ rest.head?, c.isDigit = false ∧ c ≠ '.') :
    first? (text ++ rest) = some ⟨some .number, text⟩ := by
  rcases h with magnitude | ⟨magnitude, isMagnitude, rfl⟩
  · have whole := numberText_magnitude_append magnitude stops
    obtain ⟨c, ds, rfl, digit⟩ := magnitude.starts
    rw [List.cons_append] at whole ⊢
    simp only [first?, isWordStart_of_isDigit digit, digit, Bool.false_eq_true, if_false, if_true, whole]
  · have whole := numberText_magnitude_append isMagnitude stops
    have digit : (magnitude ++ rest).head?.any Char.isDigit = true := by
      obtain ⟨c, ds, rfl, digit⟩ := isMagnitude.starts
      exact digit
    have plain : isWordStart '-' = false ∧ '-'.isDigit = false := by decide
    rw [List.cons_append]
    simp only [first?, plain.1, plain.2, digit, Bool.false_eq_true, if_false, and_self, if_true, whole]

end Piece

/-- The characters are cut into these tokens in front of `rest`, up to places. -/
def Scan.Spells (cs rest : List Char) (ts : List Token) : Prop :=
  ∀ p, ∃ us p', walk p 0 (cs ++ rest) = (walk p' 0 rest).behind us ∧ us.map (Token.moved placeless) = ts

/-- A token without a place. -/
def Kind.token (kind : Kind) (text : String) : Token where
  kind := kind
  text := text
  position := .start

namespace Scan.Spells

variable {cs ds rest : List Char} {ts us : List Token}

theorem append (first : Spells cs (ds ++ rest) ts) (second : Spells ds rest us) :
    Spells (cs ++ ds) rest (ts ++ us) := by
  intro p
  obtain ⟨found, middle, walked, same⟩ := first p
  obtain ⟨found', p', walked', same'⟩ := second middle
  refine ⟨found ++ found', p', ?_, ?_⟩
  · rw [List.append_assoc, walked, walked']
    simp only [Scan.behind, List.append_assoc]
  · rw [List.map_append, same, same']

theorem token {text : String} {kind : Kind} (nonempty : text.toList ≠ [])
    (found : Piece.first? (text.toList ++ rest) = some ⟨some kind, text.toList⟩) :
    Spells text.toList rest [kind.token text] := by
  intro p
  have walked := walk_token (p := p) nonempty found
  rw [String.ofList_toList] at walked
  exact ⟨[⟨kind, text, p⟩], _, walked, rfl⟩

theorem blank (spells : Spells cs rest ts) : Spells (' ' :: cs) rest ts := by
  intro p
  obtain ⟨us, p', walked, same⟩ := spells (p.after ' ')
  exact ⟨us, p', (walk_separator p (by decide) (cs ++ rest)).trans walked, same⟩

/-- A whole text is cut into one row of tokens. -/
theorem unique (left : Spells cs [] ts) (right : Spells cs [] us) : ts = us := by
  obtain ⟨found, p, walked, rfl⟩ := left .start
  obtain ⟨found', p', walked', rfl⟩ := right .start
  have rows : found ++ (finish p).tokens = found' ++ (finish p').tokens :=
    congrArg Scan.tokens (walked.symm.trans walked')
  rw [(List.append_inj' rows rfl).1]

end Scan.Spells

/-- If the second reader takes the whole moved row, the first takes the whole row. -/
theorem Reader.Follows.accept_all {α β : Type} {f : Position → Position} {g : α → β} {r : Reader α}
    {r' : Reader β} (follows : Reader.Follows f g r r') {ts : List Token} {b : β}
    (accepted : r' (ts.map (Token.moved f)) = .accept b []) : ∃ a, r ts = .accept a [] ∧ g a = b := by
  have replied := follows ts
  generalize reply : r ts = first, reply' : r' (ts.map (Token.moved f)) = second at replied
  cases replied with
  | accept a rest =>
    obtain ⟨sameValue, nothingLeft⟩ := Reply.accept.inj (reply'.symm.trans accepted)
    obtain rfl := List.map_eq_nil_iff.1 nothingLeft
    exact ⟨a, rfl, sameValue⟩
  | refuse => cases reply'.symm.trans accepted

/-! ## Operators -/

/-- The kind of an operator's token. -/
def BinaryOp.kind : BinaryOp → Kind
  | .eq => .equal
  | .ne => .notEqual
  | .le => .lessEqual
  | .ge => .greaterEqual
  | .lt => .less
  | .gt => .greater
  | .add => .plus
  | .sub => .minus
  | .mul => .star
  | .div => .slash

theorem BinaryOp.symbol_mem_marks (op : BinaryOp) : (op.symbol.toList, op.kind) ∈ marks := by
  cases op <;> decide

/-- Every operator has its level of the grammar. -/
theorem BinaryOp.kind_level (op : BinaryOp) :
    op.kind.product? = some op ∨ op.kind.sum? = some op ∨ op.kind.comparison? = some op := by
  cases op <;> decide

/-- Two operands with an operator between them are an expression, whatever the operator's level. -/
theorem Grammar.Expression.operation {us vs : List Token} {left right : Expr} {op : BinaryOp} {t : Token}
    (isOp : t.kind = op.kind) (first : Operand us left) (second : Operand vs right) :
    Expression (us ++ t :: vs) (.binary op left right) := by
  rcases op.kind_level with level | level | level
  · rw [← isOp] at level
    have product := Product.intro first (.cons level second .nil)
    rw [List.append_nil] at product
    exact product.sum.expression
  · rw [← isOp] at level
    have sum := Sum.intro first.product (.term level second.product .nil)
    rw [List.append_nil] at sum
    exact sum.expression
  · rw [← isOp] at level
    have expression := Expression.intro first.product.sum (.cons level second.product.sum .nil)
    rwa [List.append_nil] at expression

/-! ## Literals -/

/-- Digits, with or without a minus. -/
def IsInteger (cs : List Char) : Prop :=
  IsDigits cs ∨ ∃ digits, IsDigits digits ∧ cs = '-' :: digits

theorem IsInteger.numeral {cs : List Char} (h : IsInteger cs) : IsNumeral cs := by
  rcases h with digits | ⟨magnitude, digits, written⟩
  · exact .inl (.inl digits)
  · exact .inr ⟨magnitude, .inl digits, written⟩

theorem IsInteger.point_notMem {cs : List Char} (h : IsInteger cs) : '.' ∉ cs := by
  rcases h with digits | ⟨magnitude, digits, rfl⟩
  · exact digits.point_notMem
  · intro member
    rcases List.mem_cons.1 member with same | later
    · cases same
    · exact digits.point_notMem later

/-- An integer text that is outside the range of 64 signed bits. -/
def IsWide (cs : List Char) : Prop :=
  (IsDigits cs ∧ 2 ^ 63 ≤ Numeral.value cs) ∨
    ∃ digits, IsDigits digits ∧ 2 ^ 63 < Numeral.value digits ∧ cs = '-' :: digits

theorem IsWide.isInteger {cs : List Char} (h : IsWide cs) : IsInteger cs := by
  rcases h with ⟨digits, -⟩ | ⟨magnitude, digits, -, written⟩
  · exact .inl digits
  · exact .inr ⟨magnitude, digits, written⟩

theorem IsDigits.natural?_eq {cs : List Char} (digits : IsDigits cs) :
    Numeral.natural? cs = some (Numeral.value cs) := by
  unfold Numeral.natural?
  rw [if_pos ⟨digits.1, List.all_eq_true.2 digits.2⟩]

theorem IsWide.int64?_eq {cs : List Char} (h : IsWide cs) : Numeral.int64? cs = none := by
  have power : Nat.pow 2 63 = 2 ^ 63 := rfl
  unfold Numeral.int64?
  rcases h with ⟨digits, large⟩ | ⟨magnitude, digits, large, rfl⟩
  · have sign : Numeral.splitSign cs = (false, cs) := IsMagnitude.splitSign_eq (.inl digits)
    simp only [sign, digits.natural?_eq, power, Nat.not_lt.2 large, Bool.false_eq_true, if_false]
  · simp only [Numeral.splitSign, digits.natural?_eq, power, Nat.not_le.2 large, if_true, if_false]

theorem isDigits_toString (n : Nat) : IsDigits (toString n).toList :=
  ⟨toString_ne_nil n, fun _ member => isDigit_of_mem_toString member⟩

theorem isInteger_toString (v : Int) : IsInteger (toString v).toList := by
  rcases Numeral.toList_toString_int v with ⟨-, written⟩ | ⟨-, written⟩
  · rw [written]
    exact .inl (isDigits_toString _)
  · exact .inr ⟨_, isDigits_toString _, written⟩

/-- The text of the number is an integer text that denotes it. -/
structure Number.IsWhole (value : Number) : Prop where
  integer : IsInteger value.text.toList
  denotes : Number.ofLiteral? value.text = some value

theorem Number.isWhole_int {v : Int} (least : -2 ^ 63 ≤ v) (greatest : v < 2 ^ 63) :
    (Number.int v).IsWhole := by
  refine ⟨isInteger_toString v, ?_⟩
  show Number.ofLiteral? (toString v) = some (.int v)
  unfold Number.ofLiteral?
  rw [if_neg (isInteger_toString v).point_notMem, Numeral.int64?_toString least greatest]

theorem Number.isWhole_wide {text : String} (h : IsWide text.toList) : (Number.wide text).IsWhole := by
  refine ⟨h.isInteger, ?_⟩
  show Number.ofLiteral? text = some (.wide text)
  unfold Number.ofLiteral?
  rw [if_neg h.isInteger.point_notMem, h.int64?_eq]

namespace Host

/-- Whether the character has a written form that this language knows: it is no control, or one of the three
that are written with a letter. -/
def isSharedChar (c : Char) : Bool :=
  !isControl c || c = '\n' || c = '\r' || c = '\t'

theorem literalChar_cases {c : Char} (shared : isSharedChar c) :
    (∃ letter, literalChar c = ['\\', letter] ∧ letter ≠ '\n' ∧ escapeValue? letter = some c) ∨
      (literalChar c = [c] ∧ c ≠ '"' ∧ c ≠ '\\') := by
  unfold literalChar escapeLetter?
  split
  · next letter found =>
    refine .inl ⟨letter, rfl, ?_⟩
    split at found <;> cases found <;> decide
  · next notFound =>
    have others : c ≠ '\\' ∧ c ≠ '"' ∧ c ≠ '\n' ∧ c ≠ '\r' ∧ c ≠ '\t' := by
      refine ⟨?_, ?_, ?_, ?_, ?_⟩ <;> rintro rfl <;> cases notFound
    obtain ⟨notSlash, notQuote, notNewline, notReturn, notTab⟩ := others
    have notControl : isControl c = false := by
      simpa [isSharedChar, notNewline, notReturn, notTab] using shared
    rw [notControl]
    exact .inr ⟨rfl, notQuote, notSlash⟩

/-- What is written between the quotes is a string body, and its escapes stand for the text. -/
theorem literal_body {cs : List Char} (shared : ∀ c ∈ cs, isSharedChar c) :
    StringBody (cs.flatMap literalChar) ∧ unescape (cs.flatMap literalChar) = cs := by
  induction cs with
  | nil => exact ⟨.nil, rfl⟩
  | cons c cs ih =>
    obtain ⟨body, value⟩ := ih fun d member => shared d (List.mem_cons_of_mem c member)
    rw [List.flatMap_cons]
    rcases literalChar_cases (shared c List.mem_cons_self) with ⟨letter, written, notNewline, means⟩ |
      ⟨written, notQuote, notSlash⟩
    · rw [written]
      refine ⟨.escape notNewline body, ?_⟩
      simp [unescape, means, value]
    · rw [written]
      refine ⟨.plain notQuote notSlash body, ?_⟩
      rw [List.singleton_append, unescape.eq_def]
      simp only [if_neg notSlash, value]

/-! ## Expressions in the shared notation -/

/-- The expressions that are written in notation that this language knows: whole numbers, texts without other
controls, names and calls that stand for themselves, lists without the words for truth values, and operations
that are not concatenations. -/
inductive Shared (names : NameScopes) : Expr → Prop
  | int {v : Int} : -2 ^ 63 ≤ v → v < 2 ^ 63 → Shared names (.number (.int v))
  | wide {text : String} : IsWide text.toList → Shared names (.number (.wide text))
  | str {value : String} : (∀ c ∈ value.toList, isSharedChar c) → Shared names (.str value)
  | name {n : Name} : isIdentifier n.text →
    (Catalog.constant? n.text = none ∨ names.isDeclared n.text) → Shared names (.name n)
  | call {callee : Name} {args : List Expr} : isIdentifier callee.text →
    (Catalog.function? callee.text = none ∨ names.isDeclared callee.text) →
    (∀ arg ∈ args, Shared names arg) → Shared names (.call callee args)
  | list {items : List Expr} : (∀ item ∈ items, Shared names item) →
    (∀ n : Name, .name n ∈ items → n.text ≠ "true" ∧ n.text ≠ "false") → Shared names (.list items)
  | binary {op : BinaryOp} {left right : Expr} : Shared names left → Shared names right →
    (op = .add → mayBeNumber left ∧ mayBeNumber right) → Shared names (.binary op left right)

/-- What the writer puts behind an operand. -/
def Closed (rest : List Char) : Prop :=
  ∀ c ∈ rest.head?, c = ' ' ∨ c = ',' ∨ c = ')' ∨ c = ']'

theorem Closed.stops {rest : List Char} (closed : Closed rest) :
    (∀ c ∈ rest.head?, isWordPart c = false) ∧ ∀ c ∈ rest.head?, c.isDigit = false ∧ c ≠ '.' := by
  refine ⟨fun c first => ?_, fun c first => ?_⟩
  · rcases closed c first with rfl | rfl | rfl | rfl <;> decide
  · rcases closed c first with rfl | rfl | rfl | rfl <;> decide

theorem closed_cons {c : Char} (closes : c = ' ' ∨ c = ',' ∨ c = ')' ∨ c = ']') (rest : List Char) :
    Closed (c :: rest) := by
  intro d head
  obtain rfl := Option.some.inj head
  exact closes

/-- The text is cut into an operand that is read as the expression, in front of whatever the writer puts
behind it. -/
def SpellsOperand (text : String) (e : Expr) : Prop :=
  ∃ ts, Operand ts (e.moved placeless) ∧ ∀ rest, Closed rest → Scan.Spells text.toList rest ts

/-- So for a row of expressions with commas between them. -/
def SpellsItems (text : String) (es : List Expr) : Prop :=
  ∃ ts, Items Expression ts (Expr.movedAll placeless es) ∧
    ∀ rest, Closed rest → Scan.Spells text.toList rest ts

theorem spellsOperand_number {value : Number} (whole : value.IsWhole) :
    SpellsOperand value.text (.number value) := by
  have denoted : (Kind.number.token value.text).numberValue = value := by
    show (Number.ofLiteral? value.text).getD (.wide value.text) = value
    rw [whole.denotes]
    rfl
  have operand : Operand [Kind.number.token value.text] _ := .number rfl
  rw [denoted] at operand
  have numeral := whole.integer.numeral
  exact ⟨_, operand, fun rest closed =>
    .token (Lexeme.number numeral).ne_nil (Piece.first?_numeral numeral closed.stops.2)⟩

theorem spellsOperand_str {value : String} (shared : ∀ c ∈ value.toList, isSharedChar c) :
    SpellsOperand (stringLiteral value) (.str value) := by
  obtain ⟨body, means⟩ := literal_body shared
  have written : (stringLiteral value).toList = '"' :: (value.toList.flatMap literalChar ++ ['"']) :=
    String.toList_ofList
  have denoted : (Kind.string.token (stringLiteral value)).stringValue = value := by
    show String.ofList (unescape (stringLiteral value).toList.tail.dropLast) = value
    rw [written, List.tail_cons, List.dropLast_concat, means, String.ofList_toList]
  have operand : Operand [Kind.string.token (stringLiteral value)] _ := .string rfl
  rw [denoted] at operand
  refine ⟨_, operand, fun rest _ => .token (by simp [written]) ?_⟩
  rw [written]
  exact Piece.first?_string body rest

theorem isIdentifier.ne_nil {text : String} (h : isIdentifier text) : text.toList ≠ [] := by
  intro empty
  simp [isIdentifier, empty] at h

theorem spellsOperand_name {n : Name} (word : isIdentifier n.text) : SpellsOperand n.text (.name n) :=
  ⟨[Kind.identifier.token n.text], .name rfl, fun _ closed =>
    .token (isIdentifier.ne_nil word) (Piece.first?_identifier word closed.stops.1)⟩

/-- A mark of one character that begins no longer one is found in front of anything. -/
theorem spells_mark (c : Char) (kind : Kind) (member : (c, kind) ∈
      [('(', Kind.openParen), (')', .closeParen), ('[', .openBracket), (']', .closeBracket), (',', .comma)])
    (rest : List Char) : Scan.Spells [c] rest [kind.token (String.singleton c)] := by
  have found : Piece.first? ((String.singleton c).toList ++ rest) =
      some ⟨some kind, (String.singleton c).toList⟩ := by
    simp only [List.mem_cons, Prod.mk.injEq, List.not_mem_nil, or_false] at member
    rcases member with ⟨rfl, rfl⟩ | ⟨rfl, rfl⟩ | ⟨rfl, rfl⟩ | ⟨rfl, rfl⟩ | ⟨rfl, rfl⟩ <;> rfl
  have spells := Scan.Spells.token (by simp) found
  rwa [String.toList_singleton] at spells

/-- The first of some written expressions, and the others behind their commas. -/
theorem spells_joined {text : String} {e : Expr} {texts : List String} {es : List Expr}
    (first : SpellsOperand text e) (others : List.Forall₂ SpellsOperand texts es) :
    ∃ us vs, Expression us (e.moved placeless) ∧ MoreItems Expression vs (Expr.movedAll placeless es) ∧
      ∀ rest, Closed rest → Scan.Spells (joinWith ", " (text :: texts)).toList rest (us ++ vs) := by
  induction others generalizing text e with
  | nil =>
    obtain ⟨us, operand, spells⟩ := first
    refine ⟨us, [], operand.expression, .nil, fun rest closed => ?_⟩
    rw [List.append_nil]
    exact spells rest closed
  | @cons next e' texts es spelled _ ih =>
    obtain ⟨us, operand, spells⟩ := first
    obtain ⟨us', vs, expression, more, spellsMore⟩ := ih spelled
    refine ⟨us, Kind.comma.token "," :: (us' ++ vs), operand.expression, .cons rfl expression more,
      fun rest closed => ?_⟩
    have row : (joinWith ", " (text :: next :: texts)).toList =
        text.toList ++ ([','] ++ ' ' :: (joinWith ", " (next :: texts)).toList) := by
      simp [joinWith]
    have comma := spells_mark ',' .comma (by decide)
      (' ' :: (joinWith ", " (next :: texts)).toList ++ rest)
    rw [row]
    exact .append (spells _ (closed_cons (by decide) _)) (.append comma (spellsMore rest closed).blank)

theorem spellsItems_commaSeparated {texts : List String} {es : List Expr}
    (each : List.Forall₂ SpellsOperand texts es) : SpellsItems (commaSeparated texts) es := by
  cases each with
  | nil => exact ⟨[], .nil, fun rest _ p => ⟨[], p, rfl, rfl⟩⟩
  | cons first others =>
    obtain ⟨us, vs, expression, more, spells⟩ := spells_joined first others
    exact ⟨us ++ vs, .cons expression more, spells⟩

theorem spellsOperand_call {callee : Name} {text : String} {args : List Expr} (word : isIdentifier callee.text)
    (items : SpellsItems text args) :
    SpellsOperand (callee.text ++ "(" ++ text ++ ")") (.call callee args) := by
  obtain ⟨ts, derived, spells⟩ := items
  have operand : Operand (Kind.identifier.token callee.text :: Kind.openParen.token "(" ::
      (ts ++ [Kind.closeParen.token ")"])) _ := .call rfl rfl derived rfl
  refine ⟨_, operand, fun rest _ => ?_⟩
  have row : (callee.text ++ "(" ++ text ++ ")").toList =
      callee.text.toList ++ (['('] ++ (text.toList ++ [')'])) := by simp
  have stops : ∀ c ∈ (['('] ++ (text.toList ++ [')']) ++ rest).head?, isWordPart c = false := by
    intro c head
    obtain rfl := Option.some.inj head
    decide
  have found := Piece.first?_identifier word stops
  have inner := spells ([')'] ++ rest) (closed_cons (by decide) rest)
  have opening := spells_mark '(' .openParen (by decide) (text.toList ++ [')'] ++ rest)
  have closing := spells_mark ')' .closeParen (by decide) rest
  rw [row]
  exact .append (.token (isIdentifier.ne_nil word) found) (.append opening (.append inner closing))

theorem spellsOperand_list {text : String} {items : List Expr} (spelled : SpellsItems text items) :
    SpellsOperand ("[" ++ text ++ "]") (.list items) := by
  obtain ⟨ts, derived, spells⟩ := spelled
  have operand : Operand (Kind.openBracket.token "[" :: (ts ++ [Kind.closeBracket.token "]"])) _ :=
    .list rfl derived rfl
  refine ⟨_, operand, fun rest _ => ?_⟩
  have row : ("[" ++ text ++ "]").toList = ['['] ++ (text.toList ++ [']']) := by simp
  have inner := spells ([']'] ++ rest) (closed_cons (by decide) rest)
  have opening := spells_mark '[' .openBracket (by decide) (text.toList ++ [']'] ++ rest)
  have closing := spells_mark ']' .closeBracket (by decide) rest
  rw [row]
  exact .append opening (.append inner closing)

/-- The blanks around an operator keep it from running into its operands, a minus of the second operand
included. -/
theorem spellsOperand_binary {op : BinaryOp} {leftText rightText : String} {left right : Expr}
    (first : SpellsOperand leftText left) (second : SpellsOperand rightText right) :
    SpellsOperand ("(" ++ leftText ++ " " ++ op.symbol ++ " " ++ rightText ++ ")") (.binary op left right) := by
  obtain ⟨us, firstOperand, firstSpells⟩ := first
  obtain ⟨vs, secondOperand, secondSpells⟩ := second
  have operation : Expression (us ++ op.kind.token op.symbol :: vs) _ :=
    .operation rfl firstOperand secondOperand
  have operand : Operand (Kind.openParen.token "(" ::
      ((us ++ op.kind.token op.symbol :: vs) ++ [Kind.closeParen.token ")"])) _ := .parens rfl operation rfl
  refine ⟨_, operand, fun rest _ => ?_⟩
  have row : ("(" ++ leftText ++ " " ++ op.symbol ++ " " ++ rightText ++ ")").toList =
      ['('] ++ (leftText.toList ++ ' ' :: (op.symbol.toList ++ ' ' :: (rightText.toList ++ [')']))) := by
    simp
  have ts : Kind.openParen.token "(" :: ((us ++ op.kind.token op.symbol :: vs) ++ [Kind.closeParen.token ")"]) =
      [Kind.openParen.token "("] ++ (us ++ ([op.kind.token op.symbol] ++ (vs ++ [Kind.closeParen.token ")"]))) := by
    simp
  have nonempty : op.symbol.toList ≠ [] := by cases op <;> decide
  have symbol : Scan.Spells op.symbol.toList (' ' :: (rightText.toList ++ [')']) ++ rest)
      [op.kind.token op.symbol] :=
    .token nonempty (Piece.first?_mark op.symbol_mem_marks fun c head => by
      obtain rfl := Option.some.inj head
      decide)
  have closing := spells_mark ')' .closeParen (by decide) rest
  have inner := secondSpells ([')'] ++ rest) (closed_cons (by decide) rest)
  rw [row, ts]
  refine .append (spells_mark '(' .openParen (by decide) _) (.append (firstSpells _ (closed_cons (by decide) _)) ?_)
  exact (Scan.Spells.append symbol (Scan.Spells.append inner closing).blank).blank

/-! ## Reading back -/

/-- Only a name is read from an identifier. -/
theorem name_of_spellsOperand {word : String} (isWord : isIdentifier word) {e : Expr}
    (spelled : SpellsOperand word e) : ∃ n : Name, e = .name n ∧ n.text = word := by
  obtain ⟨ts, operand, spells⟩ := spelled
  have alone : Scan.Spells word.toList [] [Kind.identifier.token word] :=
    .token (isIdentifier.ne_nil isWord) (Piece.first?_identifier isWord nofun)
  obtain rfl := (spells [] nofun).unique alone
  generalize row : [Kind.identifier.token word] = us, tree : e.moved placeless = e' at operand
  cases operand with
  | name kind =>
    obtain rfl := (List.cons.inj row).1
    cases e with
    | name n => exact ⟨n, rfl, congrArg Name.text (Expr.name.inj tree)⟩
    | binary => cases tree
    | call => cases tree
    | number => cases tree
    | str => cases tree
    | list => cases tree
  | number kind =>
    obtain rfl := (List.cons.inj row).1
    cases kind
  | string kind =>
    obtain rfl := (List.cons.inj row).1
    cases kind
  | call => cases (List.cons.inj row).2
  | parens kind =>
    obtain rfl := (List.cons.inj row).1
    cases kind
  | list kind =>
    obtain rfl := (List.cons.inj row).1
    cases kind

theorem exprTexts_eq_map (names : NameScopes) (es : List Expr) :
    exprTexts names es = es.map (exprText names) := by
  induction es with
  | nil => rfl
  | cons e es ih => rw [exprTexts, ih, List.map_cons]

/-- A shared expression is written as an operand that is read as it. -/
theorem Shared.spellsOperand {names : NameScopes} {e : Expr} (shared : Shared names e) :
    SpellsOperand (exprText names e) e := by
  induction shared with
  | int least greatest => exact spellsOperand_number (Number.isWhole_int least greatest)
  | wide isWide => exact spellsOperand_number (Number.isWhole_wide isWide)
  | str chars => exact spellsOperand_str chars
  | @name n word itself =>
    have written : exprText names (.name n) = n.text := by
      rw [exprText, nameText]
      rcases itself with none | declared
      · rw [none]
      · rw [declared]
        cases Catalog.constant? n.text <;> rfl
    rw [written]
    exact spellsOperand_name word
  | @call callee args word itself _ ih =>
    have written : exprText names (.call callee args) = Host.call callee.text (exprTexts names args) := by
      have noBuiltin : builtinFor? names callee.text = none := by
        unfold builtinFor?
        rcases itself with none | declared
        · rw [none, Option.filter_none]
        · simp [declared]
      rw [exprText, callText, noBuiltin]
    rw [written, exprTexts_eq_map]
    refine spellsOperand_call word (spellsItems_commaSeparated ?_)
    exact List.forall₂_map_left_iff.2 (List.forall₂_same.2 ih)
  | @list items _ notTruth ih =>
    rw [exprText, exprTexts_eq_map, List.map_map]
    refine spellsOperand_list (spellsItems_commaSeparated ?_)
    refine List.forall₂_map_left_iff.2 (List.forall₂_same.2 fun item member => ?_)
    have notWord : ∀ word, isIdentifier word → (word = "true" ∨ word = "false") →
        exprText names item ≠ word := by
      intro word isWord truth written
      have spelled := ih item member
      rw [written] at spelled
      obtain ⟨n, rfl, rfl⟩ := name_of_spellsOperand isWord spelled
      obtain ⟨notTrue, notFalse⟩ := notTruth n member
      exact truth.elim notTrue notFalse
    have written : itemText (exprText names item) = exprText names item := by
      unfold itemText
      rw [if_neg (notWord "true" (by decide) (.inl rfl)), if_neg (notWord "false" (by decide) (.inr rfl))]
    rw [Function.comp_apply, written]
    exact ih item member
  | @binary op left right _ _ numbers ihLeft ihRight =>
    have written : exprText names (.binary op left right) =
        "(" ++ exprText names left ++ " " ++ op.symbol ++ " " ++ exprText names right ++ ")" := by
      rw [exprText, binaryText, if_neg]
      rintro ⟨isAdd, notNumbers⟩
      exact notNumbers (numbers isAdd)
    rw [written]
    exact spellsOperand_binary ihLeft ihRight

/-- Scanning what is written for a shared expression succeeds, and reading an expression from the tokens takes
all of them up to the end and gives the expression back, up to the places of its names. -/
theorem exprText_read {names : NameScopes} {e : Expr} (shared : Shared names e) :
    ∃ us p e', tokensOf (exprText names e) = .ok (us ++ [⟨.endOfInput, "", p⟩]) ∧
      (∀ t ∈ us, t.kind ≠ .endOfInput) ∧
      (Input.ofTokens (us ++ [⟨.endOfInput, "", p⟩])).read Reader.expression = (.ok e', ⟨[], p⟩) ∧
      e'.moved placeless = e.moved placeless := by
  obtain ⟨ts, operand, spells⟩ := shared.spellsOperand
  obtain ⟨us, q, walked, rfl⟩ := spells [] nofun .start
  rw [List.append_nil] at walked
  have scanned : tokensOf (exprText names e) = .ok (us ++ [⟨.endOfInput, "", ⟨q.line, 0⟩⟩]) :=
    tokensOf_eq_ok_iff.2 walked
  obtain ⟨p, ends⟩ := tokensOf_ends scanned
  have before := (List.append_inj' ends rfl).1
  have notEnds : ∀ t ∈ us, t.kind ≠ .endOfInput := by
    intro t member
    rw [before] at member
    exact kind_ne_of_mem_tokensBeforeEnd member
  have values : ∀ t ∈ us.map (Token.moved placeless), t.HasValue := by
    intro t member
    obtain ⟨u, inRow, rfl⟩ := List.mem_map.1 member
    have spelled := wellSpelled_of_tokensOf scanned u (List.mem_append_left _ inRow)
    exact spelled.hasValue
  have accepted : Reader.expression (us.map (Token.moved placeless)) = .accept (e.moved placeless) [] := by
    have accepts := Reader.expression_accepts _ _ [] ⟨operand.expression, values, nofun⟩
    rwa [List.append_nil] at accepts
  obtain ⟨e', read, sameTree⟩ := Reader.expression_follows.accept_all accepted
  have isEnd : (⟨.endOfInput, "", ⟨q.line, 0⟩⟩ : Token).kind = .endOfInput := rfl
  have finish := Input.finish_of_end notEnds isEnd []
  have tokens : (Input.ofTokens (us ++ [⟨.endOfInput, "", ⟨q.line, 0⟩⟩])).tokens = us := before.symm
  refine ⟨us, _, e', scanned, notEnds, ?_, sameTree⟩
  unfold Input.read
  rw [tokens, read, finish]

/-- The least integer behind an operator, a wider one, a name that the program has taken from a constant, a call
of one that it has taken from a built-in function, and a text that looks like the end of its own literal. -/
def sharedSample : Expr :=
  .binary .sub
    (.list [.call ⟨"max", ⟨7, 3⟩⟩ [.name ⟨"PI", ⟨7, 7⟩⟩, .str "a\\\"), b\n// c"],
      .number (.wide "-9223372036854775809")])
    (.binary .div (.name ⟨"_x", ⟨8, 1⟩⟩) (.number (.int (-9223372036854775808))))

theorem sharedSample_shared : Shared (.ofGlobals ["max", "PI"]) sharedSample := by
  have allDigits : "9223372036854775809".toList.all Char.isDigit = true := by decide
  have digits : IsDigits "9223372036854775809".toList := ⟨by decide, List.all_eq_true.1 allDigits⟩
  have wide : IsWide "-9223372036854775809".toList := .inr ⟨_, digits, by decide +kernel, rfl⟩
  have allShared : "a\\\"), b\n// c".toList.all isSharedChar = true := by decide
  have text := List.all_eq_true.1 allShared
  have args : ∀ arg ∈ [Expr.name ⟨"PI", ⟨7, 7⟩⟩, .str "a\\\"), b\n// c"],
      Shared (.ofGlobals ["max", "PI"]) arg := by
    simp only [List.forall_mem_cons, List.not_mem_nil, false_implies, implies_true, and_true]
    exact ⟨.name (by decide) (.inr (by decide)), .str text⟩
  have callee : isIdentifier (⟨"max", ⟨7, 3⟩⟩ : Name).text := by decide
  have items := Shared.call callee (.inr (by decide)) args
  refine .binary (.list ?_ ?_) (.binary (.name (by decide) (.inl (by decide)))
    (.int (by decide) (by decide)) (by decide)) (by decide)
  · simp only [List.forall_mem_cons, List.not_mem_nil, false_implies, implies_true, and_true]
    exact ⟨items, .wide wide⟩
  · intro n member
    simp at member

theorem exprText_read_sample :
    Shared (.ofGlobals ["max", "PI"]) sharedSample ∧
      exprText (.ofGlobals ["max", "PI"]) sharedSample =
        "([max(PI, \"a\\\\\\\"), b\\n// c\"), -9223372036854775809] - (_x / -9223372036854775808))" ∧
      ∃ us p e', tokensOf (exprText (.ofGlobals ["max", "PI"]) sharedSample) =
          .ok (us ++ [⟨.endOfInput, "", p⟩]) ∧
        (∀ t ∈ us, t.kind ≠ .endOfInput) ∧
        (Input.ofTokens (us ++ [⟨.endOfInput, "", p⟩])).read Reader.expression = (.ok e', ⟨[], p⟩) ∧
        e'.moved placeless = sharedSample.moved placeless :=
  ⟨sharedSample_shared, by decide +kernel, exprText_read sharedSample_shared⟩

end Host

end ToraCompiler
