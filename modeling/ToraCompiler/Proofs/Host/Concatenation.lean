import ToraCompiler.Proofs.Host.OneLine

/-!
# Concatenations are written flat

A sum with an operand that is neither a number nor a name concatenates strings, and each of its operands is
converted to a string.  An operand that is such a sum itself is not converted again: however the sums are
nested, the text is one row of operands, each converted once (`Host.exprText_concatenation`).

The writer does not look at the tree to find out what has been converted.  It looks whether the text starts with
`str(` and ends with a parenthesis.  For the text of an operand that is no concatenation this comes to the same
as being a call of `str` (`Host.isConversion_exprText`), with one exception: what is written for `push` starts
with the text of its first argument.
-/

namespace ToraCompiler

open Host (NameScopes)

/-! ## Operands -/

/-- Whether the expression is a sum that concatenates strings. -/
def Expr.isConcatenation : Expr → Bool
  | .binary .add left right => !(Host.mayBeNumber left && Host.mayBeNumber right)
  | _ => false

/-- The operands of a concatenation, those of the concatenations inside it in their place; any other expression
is its own only operand. -/
def Expr.operands : Expr → List Expr
  | .binary .add left right =>
    if Host.mayBeNumber left && Host.mayBeNumber right then [.binary .add left right]
    else left.operands ++ right.operands
  | e => [e]

/-- Whether the expression is a call of the built-in `push` with two arguments, which is written as a method
call. -/
def Expr.isAppend (names : NameScopes) : Expr → Bool
  | .call callee [_, _] => callee.text = "push" && !names.isDeclared "push"
  | _ => false

namespace Expr

theorem isConcatenation_add (left right : Expr) : (binary .add left right).isConcatenation =
    !(Host.mayBeNumber left && Host.mayBeNumber right) := rfl

theorem operands_of_concatenation {left right : Expr} (h : (binary .add left right).isConcatenation) :
    (binary .add left right).operands = left.operands ++ right.operands := by
  rw [isConcatenation_add, Bool.not_eq_true'] at h
  rw [operands, h]
  rfl

theorem operands_of_other {e : Expr} (h : e.isConcatenation = false) : e.operands = [e] := by
  unfold operands
  split
  · next left right =>
    rw [isConcatenation_add, Bool.not_eq_false'] at h
    rw [if_pos h]
  · rfl

theorem operands_ne_nil : ∀ e : Expr, e.operands ≠ []
  | .binary .add left right => by
    cases h : (binary .add left right).isConcatenation with
    | true =>
      rw [operands_of_concatenation h]
      exact List.append_ne_nil_of_left_ne_nil left.operands_ne_nil _
    | false =>
      rw [operands_of_other h]
      exact List.cons_ne_nil _ _
  | .binary .eq .. | .binary .ne .. | .binary .le .. | .binary .ge .. | .binary .lt .. | .binary .gt ..
  | .binary .sub .. | .binary .mul .. | .binary .div .. | .call .. | .name _ | .number _ | .str _ | .list _ =>
    List.cons_ne_nil _ _

end Expr

namespace Host

/-- An operand of a concatenation, converted to a string once. -/
def operandText (names : NameScopes) (e : Expr) : String :=
  if e.isCallOf "str" then exprText names e else "str(" ++ exprText names e ++ ")"

/-! ## Texts that look converted -/

theorem isConversion_iff {text : String} :
    isConversion text ↔ "str(".toList <+: text.toList ∧ text.toList.getLast? = some ')' := by
  simp [isConversion]

/-- A text that looks converted has a parenthesis behind its first word, and the word is `str`. -/
theorem eq_str_of_begins {front rest : List Char} (plain : '(' ∉ front)
    (begins : "str(".toList <+: front ++ '(' :: rest) : front = "str".toList := by
  obtain ⟨later, same⟩ := begins
  have words := congrArg (List.takeWhile (· ≠ '(')) same
  have notParen : ∀ c ∈ front, decide (c ≠ '(') = true := by
    intro c member
    exact decide_eq_true fun isParen => plain (isParen ▸ member)
  rw [List.takeWhile_append_of_pos notParen] at words
  simpa using words.symm

theorem isConversion_call {callee : String} (plain : '(' ∉ callee.toList) (args : List String) :
    isConversion (call callee args) = decide (callee = "str") := by
  have row : (call callee args).toList = callee.toList ++ '(' :: (commaSeparated args).toList ++ [')'] := by
    simp [call]
  have ends : (call callee args).toList.getLast? = some ')' := by rw [row, List.getLast?_concat]
  rw [Bool.eq_iff_iff, isConversion_iff, decide_eq_true_iff]
  constructor
  · rintro ⟨begins, -⟩
    rw [row, List.append_assoc] at begins
    exact String.toList_injective (eq_str_of_begins plain begins)
  · rintro rfl
    rw [row] at *
    exact ⟨⟨_, rfl⟩, ends⟩

theorem isConversion_of_plain {text : String} (plain : '(' ∉ text.toList) : isConversion text = false := by
  refine Bool.eq_false_iff.2 fun converted => plain ?_
  obtain ⟨later, same⟩ := (isConversion_iff.1 converted).1
  rw [← same]
  exact List.mem_append_left _ (by decide)

theorem isConversion_of_head {text : String} (other : text.toList.head? ≠ some 's') :
    isConversion text = false := by
  refine Bool.eq_false_iff.2 fun converted => other ?_
  obtain ⟨later, same⟩ := (isConversion_iff.1 converted).1
  rw [← same]
  rfl

theorem isConversion_asString (text : String) : isConversion (asString text) := by
  unfold asString
  split
  · next converted => exact converted
  · refine isConversion_iff.2 ⟨?_, ?_⟩
    · rw [String.toList_append, String.toList_append, List.append_assoc]
      exact List.prefix_append _ _
    · rw [String.toList_append]
      exact List.getLast?_concat

/-- A converted text in front and one at the end look converted together. -/
theorem isConversion_between {first last : String} (front : isConversion first) (back : isConversion last)
    (middle : String) : isConversion (first ++ middle ++ last) := by
  have begins := (isConversion_iff.1 front).1
  have ends := (isConversion_iff.1 back).2
  refine isConversion_iff.2 ⟨?_, ?_⟩
  · rw [String.toList_append, String.toList_append, List.append_assoc]
    exact begins.trans (List.prefix_append _ _)
  · rw [String.toList_append, List.getLast?_append, ends]
    rfl

/-! ## Written operands -/

theorem paren_notMem_of_isWord {text : String} (word : IsWord text.toList) : '(' ∉ text.toList := by
  intro member
  have part := word.wordParts _ member
  cases part

/-- What the catalog's forms begin with: only the host text of `str` is `str`, and the other forms have a word
of their own or a parenthesis. -/
theorem functions_plain : ∀ b ∈ Catalog.functions, '(' ∉ b.name.toList ∧
    (b.form = .byHostText → '(' ∉ b.host.toList ∧ (b.host = "str" ↔ b.name = "str")) ∧
    (b.form = .append → b.name = "push") ∧
    (∀ newline, b.form = .printing newline → b.name ≠ "str") ∧ (b.form = .parenthesized → b.name ≠ "str") := by
  decide +kernel

theorem constants_plain : ∀ c ∈ Catalog.constants, '(' ∉ c.host.toList := by
  decide

theorem isConversion_nameText (names : NameScopes) {name : String} (word : IsWord name.toList) :
    isConversion (nameText names name) = false := by
  have plain := paren_notMem_of_isWord word
  unfold nameText
  split
  · next constant found =>
    split
    · exact isConversion_of_plain plain
    · exact isConversion_of_plain (constants_plain constant (List.mem_of_find?_eq_some found))
  · exact isConversion_of_plain plain

theorem isConversion_printing (args : String) (newline : Bool) : isConversion (printing args newline) = false := by
  have head (text : String) : ("print(" ++ text).toList.head? = some 'p' := by
    rw [String.toList_append]
    rfl
  unfold printing
  split
  · rw [String.append_assoc]
    exact isConversion_of_head (by rw [head]; decide)
  · split
    · decide
    · rw [String.append_assoc]
      exact isConversion_of_head (by rw [head]; decide)

theorem isConversion_builtinCall {b : Builtin} (known : b ∈ Catalog.functions) {args : List String}
    (arity : b.name = "push" → args.length ≠ 2) :
    isConversion (builtinCall b args) = decide (b.name = "str") := by
  obtain ⟨plainName, byHostText, append, printing, parenthesized⟩ := functions_plain b known
  have byName := isConversion_call plainName args
  unfold builtinCall
  split
  · next form =>
    obtain ⟨plainHost, same⟩ := byHostText form
    rw [isConversion_call plainHost]
    exact decide_eq_decide.2 same
  · exact byName
  · next form =>
    rw [decide_eq_false (parenthesized form)]
    refine isConversion_of_head ?_
    simp [call]
  · next newline form =>
    rw [decide_eq_false (printing newline form)]
    exact isConversion_printing _ newline
  · next form =>
    split
    · exact absurd rfl (arity (append form))
    · exact byName

theorem isConversion_callText {names : NameScopes} {callee : String} (word : IsWord callee.toList)
    {args : List String} (arity : callee = "push" → names.isDeclared "push" = false → args.length ≠ 2) :
    isConversion (callText names callee args) = decide (callee = "str") := by
  have byName := isConversion_call (paren_notMem_of_isWord word) args
  unfold callText
  split
  · next b found =>
    obtain ⟨known, rfl, hidden⟩ := mem_of_builtinFor? found
    refine isConversion_builtinCall known fun isPush => arity isPush ?_
    rwa [← isPush]
  · exact byName

theorem length_exprTexts (names : NameScopes) (args : List Expr) :
    (exprTexts names args).length = args.length := by
  induction args with
  | nil => rfl
  | cons _ _ ih => exact congrArg (· + 1) ih

/-- The text of an expression that is no concatenation looks converted exactly if it is a call of `str`, unless
it appends an item to a list. -/
theorem isConversion_exprText {names : NameScopes} {e : Expr}
    (all : e.All (fun text => IsWord text.toList) Number.IsWritten) (other : e.isConcatenation = false)
    (noAppend : e.isAppend names = false) : isConversion (exprText names e) = e.isCallOf "str" := by
  cases e with
  | binary op left right =>
    refine isConversion_of_head ?_
    have numbers : ¬(op = .add ∧ ¬(mayBeNumber left ∧ mayBeNumber right)) := by
      rintro ⟨rfl, someText⟩
      rw [Expr.isConcatenation_add, Bool.not_eq_false', Bool.and_eq_true] at other
      exact someText other
    rw [exprText, binaryText, if_neg numbers]
    simp
  | call callee args =>
    refine isConversion_callText all.1 fun isPush hidden two => ?_
    rw [length_exprTexts] at two
    obtain ⟨list, item, rfl⟩ := List.length_eq_two.1 two
    simp [Expr.isAppend, isPush, hidden] at noAppend
  | name name => exact isConversion_nameText names all
  | number value => exact isConversion_of_plain fun member => by cases all.isNumberText.2 _ member
  | str value => exact isConversion_of_head (by simp [exprText, stringLiteral])
  | list items => exact isConversion_of_head (by simp [exprText])

/-! ## Concatenations -/

end Host

/-- A concatenation is a sum. -/
theorem Expr.eq_add_of_isConcatenation {e : Expr} (h : e.isConcatenation) :
    ∃ left right, e = .binary .add left right := by
  unfold isConcatenation at h
  split at h
  · exact ⟨_, _, rfl⟩
  · cases h

namespace Host

theorem exprText_of_concatenation (names : NameScopes) {left right : Expr}
    (h : (Expr.binary .add left right).isConcatenation) :
    exprText names (.binary .add left right) =
      asString (exprText names left) ++ " + " ++ asString (exprText names right) := by
  rw [Expr.isConcatenation_add, Bool.not_eq_true', Bool.and_eq_false_iff] at h
  rw [exprText, binaryText, if_pos]
  refine ⟨rfl, fun numbers => ?_⟩
  rcases h with notLeft | notRight
  · exact absurd numbers.1 (Bool.eq_false_iff.1 notLeft)
  · exact absurd numbers.2 (Bool.eq_false_iff.1 notRight)

/-- What stands at both ends of a concatenation is converted, so the whole is not converted again. -/
theorem asString_of_concatenation (names : NameScopes) {e : Expr} (h : e.isConcatenation) :
    asString (exprText names e) = exprText names e := by
  obtain ⟨left, right, rfl⟩ := Expr.eq_add_of_isConcatenation h
  have converted := isConversion_between (isConversion_asString (exprText names left))
    (isConversion_asString (exprText names right)) " + "
  rw [← exprText_of_concatenation names h] at converted
  exact if_pos converted

/-- As an operand, an expression becomes the row of its own operands, each converted. -/
theorem asString_exprText {names : NameScopes} {e : Expr}
    (all : e.All (fun text => IsWord text.toList) Number.IsWritten)
    (noAppend : ∀ operand ∈ e.operands, operand.isAppend names = false) :
    asString (exprText names e) = joinWith " + " (e.operands.map (operandText names)) := by
  cases h : e.isConcatenation with
  | false =>
    rw [Expr.operands_of_other h] at noAppend ⊢
    have looks := isConversion_exprText all h (noAppend e List.mem_cons_self)
    rw [asString, looks]
    rfl
  | true =>
    obtain ⟨left, right, rfl⟩ := Expr.eq_add_of_isConcatenation h
    rw [Expr.operands_of_concatenation h] at noAppend ⊢
    obtain ⟨inLeft, inRight⟩ := List.forall_mem_append.1 noAppend
    have first := asString_exprText all.1 inLeft
    have second := asString_exprText all.2 inRight
    rw [asString_of_concatenation names h, exprText_of_concatenation names h, first, second, List.map_append,
      joinWith_append]
    · exact fun none => left.operands_ne_nil (List.map_eq_nil_iff.1 none)
    · exact fun none => right.operands_ne_nil (List.map_eq_nil_iff.1 none)
termination_by sizeOf e

/-- However a concatenation is nested, it is written as one row of operands, and each of them is converted to a
string once. -/
theorem exprText_concatenation (names : NameScopes) {e : Expr} (concatenation : e.isConcatenation)
    (all : e.All (fun text => IsWord text.toList) Number.IsWritten)
    (noAppend : ∀ operand ∈ e.operands, operand.isAppend names = false) :
    exprText names e = joinWith " + " (e.operands.map (operandText names)) := by
  rw [← asString_of_concatenation names concatenation]
  exact asString_exprText all noAppend

/-- With `push` declared by the program, in `str(n) + ("a" + (1 + n)) + push(n, n)` no operand is converted twice
and none is left as it is. -/
theorem exprText_concatenation_nested :
    let n : Expr := .name ⟨"n", ⟨1, 5⟩⟩
    let inner : Expr := .binary .add (.str "a") (.binary .add (.number (.int 1)) n)
    let front : Expr := .binary .add (.call ⟨"str", ⟨1, 1⟩⟩ [n]) inner
    let e : Expr := .binary .add front (.call ⟨"push", ⟨1, 31⟩⟩ [n, n])
    exprText (.ofGlobals ["push"]) e = "str(n) + str(\"a\") + str((1 + n)) + str(push(n, n))" ∧
      exprText (.ofGlobals ["push"]) e =
        joinWith " + " (e.operands.map (operandText (.ofGlobals ["push"]))) := by
  intro n inner front e
  have isN : IsWord "n".toList := ⟨'n', [], rfl, by decide, nofun⟩
  have isStr : IsWord "str".toList := ⟨'s', ['t', 'r'], rfl, by decide, List.all_eq_true.1 (by decide)⟩
  have isPush : IsWord "push".toList := ⟨'p', ['u', 's', 'h'], rfl, by decide, List.all_eq_true.1 (by decide)⟩
  have one : (Number.int 1).IsWritten := ⟨['1'], .inl (.inl ⟨by decide, List.all_eq_true.1 (by decide)⟩), by decide⟩
  have all : e.All (fun text => IsWord text.toList) Number.IsWritten :=
    ⟨⟨⟨isStr, isN, trivial⟩, trivial, one, isN⟩, isPush, isN, isN, trivial⟩
  exact ⟨by decide +kernel, exprText_concatenation (.ofGlobals ["push"]) rfl all (by decide +kernel)⟩

end Host

end ToraCompiler
