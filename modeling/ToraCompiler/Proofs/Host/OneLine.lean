import ToraCompiler.Proofs.Host.NumberText
import ToraCompiler.Proofs.Tree.Vocabulary

/-!
# Expressions are written on one line

The text of an expression has no line end in it, does not start with a space and does not end in a colon
(`Host.inline_exprText`).  Names and numbers have none of these characters anywhere; the literal of a text is
between quotes and writes line ends with a letter; everything else is put together from such texts with
brackets, operators and the host texts of the catalog.
-/

namespace ToraCompiler

/-! ## Texts inside a line -/

/-- The text is not empty and has neither spaces nor line ends nor colons. -/
def Solid (cs : List Char) : Prop :=
  cs ≠ [] ∧ ∀ c ∈ cs, c ≠ ' ' ∧ c ≠ '\n' ∧ c ≠ ':'

namespace Host

/-- No line ends in the text. -/
def OneLine (text : String) : Prop :=
  '\n' ∉ text.toList

/-- The text starts with a character that is no space. -/
def Begins (text : String) : Prop :=
  text.toList.head?.any (· ≠ ' ')

/-- The text ends with a character that is no colon. -/
def Stops (text : String) : Prop :=
  text.toList.getLast?.any (· ≠ ':')

instance (text : String) : Decidable (OneLine text) :=
  inferInstanceAs (Decidable (_ ∉ _))

instance (text : String) : Decidable (Begins text) :=
  inferInstanceAs (Decidable (_ = true))

instance (text : String) : Decidable (Stops text) :=
  inferInstanceAs (Decidable (_ = true))

/-- The text can stand on a line that opens no block. -/
structure Inline (text : String) : Prop where
  oneLine : OneLine text
  begins : Begins text
  stops : Stops text

@[simp]
theorem oneLine_append {a b : String} : OneLine (a ++ b) ↔ OneLine a ∧ OneLine b := by
  unfold OneLine
  rw [String.toList_append, List.mem_append, not_or]

theorem Begins.append {a : String} (h : Begins a) (b : String) : Begins (a ++ b) := by
  unfold Begins at h ⊢
  rw [String.toList_append, List.head?_append]
  cases first : a.toList.head? with
  | none =>
    rw [first] at h
    cases h
  | some c =>
    rw [first] at h
    exact h

theorem Stops.append (a : String) {b : String} (h : Stops b) : Stops (a ++ b) := by
  unfold Stops at h ⊢
  rw [String.toList_append, List.getLast?_append]
  cases last : b.toList.getLast? with
  | none =>
    rw [last] at h
    cases h
  | some c =>
    rw [last] at h
    exact h

/-- A line in between two texts takes its start from the first and its end from the second. -/
theorem inline_between {front text back : String} (start : OneLine front ∧ Begins front) (middle : OneLine text)
    (stop : OneLine back ∧ Stops back) : Inline (front ++ text ++ back) := by
  refine ⟨?_, (start.2.append text).append back, stop.2.append (front ++ text)⟩
  rw [oneLine_append, oneLine_append]
  exact ⟨⟨start.1, middle⟩, stop.1⟩

theorem inline_of_solid {text : String} (h : Solid text.toList) : Inline text := by
  rcases h with ⟨nonempty, plain⟩
  refine ⟨fun member => (plain _ member).2.1 rfl, ?_, ?_⟩
  · unfold Begins
    rw [List.head?_eq_some_head nonempty]
    simpa using (plain _ (List.head_mem nonempty)).1
  · unfold Stops
    rw [List.getLast?_eq_some_getLast nonempty]
    simpa using (plain _ (List.getLast_mem nonempty)).2.2

theorem oneLine_commaSeparated {items : List String} (h : ∀ item ∈ items, OneLine item) :
    OneLine (commaSeparated items) := by
  unfold commaSeparated
  induction items with
  | nil => decide
  | cons item rest ih =>
    rcases List.forall_mem_cons.1 h with ⟨first, others⟩
    cases rest with
    | nil => exact first
    | cons next rest =>
      rw [joinWith, oneLine_append, oneLine_append]
      exact ⟨⟨first, by decide⟩, ih others⟩

end Host

/-! ## Names and numbers -/

/-- A text of characters of a class is solid, if the class has no space, no line end and no colon. -/
theorem solid_of_class {inClass : Char → Bool} {cs : List Char} (nonempty : cs ≠ [])
    (all : ∀ c ∈ cs, inClass c)
    (excluded : inClass ' ' = false ∧ inClass '\n' = false ∧ inClass ':' = false) : Solid cs := by
  refine ⟨nonempty, fun c member => ?_⟩
  have here := all c member
  refine ⟨?_, ?_, ?_⟩
  · intro same
    rw [same, excluded.1] at here
    cases here
  · intro same
    rw [same, excluded.2.1] at here
    cases here
  · intro same
    rw [same, excluded.2.2] at here
    cases here

theorem IsWord.wordParts {cs : List Char} (h : IsWord cs) : ∀ c ∈ cs, isWordPart c := by
  rcases h with ⟨c, ds, rfl, start, parts⟩
  exact List.forall_mem_cons.2 ⟨by rw [isWordPart, start, Bool.true_or], parts⟩

theorem solid_of_isWord {cs : List Char} (h : IsWord cs) : Solid cs := by
  have nonempty : cs ≠ [] := by
    rcases h with ⟨c, ds, rfl, -, -⟩
    exact List.cons_ne_nil c ds
  exact solid_of_class nonempty h.wordParts (by decide)

/-- The characters that numbers are written with. -/
def isNumberChar (c : Char) : Bool :=
  c.isDigit || c ∈ ['.', '-', 'e', 'N', 'a', 'i', 'n', 'f']

theorem isNumberChar_of_isDigit {c : Char} (digit : c.isDigit) : isNumberChar c := by
  rw [isNumberChar, digit, Bool.true_or]

/-- Only such characters stand in the text, and at least one. -/
def IsNumberText (cs : List Char) : Prop :=
  cs ≠ [] ∧ ∀ c ∈ cs, isNumberChar c

theorem isNumberText_of_all {cs : List Char} (nonempty : cs ≠ []) (all : cs.all isNumberChar) : IsNumberText cs :=
  ⟨nonempty, List.all_eq_true.1 all⟩

theorem IsNumberText.solid {cs : List Char} (h : IsNumberText cs) : Solid cs :=
  solid_of_class h.1 h.2 (by decide)

theorem IsMagnitude.isNumberText {cs : List Char} (h : IsMagnitude cs) : IsNumberText cs := by
  rcases h with digits | ⟨whole, fraction, wholeDigits, fractionDigits, rfl⟩
  · exact ⟨digits.1, fun c member => isNumberChar_of_isDigit (digits.2 c member)⟩
  · refine ⟨by simp, fun c member => ?_⟩
    rcases List.mem_append.1 member with inWhole | behind
    · exact isNumberChar_of_isDigit (wholeDigits.2 c inWhole)
    rcases List.mem_cons.1 behind with rfl | inFraction
    · decide
    · exact isNumberChar_of_isDigit (fractionDigits.2 c inFraction)

theorem IsNumeral.isNumberText {cs : List Char} (h : IsNumeral cs) : IsNumberText cs := by
  rcases h with magnitude | ⟨digits, magnitude, rfl⟩
  · exact magnitude.isNumberText
  · exact ⟨List.cons_ne_nil _ _, List.forall_mem_cons.2 ⟨by decide, magnitude.isNumberText.2⟩⟩

theorem Host.IsSignedLiteral.isNumberText {cs : List Char} (h : IsSignedLiteral cs) : IsNumberText cs := by
  obtain ⟨magnitude, literal, sign⟩ := h
  have inMagnitude : IsNumberText magnitude := by
    rcases literal with ⟨digits, -⟩ | ⟨whole, fraction, exponent, digits, isFraction, isExponent, -, rfl⟩
    · exact IsMagnitude.isNumberText (.inl digits)
    · have inWhole := IsMagnitude.isNumberText (.inl digits)
      have inFraction : ∀ c ∈ fraction, isNumberChar c := by
        rcases isFraction with rfl | ⟨places, isDigits, rfl⟩
        · nofun
        · exact List.forall_mem_cons.2 ⟨by decide, (IsMagnitude.isNumberText (.inl isDigits)).2⟩
      have inExponent : ∀ c ∈ exponent, isNumberChar c := by
        rcases isExponent with rfl | ⟨power, isInteger, rfl⟩
        · nofun
        · exact List.forall_mem_cons.2 ⟨by decide, isInteger.numeral.isNumberText.2⟩
      refine ⟨by simp [inWhole.1], ?_⟩
      rw [List.forall_mem_append, List.forall_mem_append]
      exact ⟨⟨inWhole.2, inFraction⟩, inExponent⟩
  rcases sign with rfl | rfl
  · exact inMagnitude
  · exact ⟨List.cons_ne_nil _ _, List.forall_mem_cons.2 ⟨by decide, inMagnitude.2⟩⟩

theorem Binary64.isNumberText_text (value : Binary64) : IsNumberText value.text.toList := by
  cases value with
  | nan => exact isNumberText_of_all (by decide) (by decide)
  | infinite negative => cases negative <;> exact isNumberText_of_all (by decide) (by decide)
  | finite negative significand shift => exact (isSignedLiteral_finite negative significand shift).isNumberText

/-- A written number consists of such characters. -/
theorem Number.IsWritten.isNumberText {value : Number} (h : value.IsWritten) :
    IsNumberText value.text.toList := by
  rcases h with ⟨cs, numeral, denotes⟩
  cases value with
  | int v => exact (isInteger_toString v).numeral.isNumberText
  | float v => exact v.isNumberText_text
  | wide digits =>
    -- A wide number keeps the text that it was read from.
    have same : digits = String.ofList cs := by
      unfold Number.ofLiteral? at denotes
      split at denotes
      · rcases Option.map_eq_some_iff.1 denotes with ⟨v, -, isFloat⟩
        cases isFloat
      · split at denotes
        · cases denotes
        · cases denotes
          rfl
    rw [Number.text, same, String.toList_ofList]
    exact numeral.isNumberText

namespace Host

theorem inline_of_isWord {text : String} (h : IsWord text.toList) : Inline text :=
  inline_of_solid (solid_of_isWord h)

/-! ## Literals -/

theorem hexDigit_ne_newline : ∀ n < 16, hexDigit n ≠ '\n' := by
  decide

theorem newline_notMem_literalChar (c : Char) : '\n' ∉ literalChar c := by
  unfold literalChar
  split
  · next letter found =>
    unfold escapeLetter? at found
    split at found <;> cases found <;> decide
  · next notFound =>
    split
    · next control =>
      have small : c.toNat < 128 := by
        simp only [isControl, Bool.or_eq_true, decide_eq_true_eq] at control
        omega
      have upper := hexDigit_ne_newline (c.toNat / 16) (by omega)
      have lower := hexDigit_ne_newline (c.toNat % 16) (by omega)
      simp [upper.symm, lower.symm]
    · intro member
      obtain rfl := List.mem_singleton.1 member
      cases notFound

theorem inline_stringLiteral (value : String) : Inline (stringLiteral value) := by
  unfold stringLiteral
  refine ⟨?_, ?_, ?_⟩
  · unfold OneLine
    rw [String.toList_ofList]
    intro member
    rcases List.mem_append.1 member with inFront | atEnd
    · rcases List.mem_cons.1 inFront with isQuote | inBody
      · cases isQuote
      · rcases List.mem_flatMap.1 inBody with ⟨c, -, written⟩
        exact newline_notMem_literalChar c written
    · cases List.mem_singleton.1 atEnd
  · unfold Begins
    rw [String.toList_ofList]
    rfl
  · unfold Stops
    rw [String.toList_ofList, List.getLast?_concat]
    rfl

/-! ## Calls and operations -/

theorem inline_call {callee : String} {args : List String} (oneLine : OneLine callee) (begins : Begins callee)
    (each : ∀ arg ∈ args, OneLine arg) : Inline (call callee args) := by
  have opened : OneLine (callee ++ "(") := oneLine_append.2 ⟨oneLine, by decide⟩
  exact inline_between ⟨opened, begins.append _⟩ (oneLine_commaSeparated each) (by decide)

theorem inline_printing {args : String} (oneLine : OneLine args) (newline : Bool) :
    Inline (printing args newline) := by
  unfold printing
  split
  · exact inline_between (by decide) oneLine (by decide)
  · split
    · exact ⟨by decide, by decide, by decide⟩
    · exact inline_between (by decide) oneLine (by decide)

/-- The host texts of the functions are pieces of a line. -/
theorem functions_begin : ∀ b ∈ Catalog.functions, OneLine b.host ∧ Begins b.host := by
  decide +kernel

/-- The host texts of the constants can stand alone. -/
theorem constants_inline : ∀ c ∈ Catalog.constants, OneLine c.host ∧ Begins c.host ∧ Stops c.host := by
  decide

theorem inline_builtinCall {b : Builtin} {args : List String} (known : b ∈ Catalog.functions)
    (name : Inline b.name) (each : ∀ arg ∈ args, Inline arg) : Inline (builtinCall b args) := by
  rcases functions_begin b known with ⟨hostLine, hostBegins⟩
  have lines : ∀ arg ∈ args, OneLine arg := fun arg member => (each arg member).oneLine
  have byName : Inline (call b.name args) := inline_call name.oneLine name.begins lines
  unfold builtinCall
  split
  · exact inline_call hostLine hostBegins lines
  · exact byName
  · have parenthesized : Inline ("(" ++ b.host ++ ")") := inline_between (by decide) hostLine (by decide)
    exact inline_call parenthesized.oneLine parenthesized.begins lines
  · exact inline_printing (oneLine_commaSeparated lines) _
  · split
    · next list item =>
      have first : Inline list := each list (by simp)
      have second : Inline item := each item (by simp)
      have opened : OneLine (list ++ ".append(") := oneLine_append.2 ⟨first.oneLine, by decide⟩
      exact inline_between ⟨opened, first.begins.append _⟩ second.oneLine (by decide)
    · exact byName

theorem inline_callText (names : NameScopes) {callee : String} {args : List String} (word : Inline callee)
    (each : ∀ arg ∈ args, Inline arg) : Inline (callText names callee args) := by
  have byName : Inline (call callee args) :=
    inline_call word.oneLine word.begins fun arg member => (each arg member).oneLine
  unfold callText
  split
  · next b found =>
    obtain ⟨known, rfl, -⟩ := mem_of_builtinFor? found
    exact inline_builtinCall known word each
  · exact byName

theorem inline_nameText (names : NameScopes) {name : String} (word : Inline name) :
    Inline (nameText names name) := by
  unfold nameText
  split
  · next constant found =>
    rcases constants_inline constant (List.mem_of_find?_eq_some found) with ⟨oneLine, begins, stops⟩
    split
    · exact word
    · exact ⟨oneLine, begins, stops⟩
  · exact word

theorem inline_asString {text : String} (h : Inline text) : Inline (asString text) := by
  unfold asString
  split
  · exact h
  · exact inline_between (by decide) h.oneLine (by decide)

theorem inline_binaryText (op : BinaryOp) (left right : Expr) {leftText rightText : String}
    (inLeft : Inline leftText) (inRight : Inline rightText) :
    Inline (binaryText op left right leftText rightText) := by
  unfold binaryText
  split
  · have first := inline_asString inLeft
    have second := inline_asString inRight
    exact inline_between ⟨first.oneLine, first.begins⟩ (by decide) ⟨second.oneLine, second.stops⟩
  · have symbol : OneLine op.symbol := by cases op <;> decide
    have opened : OneLine ("(" ++ leftText ++ " " ++ op.symbol ++ " ") ∧
        Begins ("(" ++ leftText ++ " " ++ op.symbol ++ " ") := by
      simp only [oneLine_append]
      exact ⟨⟨⟨⟨⟨by decide, inLeft.oneLine⟩, by decide⟩, symbol⟩, by decide⟩,
        (((Begins.append (by decide) _).append _).append _).append _⟩
    exact inline_between opened inRight.oneLine (by decide)

theorem oneLine_itemText {text : String} (h : OneLine text) : OneLine (itemText text) := by
  unfold itemText
  split
  · decide
  · split
    · decide
    · exact h

/-! ## Expressions -/

mutual

/-- An expression of words and written numbers is written on one line. -/
theorem inline_exprText (names : NameScopes) :
    ∀ e : Expr, e.All (fun text => IsWord text.toList) Number.IsWritten → Inline (exprText names e)
  | .binary op left right, all =>
    inline_binaryText op left right (inline_exprText names left all.1) (inline_exprText names right all.2)
  | .call callee args, all =>
    inline_callText names (inline_of_isWord all.1) (inline_exprTexts names args all.2)
  | .name _, all => inline_nameText names (inline_of_isWord all)
  | .number _, all => inline_of_solid all.isNumberText.solid
  | .str value, _ => inline_stringLiteral value
  | .list items, all => by
    have each := inline_exprTexts names items all
    have line : OneLine (commaSeparated ((exprTexts names items).map itemText)) := by
      refine oneLine_commaSeparated fun text member => ?_
      rcases List.mem_map.1 member with ⟨item, isItem, rfl⟩
      exact oneLine_itemText (each item isItem).oneLine
    exact inline_between (by decide) line (by decide)

theorem inline_exprTexts (names : NameScopes) :
    ∀ es : List Expr, Expr.AllOf (fun text => IsWord text.toList) Number.IsWritten es →
      ∀ text ∈ exprTexts names es, Inline text
  | [], _ => nofun
  | e :: rest, all => by
    rw [exprTexts]
    exact List.forall_mem_cons.2 ⟨inline_exprText names e all.1, inline_exprTexts names rest all.2⟩

end

end Host

end ToraCompiler
