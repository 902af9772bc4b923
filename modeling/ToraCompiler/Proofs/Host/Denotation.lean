import ToraCompiler.Host.Writer
import ToraCompiler.Proofs.Token.Lexemes
import ToraCompiler.Proofs.Tree.Reading
import ToraCompiler.Tree.Grammar

/-!
# What string literals of the host denote

The host has rules of its own for the text between the quotes of a literal (`Host.literalValue?`): five escapes
with one character, one with two hexadecimal digits, and every other character stands for itself.  By these
rules a written literal denotes exactly the text that it was written for (`Host.stringLiteral_denotes`).

All escapes begin with the same backslash, so the point is that the reading falls into step again behind each
character.  It does because no escape is the beginning of another one: behind the backslash comes either the
letter `x`, with exactly two digits, or a letter that takes nothing with it (`Host.literalValue?_literalChar`).
-/

namespace ToraCompiler.Host

/-! ## The rules of the host -/

/-- The value of a hexadecimal digit. -/
def hexValue? (c : Char) : Option Nat :=
  if c.isDigit then some (c.toNat - '0'.toNat)
  else if 'a' ≤ c ∧ c ≤ 'f' then some (c.toNat - 'a'.toNat + 10)
  else if 'A' ≤ c ∧ c ≤ 'F' then some (c.toNat - 'A'.toNat + 10)
  else none

/-- The character that one character behind a backslash stands for. -/
def simpleEscape? : Char → Option Char
  | '\\' => some '\\'
  | '"' => some '"'
  | 'n' => some '\n'
  | 'r' => some '\r'
  | 't' => some '\t'
  | _ => none

/-- The text that the body of a literal stands for.  A quote may only stand behind a backslash, and a backslash
only at the start of an escape. -/
def literalValue? : List Char → Option (List Char)
  | [] => some []
  | '\\' :: 'x' :: upper :: lower :: rest =>
    match hexValue? upper, hexValue? lower with
    | some u, some l => (literalValue? rest).map (Char.ofNat (16 * u + l) :: ·)
    | _, _ => none
  | '\\' :: c :: rest =>
    match simpleEscape? c with
    | some value => (literalValue? rest).map (value :: ·)
    | none => none
  | c :: rest => if c = '"' ∨ c = '\\' then none else (literalValue? rest).map (c :: ·)

example : literalValue? "\\\\x41\\x41\\\"".toList = some ['\\', 'x', '4', '1', 'A', '"'] := by decide

/-- The literal is a body between quotes without a bare quote or a control in it, and the body stands for the
text. -/
def Denotes (literal value : String) : Prop :=
  ∃ body, literal = String.ofList ('"' :: (body ++ ['"'])) ∧ StringBody body ∧
    (∀ c ∈ body, 0x20 ≤ c.toNat ∧ c.toNat ≠ 0x7F) ∧ literalValue? body = some value.toList

/-- A literal denotes one text at most. -/
theorem Denotes.unique {literal value other : String} (first : Denotes literal value)
    (second : Denotes literal other) : value = other := by
  obtain ⟨body, written, -, -, stands⟩ := first
  obtain ⟨body', written', -, -, stands'⟩ := second
  have sameBody : body = body' := by
    have rows := String.ofList_injective (written.symm.trans written')
    exact List.append_cancel_right (List.cons.inj rows).2
  rw [sameBody, stands'] at stands
  exact String.toList_injective (Option.some.inj stands).symm

/-! ## Written characters -/

theorem hexValue?_hexDigit : ∀ n < 16, hexValue? (hexDigit n) = some n := by
  decide

theorem hexDigit_printed : ∀ n < 16, 0x20 ≤ (hexDigit n).toNat ∧ (hexDigit n).toNat ≠ 0x7F := by
  decide

theorem isControl_eq_false_iff {c : Char} : isControl c = false ↔ 0x20 ≤ c.toNat ∧ c.toNat ≠ 0x7F := by
  simp [isControl]

/-- The three ways to write a character: a backslash and one character, a backslash with `x` and two digits, and
the character itself. -/
theorem literalChar_forms (c : Char) :
    (∃ letter ∈ ['\\', '"', 'n', 'r', 't'], literalChar c = ['\\', letter] ∧ simpleEscape? letter = some c) ∨
      (literalChar c = ['\\', 'x', hexDigit (c.toNat / 16), hexDigit (c.toNat % 16)] ∧ c.toNat < 128) ∨
      (literalChar c = [c] ∧ c ≠ '"' ∧ c ≠ '\\' ∧ isControl c = false) := by
  unfold literalChar
  split
  · next letter found =>
    refine .inl ⟨letter, ?_, rfl, ?_⟩
    · unfold escapeLetter? at found
      split at found <;> cases found <;> decide
    · unfold escapeLetter? at found
      split at found <;> cases found <;> rfl
  · next notFound =>
    split
    · next control =>
      have small : c.toNat < 128 := by
        simp only [isControl, Bool.or_eq_true, decide_eq_true_eq] at control
        omega
      exact .inr (.inl ⟨rfl, small⟩)
    · next notControl =>
      have notQuote : c ≠ '"' := by rintro rfl; cases notFound
      have notSlash : c ≠ '\\' := by rintro rfl; cases notFound
      exact .inr (.inr ⟨rfl, notQuote, notSlash, Bool.not_eq_true _ ▸ notControl⟩)

theorem literalValue?_escape {letter value : Char} (stands : simpleEscape? letter = some value) (rest : List Char) :
    literalValue? ('\\' :: letter :: rest) = (literalValue? rest).map (value :: ·) := by
  have notX : letter ≠ 'x' := by rintro rfl; cases stands
  rw [literalValue?, stands]
  rintro upper lower later rfl
  exact absurd rfl notX

theorem literalValue?_plain {c : Char} (notQuote : c ≠ '"') (notSlash : c ≠ '\\') (rest : List Char) :
    literalValue? (c :: rest) = (literalValue? rest).map (c :: ·) := by
  rw [literalValue?, if_neg (not_or.2 ⟨notQuote, notSlash⟩)]
  · intro _ _ _ isSlash
    exact absurd isSlash notSlash
  · intro _ _ isSlash
    exact absurd isSlash notSlash

/-- Reading falls into step again behind each written character. -/
theorem literalValue?_literalChar (c : Char) (rest : List Char) :
    literalValue? (literalChar c ++ rest) = (literalValue? rest).map (c :: ·) := by
  rcases literalChar_forms c with ⟨letter, -, written, stands⟩ | ⟨written, small⟩ |
    ⟨written, notQuote, notSlash, -⟩
  · rw [written]
    exact literalValue?_escape stands rest
  · have upper := hexValue?_hexDigit (c.toNat / 16) (by omega)
    have lower := hexValue?_hexDigit (c.toNat % 16) (by omega)
    have value : Char.ofNat (16 * (c.toNat / 16) + c.toNat % 16) = c := by
      rw [Nat.div_add_mod, Char.ofNat_toNat]
    rw [written]
    simp only [List.cons_append, List.nil_append, literalValue?, upper, lower, value]
  · rw [written, List.singleton_append]
    exact literalValue?_plain notQuote notSlash rest

theorem literalValue?_flatMap (cs : List Char) : literalValue? (cs.flatMap literalChar) = some cs := by
  induction cs with
  | nil => rfl
  | cons c cs ih => rw [List.flatMap_cons, literalValue?_literalChar, ih, Option.map_some]

/-- What is written for a character contains no control. -/
theorem literalChar_printed (c : Char) : ∀ d ∈ literalChar c, 0x20 ≤ d.toNat ∧ d.toNat ≠ 0x7F := by
  rcases literalChar_forms c with ⟨letter, letters, written, -⟩ | ⟨written, small⟩ | ⟨written, -, -, notControl⟩
  · have printed : ['\\', '"', 'n', 'r', 't'].all fun d => 0x20 ≤ d.toNat ∧ d.toNat ≠ 0x7F := by decide
    rw [written, List.forall_mem_cons, List.forall_mem_singleton]
    exact ⟨by decide, of_decide_eq_true (List.all_eq_true.1 printed letter letters)⟩
  · have upper := hexDigit_printed (c.toNat / 16) (by omega)
    have lower := hexDigit_printed (c.toNat % 16) (by omega)
    rw [written]
    simp only [List.forall_mem_cons, List.not_mem_nil, false_implies, implies_true, and_true]
    exact ⟨by decide, by decide, upper, lower⟩
  · rw [written, List.forall_mem_singleton]
    exact isControl_eq_false_iff.1 notControl

/-- What is written for a character goes on the body of a literal: no quote in it is bare. -/
theorem stringBody_literalChar (c : Char) {rest : List Char} (body : StringBody rest) :
    StringBody (literalChar c ++ rest) := by
  rcases literalChar_forms c with ⟨letter, -, written, stands⟩ | ⟨written, small⟩ |
    ⟨written, notQuote, notSlash, -⟩
  · rw [written]
    refine .escape ?_ body
    rintro rfl
    cases stands
  · have digits : ∀ n < 16, hexDigit n ≠ '"' ∧ hexDigit n ≠ '\\' := by decide
    have upper := digits (c.toNat / 16) (by omega)
    have lower := digits (c.toNat % 16) (by omega)
    rw [written]
    exact .escape (by decide) (.plain upper.1 upper.2 (.plain lower.1 lower.2 body))
  · rw [written]
    exact .plain notQuote notSlash body

theorem stringBody_flatMap (cs : List Char) : StringBody (cs.flatMap literalChar) := by
  induction cs with
  | nil => exact .nil
  | cons c cs ih =>
    rw [List.flatMap_cons]
    exact stringBody_literalChar c ih

/-! ## Written texts -/

theorem denotes_stringLiteral (value : String) : Denotes (stringLiteral value) value := by
  refine ⟨value.toList.flatMap literalChar, rfl, stringBody_flatMap _, ?_, literalValue?_flatMap _⟩
  intro c member
  obtain ⟨d, -, written⟩ := List.mem_flatMap.1 member
  exact literalChar_printed d c written

/-- Every text is written as a literal that denotes it.  So a string token of a source is read as an expression
whose host text denotes what the token denotes, and different texts are written differently. -/
theorem stringLiteral_faithful :
    (∀ value : String, Denotes (stringLiteral value) value) ∧
    (∀ (source : String) (ts : List Token), tokensOf source = .ok ts → ∀ t ∈ ts, t.kind = .string →
      ∃ body, StringBody body ∧ t.text = String.ofList ('"' :: (body ++ ['"'])) ∧
        ∀ rest names, ∃ e, Reader.operand Reader.expression (t :: rest) = .accept e rest ∧
          Denotes (exprText names e) (String.ofList (unescape body))) ∧
    Function.Injective stringLiteral := by
  refine ⟨denotes_stringLiteral, ?_, ?_⟩
  · intro source ts scanned t member kind
    have lexeme := Token.lexeme_of_tokensOf scanned member (by rw [kind]; nofun)
    rw [kind] at lexeme
    obtain ⟨body, isBody, text⟩ := lexeme.quoted
    refine ⟨body, isBody, by rw [← text, String.ofList_toList], fun rest names => ?_⟩
    have value : t.stringValue = String.ofList (unescape body) := by
      rw [Token.stringValue, text, List.tail_cons, List.dropLast_concat]
    refine ⟨.str t.stringValue, ?_, ?_⟩
    · unfold Reader.operand
      simp only [Reader.peek_bind, List.head?_cons, kind, Reader.skip_bind, List.tail_cons, Reader.pure_apply]
    · rw [exprText, value]
      exact denotes_stringLiteral _
  · intro value other same
    have denotes := denotes_stringLiteral value
    rw [same] at denotes
    exact denotes.unique (denotes_stringLiteral other)

/-- An escaped backslash in front of what looks like an escape of the host, an escape that this language does not
know, and a control in front of hexadecimal digits. -/
theorem stringLiteral_faithful_escapes :
    tokensOf "\"\\\\x41\\q\\041\"" =
        .ok [⟨.string, "\"\\\\x41\\q\\041\"", ⟨1, 1⟩⟩, ⟨.endOfInput, "", ⟨1, 0⟩⟩] ∧
      stringLiteral "\\x41\\q\x0041" = "\"\\\\x41\\\\q\\x0041\"" ∧
      ∃ body, StringBody body ∧
        "\"\\\\x41\\q\\041\"" = String.ofList ('"' :: (body ++ ['"'])) ∧
        ∀ rest names, ∃ e,
          Reader.operand Reader.expression (⟨.string, "\"\\\\x41\\q\\041\"", ⟨1, 1⟩⟩ :: rest) = .accept e rest ∧
          Denotes (exprText names e) (String.ofList (unescape body)) := by
  have scanned : tokensOf "\"\\\\x41\\q\\041\"" =
      .ok [⟨.string, "\"\\\\x41\\q\\041\"", ⟨1, 1⟩⟩, ⟨.endOfInput, "", ⟨1, 0⟩⟩] := by decide +kernel
  exact ⟨scanned, by decide +kernel, stringLiteral_faithful.2.1 _ _ scanned _ List.mem_cons_self rfl⟩

end ToraCompiler.Host
