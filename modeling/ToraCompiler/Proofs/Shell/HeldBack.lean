import ToraCompiler.Proofs.Token.Lossless
import ToraCompiler.Proofs.Tree.Brackets
import ToraCompiler.Shell.Entry

/-!
# Which inputs are held back

The test whether an input is complete walks over its characters and knows strings and comments by itself; it never
asks for tokens.  On an input that can be cut into tokens the two agree: the walk over a token moves the depth as
the kind of the token says (`Entry.balanceFrom_token`), the walk over a gap moves nothing (`Entry.balanceFrom_gap`),
and neither leaves a string or a comment open.  So the test counts the brackets among the tokens
(`Entry.balanceFrom_cut`), and since those of a program nest, no program is held back (`Entry.isComplete_iff`).
-/

namespace ToraCompiler.Entry

/-! ## Texts without strings and comments -/

/-- Whether a character neither opens a string nor can start a comment. -/
def IsCode (c : Char) : Prop :=
  c ≠ '"' ∧ c ≠ '/'

instance (c : Char) : Decidable (IsCode c) :=
  inferInstanceAs (Decidable (_ ∧ _))

/-- The depth that a text outside strings and comments adds. -/
def gain (text : List Char) : Int :=
  text.foldr (fun c depth => weight c + depth) 0

variable {depth : Int} {text rest : List Char}

theorem balanceFrom_code (code : ∀ c ∈ text, IsCode c) :
    balanceFrom .code depth (text ++ rest) = balanceFrom .code (depth + gain text) rest := by
  induction text generalizing depth with
  | nil => simp [gain]
  | cons c text ih =>
    obtain ⟨notQuote, notSlash⟩ := code c List.mem_cons_self
    have others := @ih (depth + weight c) fun d member => code d (List.mem_cons_of_mem c member)
    rw [List.cons_append, balanceFrom]
    simp only [notQuote, notSlash, false_and, if_false]
    rw [others]
    simp only [gain, List.foldr_cons, Int.add_assoc]

/-- The characters that the walk takes notice of: the quote, the slash and the brackets. -/
def noticed : List Char :=
  ['"', '/', '\x7b', '[', '(', '\x7d', ']', ')']

/-- Outside strings and comments other characters change nothing. -/
theorem code_of_notMem_noticed {c : Char} (quiet : c ∉ noticed) : IsCode c ∧ weight c = 0 := by
  simp only [noticed, List.mem_cons, List.not_mem_nil, or_false, not_or] at quiet
  obtain ⟨quote, slash, brace, bracket, paren, brace', bracket', paren'⟩ := quiet
  refine ⟨⟨quote, slash⟩, ?_⟩
  simp only [weight, brace, bracket, paren, brace', bracket', paren', or_self, if_false]

theorem balanceFrom_quiet (quiet : ∀ c ∈ text, c ∉ noticed) :
    balanceFrom .code depth (text ++ rest) = balanceFrom .code depth rest := by
  have nothing : gain text = 0 := by
    induction text with
    | nil => rfl
    | cons c text ih =>
      have others := ih fun d member => quiet d (List.mem_cons_of_mem c member)
      have first := (code_of_notMem_noticed (quiet c List.mem_cons_self)).2
      rw [gain, List.foldr_cons, first, Int.zero_add]
      exact others
  rw [balanceFrom_code fun c member => (code_of_notMem_noticed (quiet c member)).1, nothing, Int.add_zero]

/-- A class of characters with none of these in it. -/
theorem notMem_noticed_of_class {inClass : Char → Bool} {c : Char} (member : inClass c)
    (apart : noticed.any inClass = false) : c ∉ noticed := by
  intro both
  have someBoth := List.any_eq_true.2 ⟨c, both, member⟩
  rw [apart] at someBoth
  cases someBoth

/-! ## Strings and comments -/

theorem balanceFrom_body {body : List Char} (h : StringBody body) :
    balanceFrom .string depth (body ++ '"' :: rest) = balanceFrom .code depth rest := by
  induction h with
  | nil => simp [balanceFrom]
  | plain notQuote notSlash _ ih =>
    rw [List.cons_append, balanceFrom]
    simp only [notQuote, notSlash, if_false, ih]
  | escape _ _ ih =>
    rw [List.cons_append, List.cons_append, balanceFrom, balanceFrom]
    simp only [if_true, ih]

/-- A comment ends where its line does. -/
theorem balanceFrom_comment {body : List Char} (noLineEnd : '\n' ∉ body) (ends : ∀ c ∈ rest.head?, c = '\n') :
    balanceFrom .comment depth (body ++ rest) = balanceFrom .code depth rest := by
  induction body with
  | nil =>
    cases rest with
    | nil => simp [balanceFrom]
    | cons c rest =>
      obtain rfl := ends c rfl
      simp [balanceFrom, weight]
  | cons c body ih =>
    simp only [List.mem_cons, not_or] at noLineEnd
    rw [List.cons_append, balanceFrom]
    simp only [Ne.symm noLineEnd.1, if_false, ih noLineEnd.2]

/-! ## Gaps and tokens -/

theorem balanceFrom_gap {gap : List Char} (h : GapBefore rest gap) :
    balanceFrom .code depth (gap ++ rest) = balanceFrom .code depth rest := by
  induction h with
  | nil => rfl
  | @separator c gap separator _ ih =>
    have quiet : c ∉ noticed := notMem_noticed_of_class separator (by decide)
    have first : ∀ d ∈ [c], d ∉ noticed := List.forall_mem_singleton.2 quiet
    rw [List.cons_append, ← List.singleton_append, balanceFrom_quiet first, ih]
  | @comment body gap noLineEnd behind _ ih =>
    have noLineEnd' : '\n' ∉ '/' :: body := by simp [noLineEnd]
    rw [List.cons_append, List.cons_append, List.append_assoc, balanceFrom]
    simp only [List.head?_cons, and_self, if_true, Char.reduceEq, if_false]
    exact (balanceFrom_comment noLineEnd' behind).trans ih

/-- A mark but the slash is a text without strings and comments, and opens or closes what its kind says. -/
theorem marks_gain : ∀ mark ∈ marks, mark.1 = ['/'] ∧ mark.2.turn = 0 ∨
    mark.1.all (IsCode ·) ∧ gain mark.1 = mark.2.turn := by
  decide

theorem keywords_quiet : ∀ entry ∈ keywords, entry.1.toList.all (· ∉ noticed) ∧ entry.2.turn = 0 := by
  decide

theorem quiet_of_wordPart {c : Char} (part : isWordPart c) : c ∉ noticed :=
  notMem_noticed_of_class part (by decide)

theorem quiet_of_digit {c : Char} (digit : c.isDigit) : c ∉ noticed :=
  notMem_noticed_of_class digit (by decide)

theorem quiet_of_magnitude {cs : List Char} (h : IsMagnitude cs) : ∀ c ∈ cs, c ∉ noticed := by
  rcases h with digits | ⟨whole, fraction, wholeDigits, fractionDigits, rfl⟩
  · exact fun c member => quiet_of_digit (digits.2 c member)
  · intro c member
    rcases List.mem_append.1 member with inWhole | behind
    · exact quiet_of_digit (wholeDigits.2 c inWhole)
    rcases List.mem_cons.1 behind with rfl | inFraction
    · decide
    · exact quiet_of_digit (fractionDigits.2 c inFraction)

theorem quiet_of_numeral {cs : List Char} (h : IsNumeral cs) : ∀ c ∈ cs, c ∉ noticed := by
  rcases h with magnitude | ⟨digits, magnitude, rfl⟩
  · exact quiet_of_magnitude magnitude
  · exact List.forall_mem_cons.2 ⟨by decide, quiet_of_magnitude magnitude⟩

/-- The walk over a token moves the depth as the kind of the token says, and ends where the token does. -/
theorem balanceFrom_token {t : Token} {later : List Char} (taken : t.Taken later) :
    balanceFrom .code depth (t.text.toList ++ later) = balanceFrom .code (depth + t.kind.turn) later := by
  have identifier : Kind.turn .identifier = 0 := by decide
  have number : Kind.turn .number = 0 := by decide
  have string : Kind.turn .string = 0 := by decide
  have lexeme := taken.lexeme
  have longest := taken.longest
  generalize t.kind = kind, t.text.toList = text at lexeme longest ⊢
  cases lexeme with
  | keyword member =>
    obtain ⟨quiet, still⟩ := keywords_quiet _ member
    rw [balanceFrom_quiet (by simpa using quiet), still, Int.add_zero]
  | @identifier c cs start parts =>
    have firstPart : isWordPart c = true := by rw [isWordPart, start, Bool.true_or]
    have quiet : ∀ d ∈ c :: cs, d ∉ noticed := List.forall_mem_cons.2
      ⟨quiet_of_wordPart firstPart, fun d member => quiet_of_wordPart (parts d member)⟩
    rw [balanceFrom_quiet quiet, identifier, Int.add_zero]
  | number numeral => rw [balanceFrom_quiet (quiet_of_numeral numeral), number, Int.add_zero]
  | string body =>
    rw [List.cons_append, List.append_assoc, List.singleton_append, balanceFrom, string, Int.add_zero]
    simp only [if_true, balanceFrom_body body]
  | mark member =>
    rcases marks_gain _ member with ⟨slash, still⟩ | ⟨code, same⟩
    · -- Another slash behind it would make a comment, which is longer.
      obtain rfl : text = ['/'] := slash
      have alone : later.head? ≠ some '/' := by
        intro next
        cases later with
        | nil => cases next
        | cons c later =>
          obtain rfl := Option.some.inj next
          have bound := longest none ['/', '/'] (.comment (List.not_mem_nil)) ⟨later, rfl⟩
          exact absurd bound (by decide)
      rw [still, Int.add_zero, List.singleton_append, balanceFrom]
      simp [alone, weight]
    · rw [balanceFrom_code (by simpa using code), same]

/-- The walk over the characters in front of the end of a cut counts the brackets among its tokens. -/
theorem balanceFrom_cut {cs : List Char} {ts : List Token} (cut : Cut cs ts rest) :
    balanceFrom .code depth cs = balanceFrom .code (depth + Token.depth ts) rest := by
  induction cut generalizing depth with
  | stop gap => rw [balanceFrom_gap gap, Token.depth_nil, Int.add_zero]
  | @token gap later rest t ts gapBefore taken _ ih =>
    rw [balanceFrom_gap gapBefore, balanceFrom_token taken, ih, Token.depth_cons, Token.depth_singleton,
      Int.add_assoc]

/-- An input that can be cut into tokens is complete exactly if it opens no more brackets than it closes, whatever
stands in its strings and comments.  So every input that is a program is complete. -/
theorem isComplete_iff {source : String} {ts : List Token} (scanned : tokensOf source = .ok ts) :
    (isComplete source = true ↔ Token.opened ts ≤ Token.closed ts) ∧
      ∀ p, Program.ofSource source = .ok p → isComplete source = true := by
  obtain ⟨us, rest, cut, ends⟩ := Scan.walk_lossless .start source.toList
  have walked : Scan.walk .start 0 source.toList = ⟨ts, none⟩ := tokensOf_eq_ok_iff.1 scanned
  rw [walked] at ends
  generalize scan : (⟨ts, none⟩ : Scan) = finished at ends
  cases ends with
  | stopped => cases scan
  | finished place empty =>
    subst empty
    have tokens : ts = us ++ [⟨.endOfInput, "", ⟨place.line, 0⟩⟩] := congrArg Scan.tokens scan
    have same : Token.depth us = Token.depth ts := by
      rw [tokens, Token.depth_append]
      exact (Int.add_zero _).symm
    have balance : balanceFrom .code 0 source.toList = ⟨Token.depth ts, false⟩ := by
      rw [balanceFrom_cut cut, same, Int.zero_add]
      rfl
    have complete : isComplete source = true ↔ Token.opened ts ≤ Token.closed ts := by
      rw [isComplete, balance]
      show (decide (Token.depth ts ≤ 0) || false) = true ↔ _
      rw [Bool.or_false, decide_eq_true_eq, Token.depth]
      omega
    refine ⟨complete, fun p read => complete.2 ?_⟩
    obtain ⟨ts', scanned', closed⟩ := Program.depth_of_ofSource read
    obtain rfl : ts' = ts := Except.ok.inj (scanned'.symm.trans scanned)
    unfold Token.depth at closed
    omega

/-- An input with an open brace, and with other brackets in a string and in a comment. -/
def openBrace : String := "if (\"\\\")\") \x7b // \x7d"

/-- Its tokens. -/
def openBraceTokens : List Token :=
  [⟨.ifKeyword, "if", ⟨1, 1⟩⟩, ⟨.openParen, "(", ⟨1, 4⟩⟩, ⟨.string, "\"\\\")\"", ⟨1, 5⟩⟩,
    ⟨.closeParen, ")", ⟨1, 10⟩⟩, ⟨.openBrace, "\x7b", ⟨1, 12⟩⟩, ⟨.endOfInput, "", ⟨1, 0⟩⟩]

theorem isComplete_iff_openBrace :
    tokensOf openBrace = .ok openBraceTokens ∧
      Token.opened openBraceTokens = 2 ∧ Token.closed openBraceTokens = 1 ∧ isComplete openBrace = false := by
  have scanned : tokensOf openBrace = .ok openBraceTokens := by decide +kernel
  have opened : Token.opened openBraceTokens = 2 := by decide
  have closed : Token.closed openBraceTokens = 1 := by decide
  have counted := (isComplete_iff scanned).1
  rw [opened, closed] at counted
  exact ⟨scanned, opened, closed, Bool.eq_false_iff.2 fun complete => absurd (counted.1 complete) (by decide)⟩

end ToraCompiler.Entry
