import ToraCompiler.Proofs.Token.Layout

/-!
# Lexemes

Which texts can stand as a piece of a source, said apart from the scan: `Lexeme` has one rule for each class
of pieces, and the classes overlap.  A keyword is a word like any other, a minus may belong to a number, two
slashes may be two marks or a comment, and every beginning of a comment is one.

`Piece.first?` settles all of that.  The piece that it finds is a lexeme (`Piece.lexeme_of_first?`), no lexeme
at the same place is longer, and where it finds nothing no lexeme stands (`Piece.exists_first?_of_lexeme`).
The one tie is between a keyword and the identifier of the same letters, and the keyword wins
(`Piece.kind_eq_keyword_iff`).
-/

namespace ToraCompiler

/-- What may stand between the quotes of a string: characters other than the quote and the backslash, and
backslashes, each with a character behind it that does not end the line. -/
inductive StringBody : List Char → Prop
  | nil : StringBody []
  | plain {c : Char} {cs : List Char} : c ≠ '"' → c ≠ '\\' → StringBody cs → StringBody (c :: cs)
  | escape {c : Char} {cs : List Char} : c ≠ '\n' → StringBody cs → StringBody ('\\' :: c :: cs)

/-- No quote ends the string that these characters would be in: they end first, or a backslash at the end of
a line comes first. -/
def Unterminated (cs : List Char) : Prop :=
  ∃ body rest, StringBody body ∧ cs = body ++ rest ∧
    (rest = [] ∨ rest = ['\\'] ∨ ∃ later, rest = '\\' :: '\n' :: later)

/-- The texts of pieces: tokens with their kind, and comments, blanks and line ends without one. -/
inductive Lexeme : Option Kind → List Char → Prop
  | keyword {word : String} {kind : Kind} : (word, kind) ∈ keywords → Lexeme (some kind) word.toList
  | identifier {c : Char} {cs : List Char} :
    isWordStart c → (∀ d ∈ cs, isWordPart d) → Lexeme (some .identifier) (c :: cs)
  | number {cs : List Char} : IsNumeral cs → Lexeme (some .number) cs
  | string {body : List Char} : StringBody body → Lexeme (some .string) ('"' :: (body ++ ['"']))
  | mark {text : List Char} {kind : Kind} : (text, kind) ∈ marks → Lexeme (some kind) text
  | comment {body : List Char} : '\n' ∉ body → Lexeme none ('/' :: '/' :: body)
  | spacing {c : Char} {cs : List Char} : (∀ d ∈ c :: cs, isSpacing d) → Lexeme none (c :: cs)
  | newline : Lexeme none ['\n']

/-! ## String literals -/

namespace Piece

/-- A string ends at the quote behind its body. -/
theorem stringTail?_of_body {body : List Char} (h : StringBody body) (rest : List Char) :
    stringTail? (body ++ '"' :: rest) = some (body ++ ['"']) := by
  induction h with
  | nil => exact stringTail?_quote rest
  | plain notQuote notSlash _ ih =>
    rw [List.cons_append, stringTail?_plain _ notQuote notSlash, ih]
    rfl
  | escape notNewline _ ih => simp [stringTail?, notNewline, ih]

theorem body_of_stringTail? {cs tail : List Char} (h : stringTail? cs = some tail) :
    ∃ body, StringBody body ∧ tail = body ++ ['"'] := by
  fun_induction stringTail? cs generalizing tail with
  | case1 => cases h
  | case2 cs =>
    obtain rfl := Option.some.inj h
    exact ⟨[], .nil, rfl⟩
  | case3 => cases h
  | case4 => cases h
  | case5 d ds notNewline _ ih =>
    obtain ⟨inner, found, rfl⟩ := Option.map_eq_some_iff.1 h
    obtain ⟨body, isBody, rfl⟩ := ih found
    exact ⟨'\\' :: d :: body, .escape notNewline isBody, rfl⟩
  | case6 c cs notQuote notSlash ih =>
    obtain ⟨inner, found, rfl⟩ := Option.map_eq_some_iff.1 h
    obtain ⟨body, isBody, rfl⟩ := ih found
    exact ⟨c :: body, .plain notQuote notSlash isBody, rfl⟩

/-- Where no end is found, none is there. -/
theorem unterminated_of_stringTail? {cs : List Char} (h : stringTail? cs = none) : Unterminated cs := by
  fun_induction stringTail? cs with
  | case1 => exact ⟨[], [], .nil, rfl, .inl rfl⟩
  | case2 cs => cases h
  | case3 => exact ⟨[], _, .nil, rfl, .inr (.inl rfl)⟩
  | case4 ds => exact ⟨[], _, .nil, rfl, .inr (.inr ⟨ds, rfl⟩)⟩
  | case5 d ds notNewline _ ih =>
    obtain ⟨body, rest, isBody, rfl, stops⟩ := ih (Option.map_eq_none_iff.1 h)
    exact ⟨'\\' :: d :: body, rest, .escape notNewline isBody, rfl, stops⟩
  | case6 c cs notQuote notSlash ih =>
    obtain ⟨body, rest, isBody, rfl, stops⟩ := ih (Option.map_eq_none_iff.1 h)
    exact ⟨c :: body, rest, .plain notQuote notSlash isBody, rfl, stops⟩

/-! ## A piece is a lexeme -/

theorem lexeme_word {c : Char} {cs : List Char} (start : isWordStart c) (parts : ∀ d ∈ cs, isWordPart d) :
    Lexeme (word (c :: cs)).kind (word (c :: cs)).text := by
  unfold word
  cases found : keywords.lookup (String.ofList (c :: cs)) with
  | none => exact .identifier start parts
  | some kind =>
    obtain ⟨before, after, split, -⟩ := List.lookup_eq_some_iff.1 found
    have member : (String.ofList (c :: cs), kind) ∈ keywords := by
      rw [split]
      simp
    have lexeme := Lexeme.keyword member
    rwa [String.toList_ofList] at lexeme

theorem lexeme_of_first? {cs : List Char} {piece : Piece} (h : first? cs = some piece) :
    Lexeme piece.kind piece.text := by
  cases cs with
  | nil => cases h
  | cons c cs =>
    simp only [first?] at h
    split_ifs at h with isWord isDigit isMinus isQuote isBlank isNewline isComment
    · obtain rfl := Option.some.inj h
      exact lexeme_word isWord fun d member => List.mem_takeWhile_imp member
    · obtain rfl := Option.some.inj h
      exact .number (.inl (numberText_magnitude (by simpa using isDigit)))
    · obtain rfl := Option.some.inj h
      rcases isMinus with ⟨rfl, digit⟩
      exact .number (.inr ⟨_, numberText_magnitude digit, rfl⟩)
    · obtain ⟨tail, found, rfl⟩ := Option.map_eq_some_iff.1 h
      obtain ⟨body, isBody, rfl⟩ := body_of_stringTail? found
      subst isQuote
      exact .string isBody
    · obtain rfl := Option.some.inj h
      refine .spacing fun d member => ?_
      rcases List.mem_cons.1 member with rfl | inRest
      · exact isBlank
      · exact List.mem_takeWhile_imp inRest
    · obtain rfl := Option.some.inj h
      subst isNewline
      exact .newline
    · obtain rfl := Option.some.inj h
      rcases isComment with ⟨rfl, slash⟩
      cases cs with
      | nil => cases slash
      | cons d cs =>
        obtain rfl := Option.some.inj slash
        have second : ('/' :: cs).takeWhile (· ≠ '\n') = '/' :: cs.takeWhile (· ≠ '\n') :=
          List.takeWhile_cons_of_pos (by decide)
        have noLineEnd : '\n' ∉ cs.takeWhile (· ≠ '\n') := by
          intro member
          have holds := List.mem_takeWhile_imp member
          simp at holds
        rw [second]
        exact .comment noLineEnd
    · obtain ⟨⟨text, kind⟩, member, -, rfl⟩ := mark?_eq_some h
      exact .mark member

/-! ## No lexeme is longer -/

/-- Characters of a class at the head of a text are in the run of that class there. -/
theorem prefix_takeWhile {continues : Char → Bool} {ds cs : List Char} (all : ∀ d ∈ ds, continues d)
    (begins : ds <+: cs) : ds <+: cs.takeWhile continues := by
  obtain ⟨rest, rfl⟩ := begins
  rw [List.takeWhile_append_of_pos all]
  exact List.prefix_append _ _

theorem prefix_numberText {magnitude cs : List Char} (h : IsMagnitude magnitude)
    (begins : magnitude <+: cs) : magnitude <+: numberText cs := by
  rcases h with digits | ⟨whole, fraction, wholeDigits, fractionDigits, rfl⟩
  · have inWhole := prefix_takeWhile digits.2 begins
    unfold numberText
    split
    · dsimp only
      split
      · exact inWhole
      · exact inWhole.trans (List.prefix_append _ _)
    · exact inWhole
  · obtain ⟨rest, rfl⟩ := begins
    have inFraction : fraction <+: (fraction ++ rest).takeWhile Char.isDigit :=
      prefix_takeWhile fractionDigits.2 (List.prefix_append _ _)
    have nonempty : (fraction ++ rest).takeWhile Char.isDigit ≠ [] := by
      intro empty
      rw [empty, List.prefix_nil] at inFraction
      exact fractionDigits.1 inFraction
    have row : whole ++ '.' :: fraction ++ rest = whole ++ '.' :: (fraction ++ rest) := by simp
    have taken : (whole ++ '.' :: (fraction ++ rest)).takeWhile Char.isDigit = whole := by
      rw [List.takeWhile_append_of_pos wholeDigits.2]
      simp
    have dropped : (whole ++ '.' :: (fraction ++ rest)).dropWhile Char.isDigit =
        '.' :: (fraction ++ rest) := by
      rw [List.dropWhile_append_of_pos wholeDigits.2]
      rfl
    unfold numberText
    rw [row, taken, dropped]
    simp only [nonempty, if_false]
    exact (List.prefix_append_right_inj whole).2 ((List.prefix_cons_inj '.').2 inFraction)

/-- The mark that is found is the longest that stands there, because a longer mark is looked for before its
own beginning. -/
theorem exists_mark?_of_mem {text cs : List Char} {kind : Kind} (member : (text, kind) ∈ marks)
    (begins : text <+: cs) : ∃ piece, mark? cs = some piece ∧ text.length ≤ piece.text.length := by
  have ordered : marks.Pairwise fun mark later => ¬ later.1.length > mark.1.length ∨
      mark.1.isPrefixOf later.1 = false := by decide
  have fits : (text, kind).1.isPrefixOf cs = true := List.isPrefixOf_iff_prefix.2 begins
  obtain ⟨mark, found⟩ : ∃ mark, marks.find? (fun mark => mark.1.isPrefixOf cs) = some mark :=
    Option.isSome_iff_exists.1 (List.find?_isSome.2 ⟨(text, kind), member, fits⟩)
  refine ⟨⟨some mark.2, mark.1⟩, by rw [mark?, found]; rfl, ?_⟩
  obtain ⟨markFits, before, after, split, earlier⟩ := List.find?_eq_some_iff_append.1 found
  rw [split] at member ordered
  rcases List.mem_append.1 member with inBefore | inAfter
  · have fails := earlier _ inBefore
    rw [fits] at fails
    cases fails
  rcases List.mem_cons.1 inAfter with rfl | inAfter
  · exact Nat.le_refl _
  have later := (List.pairwise_cons.1 (List.pairwise_append.1 ordered).2.1).1 _ inAfter
  rcases later with notLonger | notPrefix
  · exact Nat.le_of_not_lt notLonger
  · refine Nat.le_of_not_lt fun shorter => ?_
    have both := List.prefix_of_prefix_length_le (List.isPrefixOf_iff_prefix.1 markFits) begins
      (Nat.le_of_lt shorter)
    rw [List.isPrefixOf_iff_prefix.2 both] at notPrefix
    cases notPrefix

theorem exists_first?_of_word {c : Char} {ds cs : List Char} (start : isWordStart c)
    (parts : ∀ d ∈ ds, isWordPart d) (begins : c :: ds <+: cs) :
    ∃ piece, first? cs = some piece ∧ (c :: ds).length ≤ piece.text.length := by
  obtain ⟨rest, rfl⟩ := begins
  have inWord : ds <+: (ds ++ rest).takeWhile isWordPart :=
    prefix_takeWhile parts (List.prefix_append _ _)
  refine ⟨word (c :: (ds ++ rest).takeWhile isWordPart), ?_, ?_⟩
  · simp only [List.cons_append, first?, start, if_true]
  · exact Nat.succ_le_succ inWord.length_le

/-- No word starts with a digit. -/
theorem isWordStart_of_isDigit {c : Char} (digit : c.isDigit) : isWordStart c = false := by
  have bounds : 48 ≤ c.val.toNat ∧ c.val.toNat ≤ 57 := by
    simpa [Char.isDigit, UInt32.le_iff_toNat_le] using digit
  have number : c.toNat = c.val.toNat := rfl
  have letters : 'A'.val.toNat = 65 ∧ 'Z'.val.toNat = 90 ∧ 'a'.val.toNat = 97 ∧ 'z'.val.toNat = 122 := by
    decide
  have upper : c.isUpper = (decide ('A'.val ≤ c.val ∧ c.val ≤ 'Z'.val)) := rfl
  have lower : c.isLower = (decide ('a'.val ≤ c.val) && decide (c.val ≤ 'z'.val)) := rfl
  have alpha : c.isAlpha = (c.isUpper || c.isLower) := rfl
  have notUpper : c.isUpper = false := by
    simp only [upper, UInt32.le_iff_toNat_le, decide_eq_false_iff_not]
    omega
  have notLower : c.isLower = false := by
    simp only [lower, UInt32.le_iff_toNat_le, decide_eq_false_iff_not, Bool.and_eq_false_iff]
    omega
  have notUnderscore : c ≠ '_' := by
    rintro rfl
    cases digit
  have notAlphabetic : isAlphabetic c = false := by
    rw [isAlphabetic, if_pos (by omega), alpha, notUpper, notLower]
    rfl
  simp only [isWordStart, notAlphabetic, notUnderscore, decide_false, Bool.or_false, Bool.false_or,
    Bool.and_eq_false_iff, decide_eq_false_iff_not]
  omega

theorem exists_first?_of_numeral {text cs : List Char} (h : IsNumeral text) (begins : text <+: cs) :
    ∃ piece, first? cs = some piece ∧ text.length ≤ piece.text.length := by
  rcases h with magnitude | ⟨magnitude, isMagnitude, rfl⟩
  · obtain ⟨c, ds, rfl, digit⟩ := magnitude.starts
    obtain ⟨rest, rfl⟩ := begins
    have inNumber := prefix_numberText magnitude (List.prefix_append _ rest)
    refine ⟨⟨some .number, numberText (c :: ds ++ rest)⟩, ?_, inNumber.length_le⟩
    simp only [List.cons_append, first?, isWordStart_of_isDigit digit, digit, Bool.false_eq_true, if_false,
      if_true]
  · obtain ⟨rest, rfl⟩ := begins
    have inNumber := prefix_numberText isMagnitude (List.prefix_append _ rest)
    have digit : (magnitude ++ rest).head?.any Char.isDigit = true := by
      obtain ⟨c, ds, rfl, digit⟩ := isMagnitude.starts
      exact digit
    refine ⟨⟨some .number, '-' :: numberText (magnitude ++ rest)⟩, ?_, Nat.succ_le_succ inNumber.length_le⟩
    have plain : isWordStart '-' = false ∧ '-'.isDigit = false := by decide
    simp only [List.cons_append, first?, plain.1, plain.2, digit, Bool.false_eq_true, if_false, and_self,
      if_true]

theorem exists_first?_of_mark {text cs : List Char} {kind : Kind} (member : (text, kind) ∈ marks)
    (begins : text <+: cs) : ∃ piece, first? cs = some piece ∧ text.length ≤ piece.text.length := by
  obtain ⟨found, isFound, longest⟩ := exists_mark?_of_mem member begins
  obtain ⟨c, ds, split, notWord, notDigit, notQuote, notSpacing, notNewline, -⟩ :=
    marks_start (text, kind) member
  obtain rfl : text = c :: ds := split
  obtain ⟨rest, rfl⟩ := begins
  have alone : ∀ mark ∈ marks, mark.1.head? = some '-' ∨ mark.1.head? = some '/' → mark.1.length = 1 := by
    decide
  rw [List.cons_append] at isFound
  have word : ¬ isWordStart c = true := by rw [notWord]; decide
  have digit : ¬ c.isDigit = true := by rw [notDigit]; decide
  have blank : ¬ isSpacing c = true := by rw [notSpacing]; decide
  by_cases minus : c = '-' ∧ (ds ++ rest).head?.any Char.isDigit
  · refine ⟨⟨some .number, c :: numberText (ds ++ rest)⟩, ?_, ?_⟩
    · rw [List.cons_append, first?, if_neg word, if_neg digit, if_pos minus]
    · have single := alone _ member (.inl (by rw [minus.1]; rfl))
      rw [single]
      exact Nat.succ_pos _
  by_cases comment : c = '/' ∧ (ds ++ rest).head? = some '/'
  · refine ⟨⟨none, c :: (ds ++ rest).takeWhile (· ≠ '\n')⟩, ?_, ?_⟩
    · rw [List.cons_append, first?, if_neg word, if_neg digit, if_neg minus, if_neg notQuote, if_neg blank,
        if_neg notNewline, if_pos comment]
    · have single := alone _ member (.inr (by rw [comment.1]; rfl))
      rw [single]
      exact Nat.succ_pos _
  · refine ⟨found, ?_, longest⟩
    rw [List.cons_append, first?, if_neg word, if_neg digit, if_neg minus, if_neg notQuote, if_neg blank,
      if_neg notNewline, if_neg comment, isFound]

/-- A string is found whole, whatever follows it. -/
theorem first?_string {body : List Char} (h : StringBody body) (rest : List Char) :
    first? ('"' :: (body ++ ['"']) ++ rest) = some ⟨some .string, '"' :: (body ++ ['"'])⟩ := by
  have row : '"' :: (body ++ ['"']) ++ rest = '"' :: (body ++ '"' :: rest) := by simp
  have plain : isWordStart '"' = false ∧ '"'.isDigit = false ∧ '"' ≠ '-' := by decide
  rw [row]
  simp only [first?, plain, false_and, Bool.false_eq_true, if_false, if_true, stringTail?_of_body h,
    Option.map_some]

theorem exists_first?_of_string {body cs : List Char} (h : StringBody body)
    (begins : '"' :: (body ++ ['"']) <+: cs) :
    ∃ piece, first? cs = some piece ∧ ('"' :: (body ++ ['"'])).length ≤ piece.text.length := by
  obtain ⟨rest, rfl⟩ := begins
  exact ⟨_, first?_string h rest, Nat.le_refl _⟩

theorem exists_first?_of_gap {text cs : List Char} (h : Lexeme none text) (begins : text <+: cs) :
    ∃ piece, first? cs = some piece ∧ text.length ≤ piece.text.length := by
  obtain ⟨rest, rfl⟩ := begins
  cases h with
  | @comment body noLineEnd =>
    have all : ∀ c ∈ '/' :: body, decide (c ≠ '\n') = true := by
      intro c member
      refine decide_eq_true ?_
      rintro rfl
      rcases List.mem_cons.1 member with same | inBody
      · cases same
      · exact noLineEnd inBody
    have inComment : '/' :: body <+: ('/' :: body ++ rest).takeWhile (· ≠ '\n') :=
      prefix_takeWhile all (List.prefix_append _ _)
    exact ⟨_, rfl, Nat.succ_le_succ inComment.length_le⟩
  | @spacing c ds all =>
    have blank := all c List.mem_cons_self
    have plain : isWordStart c = false ∧ c.isDigit = false ∧ c ≠ '-' ∧ c ≠ '"' := by
      simp only [isSpacing, Bool.or_eq_true, decide_eq_true_eq] at blank
      rcases blank with (rfl | rfl) | rfl <;> decide
    have inBlanks : ds <+: (ds ++ rest).takeWhile isSpacing :=
      prefix_takeWhile (fun d member => all d (List.mem_cons_of_mem c member)) (List.prefix_append _ _)
    refine ⟨⟨none, c :: (ds ++ rest).takeWhile isSpacing⟩, ?_, Nat.succ_le_succ inBlanks.length_le⟩
    simp only [List.cons_append, first?, plain, blank, false_and, Bool.false_eq_true, if_false, if_true]
  | newline => exact ⟨⟨none, ['\n']⟩, rfl, Nat.le_refl _⟩

/-- Wherever a lexeme stands a piece is found, and it is at least as long. -/
theorem exists_first?_of_lexeme {kind : Option Kind} {text cs : List Char} (h : Lexeme kind text)
    (begins : text <+: cs) : ∃ piece, first? cs = some piece ∧ text.length ≤ piece.text.length := by
  have keywordParts : ∀ entry ∈ keywords, (entry.1.toList.head?.any isWordStart) = true ∧
      entry.1.toList.tail.all isWordPart = true := by decide
  cases h with
  | @keyword word kind member =>
    obtain ⟨start, parts⟩ := keywordParts _ member
    cases letters : word.toList with
    | nil =>
      rw [letters] at start
      cases start
    | cons c ds =>
      rw [letters] at start parts begins
      exact exists_first?_of_word start (List.all_eq_true.1 parts) begins
  | identifier start parts => exact exists_first?_of_word start parts begins
  | number numeral => exact exists_first?_of_numeral numeral begins
  | string body => exact exists_first?_of_string body begins
  | mark member => exact exists_first?_of_mark member begins
  | comment noLineEnd => exact exists_first?_of_gap (.comment noLineEnd) begins
  | spacing all => exact exists_first?_of_gap (.spacing all) begins
  | newline => exact exists_first?_of_gap .newline begins

/-- A piece is the longest lexeme where it stands. -/
theorem length_le_of_first? {cs text : List Char} {piece : Piece} {kind : Option Kind}
    (found : first? cs = some piece) (h : Lexeme kind text) (begins : text <+: cs) :
    text.length ≤ piece.text.length := by
  obtain ⟨other, isFound, longest⟩ := exists_first?_of_lexeme h begins
  obtain rfl : piece = other := Option.some.inj (found.symm.trans isFound)
  exact longest

/-! ## Keywords -/

theorem eq_of_mem_keywords : ∀ entry ∈ keywords, ∀ other ∈ keywords, entry.2 = other.2 → entry = other := by
  decide

/-- A piece is of the kind of a keyword exactly if it is that keyword, from its first letter to its last. -/
theorem kind_eq_keyword_iff {cs : List Char} {piece : Piece} (found : first? cs = some piece)
    {entry : String × Kind} (member : entry ∈ keywords) :
    piece.kind = some entry.2 ↔ piece.text = entry.1.toList := by
  constructor
  · intro isKind
    have lexeme := lexeme_of_first? found
    rw [isKind] at lexeme
    have notMark : ∀ entry ∈ keywords, ∀ mark ∈ marks, entry.2 ≠ mark.2 := by decide
    have notOther : ∀ entry ∈ keywords, entry.2 ≠ .identifier ∧ entry.2 ≠ .number ∧ entry.2 ≠ .string := by
      decide
    obtain ⟨notIdentifier, notNumber, notString⟩ := notOther entry member
    generalize kind : some entry.2 = k, letters : piece.text = text at lexeme
    cases lexeme with
    | keyword other =>
      rw [eq_of_mem_keywords entry member _ other (Option.some.inj kind)]
    | identifier => exact (notIdentifier (Option.some.inj kind)).elim
    | number => exact (notNumber (Option.some.inj kind)).elim
    | string => exact (notString (Option.some.inj kind)).elim
    | mark other => exact (notMark entry member _ other (Option.some.inj kind)).elim
    | comment => cases kind
    | spacing => cases kind
    | newline => cases kind
  · intro letters
    have starts : ∀ entry ∈ keywords, entry.1.toList.head?.any isWordStart = true := by decide
    have lookedUp : ∀ entry ∈ keywords, keywords.lookup entry.1 = some entry.2 := by decide
    obtain ⟨rest, rfl⟩ := text_begins found
    rw [letters] at found
    have start := starts entry member
    cases split : entry.1.toList with
    | nil =>
      rw [split] at start
      cases start
    | cons c ds =>
      rw [split] at start found
      have isWord : isWordStart c = true := start
      simp only [List.cons_append, first?, isWord, if_true] at found
      obtain rfl := Option.some.inj found
      have name : String.ofList (c :: (ds ++ rest).takeWhile isWordPart) = entry.1 := by
        rw [← String.ofList_toList (s := entry.1), ← letters]
        rfl
      simp only [word, name, lookedUp entry member, Option.getD_some]

end Piece

/-! ## Lexemes of one kind -/

/-- Neither keywords nor marks are literals. -/
theorem not_literal_of_mem : (∀ entry ∈ keywords, entry.2 ≠ .number ∧ entry.2 ≠ .string) ∧
    ∀ mark ∈ marks, mark.2 ≠ .number ∧ mark.2 ≠ .string := by
  decide

theorem Lexeme.numeral {cs : List Char} (h : Lexeme (some .number) cs) : IsNumeral cs := by
  cases h with
  | keyword member => exact absurd rfl (not_literal_of_mem.1 _ member).1
  | number numeral => exact numeral
  | mark member => exact absurd rfl (not_literal_of_mem.2 _ member).1

theorem Lexeme.quoted {cs : List Char} (h : Lexeme (some .string) cs) :
    ∃ body, StringBody body ∧ cs = '"' :: (body ++ ['"']) := by
  cases h with
  | keyword member => exact absurd rfl (not_literal_of_mem.1 _ member).2
  | string body => exact ⟨_, body, rfl⟩
  | mark member => exact absurd rfl (not_literal_of_mem.2 _ member).2

/-- Every token of a scan but the end is a lexeme of its kind, even if the scan comes to a fault behind it. -/
theorem Token.lexeme_of_scan {source : String} {t : Token} (member : t ∈ (Scan.ofText source).tokens)
    (notEnd : t.kind ≠ .endOfInput) : Lexeme (some t.kind) t.text.toList :=
  Piece.lexeme_of_first? ((Scan.stands_of_mem_walk member notEnd).found [] nofun)

/-- Every token of a source but its end is a lexeme of its kind. -/
theorem Token.lexeme_of_tokensOf {source : String} {ts : List Token} {t : Token}
    (scanned : tokensOf source = .ok ts) (member : t ∈ ts) (notEnd : t.kind ≠ .endOfInput) :
    Lexeme (some t.kind) t.text.toList := by
  have inScan : t ∈ (Scan.ofText source).tokens := by rwa [tokensOf_eq_ok_iff.1 scanned]
  exact lexeme_of_scan inScan notEnd

end ToraCompiler
