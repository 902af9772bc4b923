import ToraCompiler.Proofs.Token.Lines

/-!
# Layouts of a row of tokens

A layout sets down texts in order, with a gap between each two of them and perhaps one at either end.  The
texts of a row of tokens can be laid out in any way: scanning a layout gives tokens of the same kinds and
texts, and only their places differ (`tokensOf_layout`).

Two facts carry this.  A token is found again wherever its text stands with nothing or a separator behind
it, because no token but a string goes over a separator, and a string has its end in its own text
(`Scan.stands_of_mem_walk`).  And a walk over a gap finds nothing, however the blanks and comments in it
fall into pieces (`Scan.walk_filler`).
-/

namespace ToraCompiler

/-! ## Gaps and layouts -/

/-- Whether `c` ends every token but a string: a blank or a line end. -/
def isSeparator (c : Char) : Bool :=
  isSpacing c || c = '\n'

/-- Separators, and comments with their line ends. -/
inductive Filler : List Char → Prop
  | nil : Filler []
  | separator {c : Char} {cs : List Char} : isSeparator c → Filler cs → Filler (c :: cs)
  | comment {body cs : List Char} :
    '\n' ∉ body → Filler cs → Filler ('/' :: '/' :: (body ++ '\n' :: cs))

/-- A gap begins with a separator, so that a comment in it does not run into a mark before it. -/
inductive Gap : List Char → Prop
  | intro {c : Char} {cs : List Char} : isSeparator c → Filler cs → Gap (c :: cs)

/-- Texts with a gap before each, and perhaps one behind the last. -/
inductive GappedTexts : List String → List Char → Prop
  | done : GappedTexts [] []
  | gap {gap : List Char} : Gap gap → GappedTexts [] gap
  | text {gap cs : List Char} (text : String) {texts : List String} :
    Gap gap → GappedTexts texts cs → GappedTexts (text :: texts) (gap ++ (text.toList ++ cs))

/-- Texts with a gap between each two, and perhaps one at either end. -/
inductive Layout : List String → List Char → Prop
  | afterGap {texts : List String} {cs : List Char} : GappedTexts texts cs → Layout texts cs
  | atOnce {cs : List Char} (text : String) {texts : List String} :
    GappedTexts texts cs → Layout (text :: texts) (text.toList ++ cs)

theorem GappedTexts.separated {texts : List String} {cs : List Char} (gapped : GappedTexts texts cs) :
    ∀ c ∈ cs.head?, isSeparator c := by
  intro c first
  cases gapped with
  | done => cases first
  | gap gap =>
    cases gap with
    | intro separator filler =>
      obtain rfl := Option.some.inj first
      exact separator
  | text text gap rest =>
    cases gap with
    | intro separator filler =>
      obtain rfl := Option.some.inj first
      exact separator

/-- What a separator is not. -/
theorem isSeparator_cases {c : Char} (separator : isSeparator c) :
    c = ' ' ∨ c = '\t' ∨ c = '\r' ∨ c = '\n' := by
  simpa [isSeparator, isSpacing, or_assoc] using separator

/-! ## Tokens stand alone -/

/-- A magnitude starts with a digit. -/
theorem IsMagnitude.starts {cs : List Char} (magnitude : IsMagnitude cs) :
    ∃ c ds, cs = c :: ds ∧ c.isDigit := by
  have ofDigits : ∀ {whole : List Char}, IsDigits whole → ∀ rest : List Char,
      ∃ c ds, whole ++ rest = c :: ds ∧ c.isDigit := by
    intro whole digits rest
    cases whole with
    | nil => exact (digits.1 rfl).elim
    | cons c ds => exact ⟨c, ds ++ rest, rfl, digits.2 c List.mem_cons_self⟩
  rcases magnitude with digits | ⟨whole, fraction, digits, -, rfl⟩
  · simpa using ofDigits digits []
  · exact ofDigits digits _

/-- A numeral that starts with a minus is a magnitude behind it. -/
theorem IsNumeral.magnitude {cs : List Char} (h : IsNumeral cs) (negative : cs.head? = some '-') :
    IsMagnitude cs.tail := by
  rcases h with magnitude | ⟨digits, magnitude, rfl⟩
  · rcases magnitude.starts with ⟨c, ds, rfl, digit⟩
    obtain rfl := Option.some.inj negative
    cases digit
  · exact magnitude

namespace Piece

/-- A run of characters ends in front of one that does not go on with it. -/
theorem takeWhile_append_stopped {continues : Char → Bool} {cs rest : List Char}
    (all : ∀ c ∈ cs, continues c) (stops : ∀ c ∈ rest.head?, continues c = false) :
    (cs ++ rest).takeWhile continues = cs ∧ (cs ++ rest).dropWhile continues = rest := by
  rw [List.takeWhile_append_of_pos all, List.dropWhile_append_of_pos all]
  cases rest with
  | nil => simp
  | cons c rest => simp [stops c rfl]

theorem separator_not_wordPart (c : Char) (separator : isSeparator c) : isWordPart c = false := by
  rcases isSeparator_cases separator with rfl | rfl | rfl | rfl <;> decide

theorem separator_not_digit (c : Char) (separator : isSeparator c) : c.isDigit = false := by
  rcases isSeparator_cases separator with rfl | rfl | rfl | rfl <;> decide

theorem separator_not_numberPart (c : Char) (separator : isSeparator c) : c.isDigit = false ∧ c ≠ '.' := by
  refine ⟨separator_not_digit c separator, ?_⟩
  rintro rfl
  cases separator

/-- A magnitude in front of neither a digit nor a point is all that is read of a number. -/
theorem numberText_magnitude_append {cs rest : List Char} (magnitude : IsMagnitude cs)
    (stops : ∀ c ∈ rest.head?, c.isDigit = false ∧ c ≠ '.') : numberText (cs ++ rest) = cs := by
  have noDigit : ∀ c ∈ rest.head?, c.isDigit = false := fun c first => (stops c first).1
  have noPoint : ∀ others, rest ≠ '.' :: others := by
    rintro others rfl
    exact (stops '.' rfl).2 rfl
  unfold numberText
  rcases magnitude with digits | ⟨whole, fraction, wholeDigits, fractionDigits, rfl⟩
  · obtain ⟨taken, dropped⟩ := takeWhile_append_stopped digits.2 noDigit
    rw [taken, dropped]
    split
    · next others => exact (noPoint others rfl).elim
    · rfl
  · obtain ⟨taken, -⟩ := takeWhile_append_stopped fractionDigits.2 noDigit
    rw [List.append_assoc, List.takeWhile_append_of_pos wholeDigits.2,
      List.dropWhile_append_of_pos wholeDigits.2]
    simp [taken, fractionDigits.1]

/-- The rest of a string literal has its end in itself. -/
theorem stringTail?_self {cs tail : List Char} (h : stringTail? cs = some tail) :
    stringTail? tail = some tail := by
  fun_induction stringTail? cs generalizing tail with
  | case1 => cases h
  | case2 cs =>
    obtain rfl := Option.some.inj h
    rfl
  | case3 => cases h
  | case4 => cases h
  | case5 d rest notEnd _ ih =>
    obtain ⟨inner, found, rfl⟩ := Option.map_eq_some_iff.1 h
    simp [stringTail?, notEnd, ih found]
  | case6 c cs notQuote notSlash ih =>
    obtain ⟨inner, found, rfl⟩ := Option.map_eq_some_iff.1 h
    rw [stringTail?_plain _ notQuote notSlash, ih found]
    rfl

theorem mark?_append_separated (cs : List Char) {rest : List Char}
    (separated : ∀ c ∈ rest.head?, isSeparator c) : mark? (cs ++ rest) = mark? cs := by
  have noSeparator : ∀ mark ∈ marks, mark.1.any isSeparator = false := by decide
  cases rest with
  | nil => rw [List.append_nil]
  | cons stop rest =>
    have sameTest : ∀ mark ∈ marks,
        mark.1.isPrefixOf (cs ++ stop :: rest) = mark.1.isPrefixOf cs := by
      intro mark member
      refine isPrefixOf_append_stop cs rest fun inMark => ?_
      have someSeparator := List.any_eq_true.2 ⟨stop, inMark, separated stop rfl⟩
      rw [noSeparator mark member] at someSeparator
      cases someSeparator
    unfold mark?
    rw [List.find?_congr sameTest]

/-- A mark starts like no other piece, and only the sign of equality follows in one. -/
theorem marks_start : ∀ mark ∈ marks, ∃ c ds, mark.1 = c :: ds ∧ isWordStart c = false ∧
    c.isDigit = false ∧ c ≠ '"' ∧ isSpacing c = false ∧ c ≠ '\n' ∧ ∀ d ∈ ds, d = '=' := by
  intro mark member
  have starts : ∀ mark ∈ marks, (mark.1.head?.any fun c => !isWordStart c && !c.isDigit &&
      c ≠ '"' && !isSpacing c && c ≠ '\n') = true ∧ mark.1.tail.all (· = '=') = true := by decide
  obtain ⟨start, equals⟩ := starts mark member
  rcases mark with ⟨_ | ⟨c, ds⟩, kind⟩
  · cases start
  · refine ⟨c, ds, rfl, ?_⟩
    simp only [List.head?_cons, Option.any_some, Bool.and_eq_true, Bool.not_eq_true',
      decide_eq_true_eq] at start
    obtain ⟨⟨⟨⟨notWord, notDigit⟩, notQuote⟩, notSpacing⟩, notNewline⟩ := start
    exact ⟨notWord, notDigit, notQuote, notSpacing, notNewline, by simpa using equals⟩

/-- A mark in front of a separator is found whole. -/
theorem first?_mark {mark : List Char × Kind} (member : mark ∈ marks) {rest : List Char}
    (separated : ∀ c ∈ rest.head?, isSeparator c) :
    first? (mark.1 ++ rest) = some ⟨some mark.2, mark.1⟩ := by
  have alone : ∀ mark ∈ marks, mark? mark.1 = some ⟨some mark.2, mark.1⟩ := by decide
  obtain ⟨c, ds, split, notWord, notDigit, notQuote, notSpacing, notNewline, equals⟩ :=
    marks_start mark member
  -- What follows the first character makes it neither a sign nor a comment.
  have second : ∀ d ∈ (ds ++ rest).head?, d.isDigit = false ∧ d ≠ '/' := by
    intro d first
    cases ds with
    | nil =>
      have separator := separated d first
      refine ⟨separator_not_digit d separator, ?_⟩
      rintro rfl
      cases separator
    | cons e ds =>
      obtain rfl := Option.some.inj first
      rw [equals e List.mem_cons_self]
      decide
  have notMinus : (ds ++ rest).head?.any Char.isDigit = false := by
    cases found : (ds ++ rest).head? with
    | none => rfl
    | some d => exact (second d found).1
  have notComment : (ds ++ rest).head? ≠ some '/' := fun found => (second '/' found).2 rfl
  have whole := mark?_append_separated mark.1 separated
  rw [alone mark member] at whole
  rw [← whole, split, List.cons_append]
  simp only [first?, notWord, notDigit, notMinus, notQuote, notSpacing, notNewline, notComment,
    Bool.false_eq_true, and_false, if_false]

/-- A piece that makes a token is found again wherever nothing or a separator follows it. -/
theorem first?_text_append {cs rest : List Char} {piece : Piece} {kind : Kind}
    (h : first? cs = some piece) (isKind : piece.kind = some kind)
    (separated : ∀ c ∈ rest.head?, isSeparator c) : first? (piece.text ++ rest) = some piece := by
  have stops : ∀ c ∈ rest.head?, c.isDigit = false ∧ c ≠ '.' := fun c first =>
    separator_not_numberPart c (separated c first)
  cases cs with
  | nil => cases h
  | cons c cs =>
    simp only [first?] at h
    split_ifs at h with isWord isDigit isMinus isQuote
    · obtain rfl := Option.some.inj h
      have all : ∀ d ∈ cs.takeWhile isWordPart, isWordPart d := fun d member =>
        List.mem_takeWhile_imp member
      have ends : ∀ d ∈ rest.head?, isWordPart d = false := fun d first =>
        separator_not_wordPart d (separated d first)
      have taken := (takeWhile_append_stopped all ends).1
      simp [first?, word, isWord, taken]
    · obtain rfl := Option.some.inj h
      have magnitude : IsMagnitude (numberText (c :: cs)) := numberText_magnitude (by simpa using isDigit)
      have same := numberText_magnitude_append magnitude stops
      obtain ⟨d, ds, split, -⟩ := magnitude.starts
      obtain ⟨later, whole⟩ := numberText_begins (c :: cs)
      rw [split, List.cons_append] at whole
      obtain rfl : d = c := (List.cons.inj whole).1
      rw [split, List.cons_append] at same ⊢
      simp only [first?, if_neg isWord, if_pos isDigit, same]
    · obtain rfl := Option.some.inj h
      have magnitude : IsMagnitude (numberText cs) := numberText_magnitude isMinus.2
      have same := numberText_magnitude_append magnitude stops
      have digit : (numberText cs ++ rest).head?.any Char.isDigit = true := by
        obtain ⟨d, ds, split, isDigit⟩ := magnitude.starts
        rw [split]
        exact isDigit
      rw [List.cons_append]
      simp only [first?, if_neg isWord, if_neg isDigit, if_pos (And.intro isMinus.1 digit), same]
    · obtain ⟨tail, found, rfl⟩ := Option.map_eq_some_iff.1 h
      -- A string may hold separators; it is found again because its own quote ends it.
      have again := stringTail?_append rest (stringTail?_self found)
      rw [List.cons_append]
      have notMinus : ¬ (c = '-' ∧ (tail ++ rest).head?.any Char.isDigit) := by
        rw [isQuote]
        rintro ⟨same, -⟩
        cases same
      simp only [first?, if_neg isWord, if_neg isDigit, if_neg notMinus, if_pos isQuote, again,
        Option.map_some]
    · obtain rfl := Option.some.inj h
      cases isKind
    · obtain rfl := Option.some.inj h
      cases isKind
    · obtain rfl := Option.some.inj h
      cases isKind
    · obtain ⟨mark, member, -, rfl⟩ := mark?_eq_some h
      exact first?_mark member separated

/-- A piece that makes a token has a character, since without one it would not be found again. -/
theorem text_ne_nil {cs : List Char} {piece : Piece} {kind : Kind} (h : first? cs = some piece)
    (isKind : piece.kind = some kind) : piece.text ≠ [] := by
  intro empty
  have atEnd : ∀ c ∈ ([] : List Char).head?, isSeparator c := by simp
  have again := first?_text_append h isKind atEnd
  rw [empty] at again
  cases again

end Piece

/-- The text of the token is found as that token wherever nothing or a separator follows it. -/
structure Token.Stands (t : Token) : Prop where
  nonempty : t.text.toList ≠ []
  found : ∀ rest : List Char, (∀ c ∈ rest.head?, isSeparator c) →
    Piece.first? (t.text.toList ++ rest) = some ⟨some t.kind, t.text.toList⟩

namespace Scan

/-- Every token that a walk makes stands alone, except for the end. -/
theorem stands_of_mem_walk {p : Position} {pending : Nat} {cs : List Char} {t : Token}
    (member : t ∈ (walk p pending cs).tokens) (notEnd : t.kind ≠ .endOfInput) : t.Stands := by
  induction cs generalizing p pending with
  | nil =>
    obtain rfl := List.mem_singleton.1 member
    exact (notEnd rfl).elim
  | cons c cs ih =>
    cases pending with
    | succ rest => exact ih member
    | zero =>
      simp only [walk] at member
      cases found : Piece.first? (c :: cs) with
      | none =>
        rw [found] at member
        cases member
      | some piece =>
        rw [found] at member
        dsimp only at member
        cases isKind : piece.kind with
        | none =>
          rw [isKind] at member
          exact ih member
        | some kind =>
          rw [isKind] at member
          rcases List.mem_cons.1 member with rfl | later
          · refine ⟨?_, fun rest separated => ?_⟩
            · rw [String.toList_ofList]
              exact Piece.text_ne_nil found isKind
            · rw [String.toList_ofList, Piece.first?_text_append found isKind separated, ← isKind]
          · exact ih later

/-! ## Walks over layouts -/

/-- A walk passes over the characters that belong to a piece already found. -/
theorem walk_pending (p : Position) (taken rest : List Char) :
    walk p taken.length (taken ++ rest) = walk (taken.foldl Position.after p) 0 rest := by
  induction taken generalizing p with
  | nil => rfl
  | cons c taken ih => exact ih (p.after c)

/-- A walk goes on behind the gap that it finds. -/
theorem walk_gap {p : Position} {c : Char} {text rest : List Char}
    (found : Piece.first? (c :: (text ++ rest)) = some ⟨none, c :: text⟩) :
    walk p 0 (c :: (text ++ rest)) = walk ((c :: text).foldl Position.after p) 0 rest := by
  have passed := walk_pending (p.after c) text rest
  simp only [walk, found, List.length_cons, Nat.add_sub_cancel, passed]
  rfl

/-- A walk makes a token of the piece that it finds, and goes on behind it. -/
theorem walk_token {p : Position} {text rest : List Char} {kind : Kind} (nonempty : text ≠ [])
    (found : Piece.first? (text ++ rest) = some ⟨some kind, text⟩) :
    walk p 0 (text ++ rest) =
      (walk (text.foldl Position.after p) 0 rest).cons ⟨kind, String.ofList text, p⟩ := by
  cases text with
  | nil => exact (nonempty rfl).elim
  | cons c text =>
    have passed := walk_pending (p.after c) text rest
    rw [List.cons_append] at found ⊢
    simp only [walk, found, List.length_cons, Nat.add_sub_cancel, passed]
    rfl

theorem walk_separator (p : Position) {c : Char} (separator : isSeparator c) (cs : List Char) :
    walk p 0 (c :: cs) = walk (p.after c) 0 cs := by
  rcases Bool.or_eq_true_iff.1 separator with spacing | newline
  · have found : ∀ {c : Char} (cs : List Char), isSpacing c →
        Piece.first? (c :: cs) = some ⟨none, c :: cs.takeWhile isSpacing⟩ := by
      intro c cs spacing
      have plain : isWordStart c = false ∧ c.isDigit = false ∧ c ≠ '-' ∧ c ≠ '"' := by
        simp only [isSpacing, Bool.or_eq_true, decide_eq_true_eq] at spacing
        rcases spacing with (rfl | rfl) | rfl <;> decide
      obtain ⟨notWord, notDigit, notMinus, notQuote⟩ := plain
      simp [Piece.first?, notWord, notDigit, notMinus, notQuote, spacing]
    -- The blanks that follow are one piece with `c`, or with the first of them: that is the same.
    have goesOn : ∀ {c : Char} (p : Position) (cs : List Char), isSpacing c →
        walk p 0 (c :: cs) = walk (((cs.takeWhile isSpacing).foldl Position.after) (p.after c)) 0
          (cs.dropWhile isSpacing) := by
      intro c p cs spacing
      have whole := found cs spacing
      have split := List.takeWhile_append_dropWhile (p := isSpacing) (l := cs)
      generalize cs.takeWhile isSpacing = taken, cs.dropWhile isSpacing = rest at whole split ⊢
      subst split
      exact walk_gap whole
    rw [goesOn p cs spacing]
    cases cs with
    | nil => rfl
    | cons d ds =>
      by_cases more : isSpacing d
      · rw [goesOn (p.after c) ds more, List.takeWhile_cons_of_pos more, List.dropWhile_cons_of_pos more]
        rfl
      · rw [List.takeWhile_cons_of_neg more, List.dropWhile_cons_of_neg more]
        rfl
  · obtain rfl : c = '\n' := by simpa using newline
    have found : Piece.first? ('\n' :: ([] ++ cs)) = some ⟨none, ['\n']⟩ := rfl
    exact walk_gap found

theorem walk_comment (p : Position) {body : List Char} (noLineEnd : '\n' ∉ body) (cs : List Char) :
    ∃ p', walk p 0 ('/' :: '/' :: (body ++ '\n' :: cs)) = walk p' 0 cs := by
  have all : ∀ c ∈ body, (decide (c ≠ '\n')) = true := by
    intro c member
    simp only [decide_eq_true_eq]
    rintro rfl
    exact noLineEnd member
  have taken : ('/' :: (body ++ '\n' :: cs)).takeWhile (· ≠ '\n') = '/' :: body := by
    rw [List.takeWhile_cons_of_pos (by decide), List.takeWhile_append_of_pos all]
    simp
  have found : Piece.first? ('/' :: ('/' :: body ++ '\n' :: cs)) =
      some ⟨none, '/' :: ('/' :: (body ++ '\n' :: cs)).takeWhile (· ≠ '\n')⟩ := rfl
  rw [taken] at found
  exact ⟨_, (walk_gap found).trans (walk_separator _ (by decide) cs)⟩

/-- A walk over separators and comments finds nothing. -/
theorem walk_filler {filler : List Char} (h : Filler filler) (p : Position) (rest : List Char) :
    ∃ p', walk p 0 (filler ++ rest) = walk p' 0 rest := by
  induction h generalizing p with
  | nil => exact ⟨p, rfl⟩
  | separator isSeparator filler ih =>
    obtain ⟨p', same⟩ := ih (p.after _)
    exact ⟨p', (walk_separator p isSeparator _).trans same⟩
  | @comment body cs noLineEnd filler ih =>
    obtain ⟨middle, first⟩ := walk_comment p noLineEnd (cs ++ rest)
    obtain ⟨p', same⟩ := ih middle
    refine ⟨p', ?_⟩
    simpa using first.trans same

theorem walk_gapChars {gap : List Char} (h : Gap gap) (p : Position) (rest : List Char) :
    ∃ p', walk p 0 (gap ++ rest) = walk p' 0 rest := by
  cases h with
  | intro separator filler => exact walk_filler (.separator separator filler) p rest

end Scan

/-- What a token is apart from its place. -/
def Token.spelling (t : Token) : Kind × String :=
  (t.kind, t.text)

namespace Scan

theorem walk_stands {t : Token} (stands : t.Stands) (p : Position) {rest : List Char}
    (separated : ∀ c ∈ rest.head?, isSeparator c) :
    ∃ p', walk p 0 (t.text.toList ++ rest) = (walk p' 0 rest).cons ⟨t.kind, t.text, p⟩ := by
  have walked := walk_token (p := p) stands.nonempty (stands.found rest separated)
  rw [String.ofList_toList] at walked
  exact ⟨_, walked⟩

/-- A walk over texts with gaps before them finds tokens that are spelled like the given ones, and the
end. -/
theorem walk_gappedTexts {ts : List Token} (stand : ∀ t ∈ ts, t.Stands) {cs : List Char}
    (gapped : GappedTexts (ts.map Token.text) cs) (p : Position) :
    ∃ us p', walk p 0 cs = (finish p').behind us ∧ us.map Token.spelling = ts.map Token.spelling := by
  induction ts generalizing cs p with
  | nil =>
    cases gapped with
    | done => exact ⟨[], p, rfl, rfl⟩
    | gap gap =>
      obtain ⟨p', walked⟩ := walk_gapChars gap p []
      rw [List.append_nil] at walked
      exact ⟨[], p', walked, rfl⟩
  | cons t ts ih =>
    cases gapped with
    | @text gap cs _ _ gap gapped =>
      obtain ⟨atToken, passed⟩ := walk_gapChars gap p (t.text.toList ++ cs)
      obtain ⟨behind, found⟩ := walk_stands (stand t List.mem_cons_self) atToken gapped.separated
      obtain ⟨us, p', walked, same⟩ := ih (fun u member => stand u (List.mem_cons_of_mem t member))
        gapped behind
      refine ⟨⟨t.kind, t.text, atToken⟩ :: us, p', ?_, ?_⟩
      · rw [passed, found, walked]
        rfl
      · rw [List.map_cons, List.map_cons, same]
        rfl

theorem walk_layout {ts : List Token} (stand : ∀ t ∈ ts, t.Stands) {cs : List Char}
    (laid : Layout (ts.map Token.text) cs) (p : Position) :
    ∃ us p', walk p 0 cs = (finish p').behind us ∧ us.map Token.spelling = ts.map Token.spelling := by
  generalize texts : ts.map Token.text = row at laid
  cases laid with
  | afterGap gapped =>
    subst texts
    exact walk_gappedTexts stand gapped p
  | @atOnce cs text row gapped =>
    obtain ⟨t, ts, rfl, rfl, rfl⟩ := List.map_eq_cons_iff.1 texts
    obtain ⟨behind, found⟩ := walk_stands (stand t List.mem_cons_self) p gapped.separated
    obtain ⟨us, p', walked, same⟩ :=
      walk_gappedTexts (fun u member => stand u (List.mem_cons_of_mem t member)) gapped behind
    refine ⟨⟨t.kind, t.text, p⟩ :: us, p', ?_, ?_⟩
    · rw [found, walked]
      rfl
    · rw [List.map_cons, List.map_cons, same]
      rfl

end Scan

/-! ## Sources -/

/-- A layout of the texts of a source's tokens is scanned to tokens that are spelled alike. -/
theorem tokensOf_layout {source other : String} {ts : List Token} (h : tokensOf source = .ok ts)
    (laid : Layout ((tokensBeforeEnd ts).map Token.text) other.toList) :
    ∃ us, tokensOf other = .ok us ∧ us.map Token.spelling = ts.map Token.spelling := by
  have stand : ∀ t ∈ tokensBeforeEnd ts, t.Stands := by
    intro t member
    have scan := tokensOf_eq_ok_iff.1 h
    have inScan : t ∈ (Scan.ofText source).tokens := by
      rw [scan]
      exact List.takeWhile_subset _ member
    have notEnd := List.mem_takeWhile_imp member
    exact Scan.stands_of_mem_walk inScan (by simpa using notEnd)
  obtain ⟨us, p', walked, same⟩ := Scan.walk_layout stand laid .start
  obtain ⟨p, ends⟩ := tokensOf_ends h
  refine ⟨us ++ [⟨.endOfInput, "", ⟨p'.line, 0⟩⟩], ?_, ?_⟩
  · exact tokensOf_eq_ok_iff.2 walked
  · rw [ends, List.map_append, List.map_append, same]
    rfl

end ToraCompiler
