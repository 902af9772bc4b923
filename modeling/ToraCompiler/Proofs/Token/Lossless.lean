import ToraCompiler.Proofs.Token.Lexemes

/-!
# Nothing of a source is lost

A source is its tokens with gaps between them.  `Cut` says so for the part of a source in front of the place
where the scan stops: it goes through the characters in order, so none of them is dropped, taken twice or moved.
A token in it is the longest lexeme at its place (`Token.Taken`), and a gap holds blanks, line ends and
comments only, each comment as far as its line goes (`GapBefore`).

Every source is cut that way up to its end or up to the character that is reported, and that character is
reported for a reason that can be seen in the source (`tokensOf_lossless`).
-/

namespace ToraCompiler

/-- The kinds of words: identifiers and keywords. -/
def Kind.IsWord (kind : Kind) : Prop :=
  kind = .identifier ∨ ∃ word, (word, kind) ∈ keywords

/-- The token is what stands in front of `later`: the longest lexeme there, with a keyword before an identifier
of the same letters. -/
structure Token.Taken (t : Token) (later : List Char) : Prop where
  lexeme : Lexeme (some t.kind) t.text.toList
  longest : ∀ kind text, Lexeme kind text → text <+: t.text.toList ++ later →
    text.length ≤ t.text.toList.length
  keyword : ∀ word kind, (word, kind) ∈ keywords → (t.kind = kind ↔ t.text = word)
  wordEnds : t.kind.IsWord → ∀ c ∈ later.head?, isWordPart c = false
  numberEnds : t.kind = .number → ∀ c ∈ later.head?, c.isDigit = false

/-- Blanks, line ends and comments in front of `rest`.  A comment goes up to the next line end, or to the end
of the source, and not over it. -/
inductive GapBefore (rest : List Char) : List Char → Prop
  | nil : GapBefore rest []
  | separator {c : Char} {gap : List Char} :
    isSeparator c → GapBefore rest gap → GapBefore rest (c :: gap)
  | comment {body gap : List Char} :
    '\n' ∉ body → (∀ c ∈ (gap ++ rest).head?, c = '\n') → GapBefore rest gap →
    GapBefore rest ('/' :: '/' :: (body ++ gap))

/-- The characters are these tokens with gaps before them, then a gap, then `rest`. -/
inductive Cut : List Char → List Token → List Char → Prop
  | stop {gap rest : List Char} : GapBefore rest gap → Cut (gap ++ rest) [] rest
  | token {gap later rest : List Char} {t : Token} {ts : List Token} :
    GapBefore (t.text.toList ++ later) gap → t.Taken later → Cut later ts rest →
    Cut (gap ++ (t.text.toList ++ later)) (t :: ts) rest

/-- The character is reported in these words, with `later` behind it. -/
inductive Reported : String → Char → List Char → Prop
  | unterminated {later : List Char} :
    Unterminated later → Reported "Unterminated string literal" '"' later
  | unexpected {c : Char} {later : List Char} :
    c ≠ '"' → (∀ kind text, Lexeme kind text → ¬ text <+: c :: later) →
    Reported ("Unexpected character '" ++ String.singleton c ++ "'") c later

/-! ## Gaps in front of a cut -/

/-- A character behind the longest lexeme makes no longer one. -/
theorem Piece.not_lexeme_of_first? {text later : List Char} {kind other : Option Kind} {c : Char}
    (found : first? (text ++ later) = some ⟨kind, text⟩) (next : c ∈ later.head?) :
    ¬ Lexeme other (text ++ [c]) := by
  intro longer
  cases later with
  | nil => cases next
  | cons d later =>
    obtain rfl := Option.some.inj next
    have begins : text ++ [d] <+: text ++ d :: later := ⟨later, by simp⟩
    have bound := length_le_of_first? found longer begins
    rw [List.length_append, List.length_singleton] at bound
    exact absurd bound (Nat.not_succ_le_self _)

namespace Cut

theorem separator {c : Char} {cs rest : List Char} {ts : List Token} (h : isSeparator c)
    (cut : Cut cs ts rest) : Cut (c :: cs) ts rest := by
  cases cut with
  | stop gap => exact .stop (.separator h gap)
  | token gap taken later => exact .token (.separator h gap) taken later

theorem separators {blanks cs rest : List Char} {ts : List Token} (all : ∀ c ∈ blanks, isSeparator c)
    (cut : Cut cs ts rest) : Cut (blanks ++ cs) ts rest := by
  induction blanks with
  | nil => exact cut
  | cons c blanks ih =>
    have others := ih fun d member => all d (List.mem_cons_of_mem c member)
    exact others.separator (all c List.mem_cons_self)

theorem comment {body cs rest : List Char} {ts : List Token} (noLineEnd : '\n' ∉ body)
    (behind : ∀ c ∈ cs.head?, c = '\n') (cut : Cut cs ts rest) :
    Cut ('/' :: '/' :: (body ++ cs)) ts rest := by
  cases cut with
  | stop gap =>
    rw [← List.append_assoc]
    exact .stop (.comment noLineEnd behind gap)
  | token gap taken later =>
    rw [← List.append_assoc]
    exact .token (.comment noLineEnd behind gap) taken later

/-- A gap that is found in front of a cut belongs to it.  A comment that is found goes as far as its line,
since it would not be the longest lexeme otherwise. -/
theorem gap {text cs rest : List Char} {ts : List Token}
    (found : Piece.first? (text ++ cs) = some ⟨none, text⟩) (cut : Cut cs ts rest) :
    Cut (text ++ cs) ts rest := by
  have lexeme := Piece.lexeme_of_first? found
  cases lexeme with
  | @comment body noLineEnd =>
    refine cut.comment noLineEnd fun c next => ?_
    by_contra other
    have longer : '\n' ∉ body ++ [c] := by
      intro member
      rcases List.mem_append.1 member with inBody | last
      · exact noLineEnd inBody
      · exact other (List.mem_singleton.1 last).symm
    exact Piece.not_lexeme_of_first? found next (Lexeme.comment longer)
  | spacing all =>
    refine cut.separators fun c member => ?_
    rw [isSeparator, all c member]
    rfl
  | newline => exact cut.separator (by decide)

end Cut

/-! ## Tokens are taken -/

theorem Lexeme.ne_nil {kind : Option Kind} {text : List Char} (h : Lexeme kind text) : text ≠ [] := by
  have keywordLetters : ∀ entry ∈ keywords, entry.1.toList ≠ [] := by decide
  cases h with
  | keyword member => exact keywordLetters _ member
  | identifier => exact List.cons_ne_nil _ _
  | number numeral =>
    rcases numeral with magnitude | ⟨magnitude, -, rfl⟩
    · obtain ⟨c, ds, rfl, -⟩ := magnitude.starts
      exact List.cons_ne_nil _ _
    · exact List.cons_ne_nil _ _
  | string => exact List.cons_ne_nil _ _
  | mark member =>
    obtain ⟨c, ds, letters, -⟩ := Piece.marks_start _ member
    exact fun empty => List.cons_ne_nil c ds (letters.symm.trans empty)
  | comment => exact List.cons_ne_nil _ _
  | spacing => exact List.cons_ne_nil _ _
  | newline => exact List.cons_ne_nil _ _

/-- A digit behind a magnitude makes a longer one. -/
theorem IsMagnitude.concat {cs : List Char} {d : Char} (h : IsMagnitude cs) (digit : d.isDigit) :
    IsMagnitude (cs ++ [d]) := by
  have more : ∀ {ds : List Char}, IsDigits ds → IsDigits (ds ++ [d]) := by
    intro ds digits
    refine ⟨by simp, fun c member => ?_⟩
    rcases List.mem_append.1 member with inDigits | last
    · exact digits.2 c inDigits
    · rwa [List.mem_singleton.1 last]
  rcases h with digits | ⟨whole, fraction, wholeDigits, fractionDigits, rfl⟩
  · exact .inl (more digits)
  · exact .inr ⟨whole, fraction ++ [d], wholeDigits, more fractionDigits, by simp⟩

theorem IsNumeral.concat {cs : List Char} {d : Char} (h : IsNumeral cs) (digit : d.isDigit) :
    IsNumeral (cs ++ [d]) := by
  rcases h with magnitude | ⟨magnitude, isMagnitude, rfl⟩
  · exact .inl (magnitude.concat digit)
  · exact .inr ⟨magnitude ++ [d], isMagnitude.concat digit, rfl⟩

/-- A lexeme of the kind of a word is a word. -/
theorem Lexeme.word {kind : Kind} {text : List Char} (h : Lexeme (some kind) text) (isWord : kind.IsWord) :
    ∃ c cs, text = c :: cs ∧ isWordStart c ∧ ∀ d ∈ cs, isWordPart d := by
  have letters : ∀ entry ∈ keywords, entry.1.toList.head?.any isWordStart = true ∧
      entry.1.toList.tail.all isWordPart = true := by decide
  have notLiteral : ∀ entry ∈ keywords, entry.2 ≠ .number ∧ entry.2 ≠ .string := by decide
  have notMark : ∀ mark ∈ marks, mark.2 ≠ .identifier ∧ ∀ entry ∈ keywords, entry.2 ≠ mark.2 := by decide
  cases h with
  | @keyword word _ member =>
    obtain ⟨start, parts⟩ := letters _ member
    cases split : word.toList with
    | nil =>
      rw [split] at start
      cases start
    | cons c cs =>
      rw [split] at start parts
      exact ⟨c, cs, rfl, start, List.all_eq_true.1 parts⟩
  | identifier start parts => exact ⟨_, _, rfl, start, parts⟩
  | number =>
    rcases isWord with same | ⟨word, member⟩
    · cases same
    · exact ((notLiteral _ member).1 rfl).elim
  | string =>
    rcases isWord with same | ⟨word, member⟩
    · cases same
    · exact ((notLiteral _ member).2 rfl).elim
  | mark isMark =>
    rcases isWord with same | ⟨word, member⟩
    · exact ((notMark _ isMark).1 same).elim
    · exact ((notMark _ isMark).2 _ member rfl).elim

/-- A piece that makes a token is taken. -/
theorem Token.taken_of_first? {text later : List Char} {kind : Kind} (p : Position)
    (found : Piece.first? (text ++ later) = some ⟨some kind, text⟩) :
    (⟨kind, String.ofList text, p⟩ : Token).Taken later := by
  have lexeme : Lexeme (some kind) text := Piece.lexeme_of_first? found
  refine ⟨?_, ?_, ?_, ?_, ?_⟩
  · rwa [String.toList_ofList]
  · intro other longer isLexeme begins
    rw [String.toList_ofList] at begins ⊢
    exact Piece.length_le_of_first? found isLexeme begins
  · intro word other member
    have spelled := Piece.kind_eq_keyword_iff found member
    rw [Option.some.injEq] at spelled
    rw [spelled, ← String.toList_inj, String.toList_ofList]
  · intro isWord c next
    cases part : isWordPart c with
    | false => rfl
    | true =>
      obtain ⟨d, ds, rfl, start, parts⟩ := lexeme.word isWord
      refine (Piece.not_lexeme_of_first? found next (Lexeme.identifier start fun e member => ?_)).elim
      rcases List.mem_append.1 member with inWord | last
      · exact parts e inWord
      · rwa [List.mem_singleton.1 last]
  · intro isNumber c next
    obtain rfl : kind = .number := isNumber
    cases digit : c.isDigit with
    | false => rfl
    | true =>
      exact (Piece.not_lexeme_of_first? found next (Lexeme.number (lexeme.numeral.concat digit))).elim

/-! ## Walks -/

/-- A character at which nothing is found is reported for a reason. -/
theorem reported_of_first? {c : Char} {cs : List Char} (nothing : Piece.first? (c :: cs) = none) :
    Reported (ScanFault.ofChar c).message c cs := by
  by_cases quote : c = '"'
  · subst quote
    have plain : isWordStart '"' = false ∧ '"'.isDigit = false ∧ '"' ≠ '-' := by decide
    simp only [Piece.first?, plain, false_and, Bool.false_eq_true, if_false, if_true,
      Option.map_eq_none_iff] at nothing
    exact .unterminated (Piece.unterminated_of_stringTail? nothing)
  · rw [ScanFault.ofChar, if_neg quote]
    refine .unexpected quote fun kind text lexeme begins => ?_
    obtain ⟨piece, found, -⟩ := Piece.exists_first?_of_lexeme lexeme begins
    rw [nothing] at found
    cases found

namespace Scan

/-- How a walk over these characters ends, apart from the tokens it makes: at the end of the characters, or at
one of them that is reported. -/
inductive Ends (p : Position) (cs : List Char) (ts : List Token) (rest : List Char) : Scan → Prop
  | finished (p' : Position) : rest = [] → Ends p cs ts rest ((finish p').behind ts)
  | stopped {consumed later : List Char} {c : Char} (fault : ScanFault) :
    rest = c :: later → cs = consumed ++ rest → Reported fault.message c later →
    Ends p cs ts rest ⟨ts, some (fault, consumed.foldl Position.after p)⟩

theorem Ends.behind {p : Position} {text cs rest : List Char} {ts : List Token} {scan : Scan}
    (ends : Ends (text.foldl Position.after p) cs ts rest scan) (us : List Token) :
    Ends p (text ++ cs) (us ++ ts) rest (scan.behind us) := by
  cases ends with
  | finished p' empty =>
    have row : (finish p').behind (us ++ ts) = ((finish p').behind ts).behind us := by
      simp [Scan.behind]
    rw [← row]
    exact .finished p' empty
  | @stopped consumed later c fault isRest split reported =>
    have place : (text ++ consumed).foldl Position.after p =
        consumed.foldl Position.after (text.foldl Position.after p) := List.foldl_append
    have ends : Ends p (text ++ cs) (us ++ ts) rest
        ⟨us ++ ts, some (fault, (text ++ consumed).foldl Position.after p)⟩ :=
      .stopped fault isRest (by rw [split, List.append_assoc]) reported
    rwa [place] at ends

/-- A walk cuts the characters, up to the place where it ends. -/
theorem walk_lossless (p : Position) (cs : List Char) :
    ∃ ts rest, Cut cs ts rest ∧ Ends p cs ts rest (walk p 0 cs) := by
  -- One piece after another: what follows a piece is shorter, because a piece has a character.
  induction length : cs.length using Nat.strong_induction_on generalizing p cs with
  | _ n ih =>
    cases cs with
    | nil => exact ⟨[], [], .stop .nil, .finished p rfl⟩
    | cons c cs =>
      cases found : Piece.first? (c :: cs) with
      | none =>
        refine ⟨[], c :: cs, .stop .nil, ?_⟩
        simp only [walk, found]
        exact .stopped _ rfl (List.nil_append _).symm (reported_of_first? found)
      | some piece =>
        rcases piece with ⟨kind, text⟩
        have nonempty : text ≠ [] := (Piece.lexeme_of_first? found).ne_nil
        obtain ⟨later, split⟩ : text <+: c :: cs := Piece.text_begins found
        rw [← split] at found length ⊢
        have shorter : later.length < n := by
          have positive := List.length_pos_iff.2 nonempty
          rw [List.length_append] at length
          omega
        obtain ⟨ts, rest, cut, ends⟩ := ih _ shorter (text.foldl Position.after p) later rfl
        cases kind with
        | none =>
          refine ⟨ts, rest, cut.gap found, ?_⟩
          cases text with
          | nil => exact (nonempty rfl).elim
          | cons d text =>
            rw [List.cons_append] at found ⊢
            rw [walk_gap found]
            exact ends.behind []
        | some kind =>
          have taken := Token.taken_of_first? p found
          have cutToken := Cut.token .nil taken cut
          rw [String.toList_ofList, List.nil_append] at cutToken
          refine ⟨_, rest, cutToken, ?_⟩
          rw [walk_token nonempty found]
          exact ends.behind [_]

end Scan

/-- Every source is cut into its tokens and the gaps between them, up to its end or up to the character that is
reported.  So the tokens and the gaps make up the source, or what stands in front of that character; every token
is the longest lexeme where it stands; and the character is a quote that opens a string without an end, or one
at which no lexeme starts. -/
theorem tokensOf_lossless (source : String) :
    ∃ ts rest, Cut source.toList ts rest ∧
      ((rest = [] ∧ ∃ finish, tokensOf source = .ok (ts ++ [⟨.endOfInput, "", finish⟩])) ∨
        ∃ consumed c later message, rest = c :: later ∧ source.toList = consumed ++ rest ∧
          Reported message c later ∧ (Scan.ofText source).tokens = ts ∧
          tokensOf source = .error (Diagnostic.located { stage := .lexical, message }
            (consumed.foldl Position.after .start))) := by
  obtain ⟨ts, rest, cut, ends⟩ := Scan.walk_lossless .start source.toList
  refine ⟨ts, rest, cut, ?_⟩
  unfold tokensOf Scan.ofText
  generalize Scan.walk .start 0 source.toList = scan at ends ⊢
  cases ends with
  | finished p' empty => exact .inl ⟨empty, _, rfl⟩
  | stopped fault isRest split reported =>
    exact .inr ⟨_, _, _, fault.message, isRest, split, reported, rfl, rfl⟩

end ToraCompiler
