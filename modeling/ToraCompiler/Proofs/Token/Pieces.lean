import Mathlib.Data.List.Find
import Mathlib.Data.List.TakeWhile
import ToraCompiler.Proofs.Token.Spelling
import ToraCompiler.Token.Scan

/-!
# The piece at the head of a text

Three facts about `Piece.first?`.  The piece is a beginning of the text, with one character at least; a
literal among the pieces is well spelled; and a line end behind a text changes nothing about the piece
at its head, since no piece but the line end itself goes over one unless it has its own end.
-/

namespace ToraCompiler.Piece

/-! ## A piece is a beginning -/

theorem numberText_begins (cs : List Char) : numberText cs <+: cs := by
  have whole : cs.takeWhile Char.isDigit <+: cs := List.takeWhile_prefix _
  have split := List.takeWhile_append_dropWhile (p := Char.isDigit) (l := cs)
  unfold numberText
  split
  · next rest behind =>
    dsimp only
    split
    · exact whole
    · refine ⟨rest.dropWhile Char.isDigit, ?_⟩
      rw [List.append_assoc, List.cons_append, List.takeWhile_append_dropWhile, ← behind, split]
  · exact whole

theorem stringTail?_begins {cs tail : List Char} (h : stringTail? cs = some tail) : tail <+: cs := by
  fun_induction stringTail? cs generalizing tail with
  | case1 => cases h
  | case2 cs =>
    obtain rfl := Option.some.inj h
    exact ⟨cs, rfl⟩
  | case3 => cases h
  | case4 => cases h
  | case5 d ds _ _ ih =>
    obtain ⟨inner, found, rfl⟩ := Option.map_eq_some_iff.1 h
    obtain ⟨rest, rfl⟩ := ih found
    exact ⟨rest, rfl⟩
  | case6 c cs _ _ ih =>
    obtain ⟨inner, found, rfl⟩ := Option.map_eq_some_iff.1 h
    obtain ⟨rest, rfl⟩ := ih found
    exact ⟨rest, rfl⟩

theorem mark?_eq_some {cs : List Char} {piece : Piece} (h : mark? cs = some piece) :
    ∃ mark ∈ marks, mark.1 <+: cs ∧ piece = ⟨some mark.2, mark.1⟩ := by
  obtain ⟨mark, found, rfl⟩ := Option.map_eq_some_iff.1 h
  have fits := List.find?_some found
  exact ⟨mark, List.mem_of_find?_eq_some found, List.isPrefixOf_iff_prefix.1 fits, rfl⟩

/-- A piece is a beginning of the text at whose head it stands. -/
theorem text_begins {cs : List Char} {piece : Piece} (h : first? cs = some piece) :
    piece.text <+: cs := by
  cases cs with
  | nil => cases h
  | cons c cs =>
    -- Every piece but an unsigned number and a mark is the first character and a beginning of the rest.
    have startsWith : ∀ {ds : List Char}, ds <+: cs → c :: ds <+: c :: cs := fun h =>
      (List.prefix_cons_inj c).2 h
    simp only [first?] at h
    split_ifs at h
    · obtain rfl := Option.some.inj h
      exact startsWith (List.takeWhile_prefix _)
    · obtain rfl := Option.some.inj h
      exact numberText_begins _
    · obtain rfl := Option.some.inj h
      exact startsWith (numberText_begins _)
    · obtain ⟨tail, found, rfl⟩ := Option.map_eq_some_iff.1 h
      exact startsWith (stringTail?_begins found)
    · obtain rfl := Option.some.inj h
      exact startsWith (List.takeWhile_prefix _)
    · obtain rfl := Option.some.inj h
      exact startsWith (List.nil_prefix)
    · obtain rfl := Option.some.inj h
      exact startsWith (List.takeWhile_prefix _)
    · obtain ⟨mark, -, fits, rfl⟩ := mark?_eq_some h
      exact fits

/-! ## Literals are well spelled -/

theorem numberText_magnitude {cs : List Char} (starts : cs.head?.any Char.isDigit) :
    IsMagnitude (numberText cs) := by
  have digits : ∀ ds : List Char, ∀ c ∈ ds.takeWhile Char.isDigit, c.isDigit := fun ds c member =>
    List.mem_takeWhile_imp member
  have whole : IsDigits (cs.takeWhile Char.isDigit) := by
    refine ⟨?_, digits cs⟩
    cases cs with
    | nil => cases starts
    | cons c cs =>
      have isDigit : c.isDigit = true := starts
      simp [isDigit]
  unfold numberText
  split
  · next rest _ =>
    dsimp only
    split
    · exact .inl whole
    · next nonempty => exact .inr ⟨_, _, whole, ⟨nonempty, digits rest⟩, rfl⟩
  · exact .inl whole

theorem stringTail?_ends {cs tail : List Char} (h : stringTail? cs = some tail) :
    ∃ body, tail = body ++ ['"'] := by
  fun_induction stringTail? cs generalizing tail with
  | case1 => cases h
  | case2 cs =>
    obtain rfl := Option.some.inj h
    exact ⟨[], rfl⟩
  | case3 => cases h
  | case4 => cases h
  | case5 d ds _ _ ih =>
    obtain ⟨inner, found, rfl⟩ := Option.map_eq_some_iff.1 h
    obtain ⟨body, rfl⟩ := ih found
    exact ⟨'\\' :: d :: body, rfl⟩
  | case6 c cs _ _ ih =>
    obtain ⟨inner, found, rfl⟩ := Option.map_eq_some_iff.1 h
    obtain ⟨body, rfl⟩ := ih found
    exact ⟨c :: body, rfl⟩

/-- The kinds of literals, and the one kind that is never a piece. -/
def LiteralOrEnd (kind : Kind) : Prop :=
  kind = .number ∨ kind = .string ∨ kind = .endOfInput

instance (kind : Kind) : Decidable (LiteralOrEnd kind) :=
  inferInstanceAs (Decidable (_ ∨ _))

theorem word_notLiteral (text : List Char) :
    ∃ kind, (word text).kind = some kind ∧ ¬ LiteralOrEnd kind := by
  refine ⟨_, rfl, ?_⟩
  have keyword : ∀ entry ∈ keywords, ¬ LiteralOrEnd entry.2 := by decide
  cases found : keywords.lookup (String.ofList text) with
  | none => decide
  | some kind =>
    obtain ⟨before, after, split, -⟩ := List.lookup_eq_some_iff.1 found
    exact keyword (String.ofList text, kind) (by rw [split]; simp)

/-- What a piece makes a token of is well spelled, and no end of the source. -/
theorem wellSpelled_of_first? {cs : List Char} {piece : Piece} {kind : Kind}
    (h : first? cs = some piece) (isKind : piece.kind = some kind) (p : Position) :
    (⟨kind, String.ofList piece.text, p⟩ : Token).WellSpelled ∧ kind ≠ .endOfInput := by
  have plain : ¬ LiteralOrEnd kind →
      (⟨kind, String.ofList piece.text, p⟩ : Token).WellSpelled ∧ kind ≠ .endOfInput := by
    intro notLiteral
    simp only [LiteralOrEnd, not_or] at notLiteral
    exact ⟨⟨fun h => (notLiteral.1 h).elim, fun h => (notLiteral.2.1 h).elim⟩, notLiteral.2.2⟩
  cases cs with
  | nil => cases h
  | cons c cs =>
    simp only [first?] at h
    split_ifs at h with _ digit minus
    · obtain rfl := Option.some.inj h
      obtain ⟨kind', isKind', notLiteral⟩ := word_notLiteral (c :: cs.takeWhile isWordPart)
      rw [isKind'] at isKind
      obtain rfl := Option.some.inj isKind
      exact plain notLiteral
    · obtain rfl := Option.some.inj h
      obtain rfl := Option.some.inj isKind
      refine ⟨⟨fun _ => ?_, nofun⟩, nofun⟩
      rw [String.toList_ofList]
      exact .inl (numberText_magnitude (by simpa using digit))
    · obtain rfl := Option.some.inj h
      obtain rfl := Option.some.inj isKind
      refine ⟨⟨fun _ => ?_, nofun⟩, nofun⟩
      rw [String.toList_ofList, minus.1]
      exact .inr ⟨_, numberText_magnitude minus.2, rfl⟩
    · obtain ⟨tail, found, rfl⟩ := Option.map_eq_some_iff.1 h
      obtain rfl := Option.some.inj isKind
      obtain ⟨body, rfl⟩ := stringTail?_ends found
      refine ⟨⟨nofun, fun _ => ?_⟩, nofun⟩
      rw [String.toList_ofList, ‹c = '"'›]
      exact ⟨body, rfl⟩
    · obtain rfl := Option.some.inj h
      cases isKind
    · obtain rfl := Option.some.inj h
      cases isKind
    · obtain rfl := Option.some.inj h
      cases isKind
    · have ofMark : ∀ mark ∈ marks, ¬ LiteralOrEnd mark.2 := by decide
      obtain ⟨mark, member, -, rfl⟩ := mark?_eq_some h
      obtain rfl := Option.some.inj isKind
      exact plain (ofMark mark member)

/-! ## A line end behind a text -/

section LineEnd

variable (cs ds : List Char)

theorem takeWhile_append_stop {continues : Char → Bool} {stop : Char}
    (stops : continues stop = false) :
    (cs ++ stop :: ds).takeWhile continues = cs.takeWhile continues := by
  induction cs with
  | nil => simp [stops]
  | cons c cs ih =>
    rw [List.cons_append, List.takeWhile_cons, List.takeWhile_cons, ih]

theorem dropWhile_append_stop {continues : Char → Bool} {stop : Char}
    (stops : continues stop = false) :
    (cs ++ stop :: ds).dropWhile continues = cs.dropWhile continues ++ stop :: ds := by
  induction cs with
  | nil => simp [stops]
  | cons c cs ih =>
    rw [List.cons_append, List.dropWhile_cons, List.dropWhile_cons, ih]
    split <;> rfl

theorem isPrefixOf_append_stop {mark : List Char} {stop : Char} (notIn : stop ∉ mark) :
    mark.isPrefixOf (cs ++ stop :: ds) = mark.isPrefixOf cs := by
  induction mark generalizing cs with
  | nil => simp
  | cons c mark ih =>
    simp only [List.mem_cons, not_or] at notIn
    cases cs with
    | nil => simp [List.isPrefixOf, Ne.symm notIn.1]
    | cons d cs => simp only [List.cons_append, List.isPrefixOf, ih cs notIn.2]

theorem numberText_append_newline : numberText (cs ++ '\n' :: ds) = numberText cs := by
  unfold numberText
  rw [takeWhile_append_stop cs ds (by decide), dropWhile_append_stop cs ds (by decide)]
  cases cs.dropWhile Char.isDigit with
  | nil => rfl
  | cons c rest =>
    by_cases point : c = '.'
    · subst point
      simp only [List.cons_append]
      rw [takeWhile_append_stop rest ds (by decide)]
    · rw [List.cons_append]
      split
      · next h => exact (point (List.cons.inj h).1).elim
      · split
        · next h => exact (point (List.cons.inj h).1).elim
        · rfl

theorem stringTail?_quote : stringTail? ('"' :: cs) = some ['"'] := by
  cases cs <;> rfl

theorem stringTail?_plain {c : Char} (notQuote : c ≠ '"') (notSlash : c ≠ '\\') :
    stringTail? (c :: cs) = (stringTail? cs).map (c :: ·) := by
  rw [stringTail?.eq_def]
  simp only [if_neg notQuote, if_neg notSlash]

theorem stringTail?_append {cs tail : List Char} (h : stringTail? cs = some tail) :
    stringTail? (cs ++ ds) = some tail := by
  fun_induction stringTail? cs generalizing tail with
  | case1 => cases h
  | case2 cs => rwa [List.cons_append, stringTail?_quote]
  | case3 => cases h
  | case4 => cases h
  | case5 d rest notEnd _ ih =>
    obtain ⟨inner, found, rfl⟩ := Option.map_eq_some_iff.1 h
    simp [stringTail?, notEnd, ih found]
  | case6 c cs notQuote notSlash ih =>
    obtain ⟨inner, found, rfl⟩ := Option.map_eq_some_iff.1 h
    rw [List.cons_append, stringTail?_plain _ notQuote notSlash, ih found]
    rfl

theorem mark?_append_newline : mark? (cs ++ '\n' :: ds) = mark? cs := by
  have noNewline : ∀ mark ∈ marks, '\n' ∉ mark.1 := by decide
  have sameTest : ∀ mark ∈ marks,
      mark.1.isPrefixOf (cs ++ '\n' :: ds) = mark.1.isPrefixOf cs := fun mark member =>
    isPrefixOf_append_stop cs ds (noNewline mark member)
  unfold mark?
  rw [List.find?_congr sameTest]

end LineEnd

/-- A line end behind a text does not change the piece at its head. -/
theorem first?_append_newline {cs : List Char} {piece : Piece} (h : first? cs = some piece)
    (ds : List Char) : first? (cs ++ '\n' :: ds) = some piece := by
  cases cs with
  | nil => cases h
  | cons c cs =>
    have head : ∀ test : Char → Bool, test '\n' = false →
        (cs ++ '\n' :: ds).head?.any test = cs.head?.any test := by
      intro test fails
      cases cs with
      | nil => simp [fails]
      | cons d cs => rfl
    have slash : (cs ++ '\n' :: ds).head? = some '/' ↔ cs.head? = some '/' := by
      cases cs with
      | nil => simp
      | cons d cs => simp
    rw [← h, List.cons_append]
    simp only [first?, head Char.isDigit (by decide), slash]
    rw [takeWhile_append_stop cs ds (by decide), takeWhile_append_stop cs ds (by decide),
      takeWhile_append_stop cs ds (by decide), numberText_append_newline cs ds,
      ← List.cons_append, numberText_append_newline (c :: cs) ds, mark?_append_newline (c :: cs) ds]
    -- A string is the only piece whose end has to be found: here the text has it already.
    split_ifs with isWord isDigit isMinus isQuote
    all_goals first
      | rfl
      | skip
    simp only [first?, if_neg isWord, if_neg isDigit, if_neg isMinus, if_pos isQuote] at h
    obtain ⟨tail, found, rfl⟩ := Option.map_eq_some_iff.1 h
    rw [stringTail?_append _ found, found]

end ToraCompiler.Piece
