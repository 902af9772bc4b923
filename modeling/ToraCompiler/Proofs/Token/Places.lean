import ToraCompiler.Proofs.Token.Bookkeeping

/-!
# Places of tokens

A walk over a source carries a place along and moves it character by character.  What the place means is said
apart from the walk, by what is counted in the characters before it (`Position.behind`), and moving over a character
is the same as counting it in (`Position.behind_concat`), also inside a piece that holds line ends of its own.

So every token stands in the source at the place that it gives, and so does the character at which a scan stops
(`Scan.ofText_placed`).  The same places come out of the octets that a lexer keeps (`Lexer.scan?_start`).
-/

namespace ToraCompiler

namespace Position

/-- The order of places: by the line, and on one line by the column. -/
def Precedes (p q : Position) : Prop :=
  p.line < q.line ∨ p.line = q.line ∧ p.column < q.column

theorem Precedes.trans {p q r : Position} (first : p.Precedes q) (second : q.Precedes r) : p.Precedes r := by
  unfold Precedes at *
  omega

theorem precedes_after (p : Position) (c : Char) : p.Precedes (p.after c) := by
  unfold Precedes after
  split
  · exact .inl (Nat.lt_succ_self _)
  · exact .inr ⟨rfl, Nat.lt_succ_self _⟩

/-- More characters lead to a later place. -/
theorem behind_precedes (before : List Char) (c : Char) (cs : List Char) :
    (behind before).Precedes (behind (before ++ c :: cs)) := by
  have step : ∀ (cs : List Char) (d : Char), (behind cs).Precedes (behind (cs ++ [d])) := by
    intro cs d
    rw [behind_concat]
    exact precedes_after _ d
  induction cs generalizing before c with
  | nil => exact step before c
  | cons d cs ih =>
    have further := ih (before ++ [c]) d
    rw [List.append_assoc, List.singleton_append] at further
    exact (step before c).trans further

end Position

namespace Scan

/-- Tokens of a source that stand behind `before`, in order, each where it says. -/
structure Placed (source before : List Char) (ts : List Token) : Prop where
  notEnds : ∀ t ∈ ts, t.kind ≠ .endOfInput
  stand : ∀ t ∈ ts, ∃ skipped later, source = before ++ (skipped ++ (t.text.toList ++ later)) ∧
    t.position = .behind (before ++ skipped)
  ordered : ts.Pairwise fun t u => t.position.Precedes u.position

/-- How a scan with these tokens ends: with an end on the last line of the source, or with a fault at the place of
its character. -/
inductive Stops (source : List Char) (ts : List Token) : Scan → Prop
  | finished : Stops source ts ((finish (.behind source)).behind ts)
  | stopped {before later : List Char} {c : Char} :
    source = before ++ c :: later → Stops source ts ⟨ts, some (.ofChar c, .behind before)⟩

variable {source before : List Char} {ts : List Token}

theorem Placed.nil : Placed source before [] :=
  ⟨nofun, nofun, .nil⟩

/-- What stands behind one more character stands behind the others. -/
theorem Placed.earlier {c : Char} (placed : Placed source (before ++ [c]) ts) : Placed source before ts := by
  refine ⟨placed.notEnds, fun t member => ?_, placed.ordered⟩
  obtain ⟨skipped, later, split, place⟩ := placed.stand t member
  refine ⟨c :: skipped, later, ?_, ?_⟩
  · rw [split, List.append_assoc]
    rfl
  · rw [place, List.append_assoc]
    rfl

/-- A token with those that stand behind its first character. -/
theorem Placed.cons {c : Char} {t : Token} {later : List Char} (placed : Placed source (before ++ [c]) ts)
    (notEnd : t.kind ≠ .endOfInput) (split : source = before ++ (t.text.toList ++ later))
    (place : t.position = .behind before) : Placed source before (t :: ts) := by
  have others := placed.earlier
  refine ⟨List.forall_mem_cons.2 ⟨notEnd, others.notEnds⟩,
    List.forall_mem_cons.2 ⟨⟨[], later, split, by rw [place, List.append_nil]⟩, others.stand⟩,
    List.pairwise_cons.2 ⟨fun u member => ?_, placed.ordered⟩⟩
  obtain ⟨skipped, -, -, laterPlace⟩ := placed.stand u member
  rw [place, laterPlace, List.append_assoc]
  exact Position.behind_precedes before c skipped

theorem Stops.cons {scan : Scan} (stops : Stops source ts scan) (t : Token) :
    Stops source (t :: ts) (scan.cons t) := by
  cases stops with
  | finished => exact .finished
  | stopped split => exact .stopped split

/-- A walk that starts behind `before` with the place there finds its tokens where they stand. -/
theorem walk_placed {cs : List Char} (split : source = before ++ cs) (pending : Nat) :
    ∃ ts, Placed source before ts ∧ Stops source ts (walk (.behind before) pending cs) := by
  induction cs generalizing before pending with
  | nil =>
    rw [List.append_nil] at split
    subst split
    exact ⟨[], .nil, .finished⟩
  | cons c cs ih =>
    have moved : source = before ++ [c] ++ cs := by rw [split, List.append_assoc, List.singleton_append]
    cases pending with
    | succ rest =>
      obtain ⟨ts, placed, stops⟩ := ih moved rest
      refine ⟨ts, placed.earlier, ?_⟩
      rwa [Position.behind_concat] at stops
    | zero =>
      simp only [walk]
      cases found : Piece.first? (c :: cs) with
      | none => exact ⟨[], .nil, .stopped split⟩
      | some piece =>
        obtain ⟨ts, placed, stops⟩ := ih moved (piece.text.length - 1)
        rw [Position.behind_concat] at stops
        dsimp only
        cases isKind : piece.kind with
        | none => exact ⟨ts, placed.earlier, stops⟩
        | some kind =>
          obtain ⟨later, text⟩ := Piece.text_begins found
          have notEnd := (Piece.wellSpelled_of_first? found isKind (.behind before)).2
          have stands : source = before ++ ((String.ofList piece.text).toList ++ later) := by
            rw [split, ← text, String.toList_ofList]
          have more : Placed source before (⟨kind, String.ofList piece.text, .behind before⟩ :: ts) :=
            placed.cons notEnd stands rfl
          exact ⟨_, more, stops.cons _⟩

end Scan

/-- Every token of a source but its end stands in the source at its place, and the places go up from token to
token.  The end is on the last line, in front of its first column.  A source that is refused is refused for the
character at the place that is told.  A lexer that keeps octets gives the same tokens and places, and looks at
nothing outside of the source. -/
theorem Scan.ofText_placed (source : String) :
    Lexer.start.scan? source = some (Scan.ofText source) ∧
    ∃ ts : List Token, (∀ t ∈ ts, t.kind ≠ .endOfInput) ∧
      (∀ t ∈ ts, ∃ before later, source.toList = before ++ (t.text.toList ++ later) ∧
        t.position = .behind before) ∧
      (ts.Pairwise fun t u => t.position.Precedes u.position) ∧
      (tokensOf source = .ok (ts ++ [⟨.endOfInput, "", ⟨1 + source.toList.count '\n', 0⟩⟩]) ∨
        ∃ before c later, (Scan.ofText source).tokens = ts ∧ source.toList = before ++ c :: later ∧
          tokensOf source = .error (Diagnostic.located
            { stage := .lexical, message := (ScanFault.ofChar c).message } (.behind before))) := by
  have split : source.toList = [] ++ source.toList := rfl
  have start : Position.behind [] = .start := rfl
  obtain ⟨ts, placed, stops⟩ := walk_placed split 0
  rw [start] at stops
  refine ⟨Lexer.scan?_start source, ts, placed.notEnds, fun t member => ?_, placed.ordered, ?_⟩
  · obtain ⟨skipped, later, split, place⟩ := placed.stand t member
    exact ⟨skipped, later, split, place⟩
  · unfold tokensOf ofText
    generalize walk .start 0 source.toList = scan at stops ⊢
    cases stops with
    | finished => exact .inl rfl
    | stopped split => exact .inr ⟨_, _, _, rfl, split, rfl⟩

/-- A string over two lines, with a letter of two octets on the second one, and a name behind it. -/
example : (Scan.ofText "\"a\nä\" x").tokens.map Token.position = [⟨1, 1⟩, ⟨2, 4⟩, ⟨2, 0⟩] := by
  decide +kernel

end ToraCompiler
