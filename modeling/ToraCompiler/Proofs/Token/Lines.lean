import ToraCompiler.Proofs.Token.Pieces

/-!
# Texts below each other

The tokens of a text with another one below it are those of the first without its end, and those of the
second as many lines further down (`tokensOf_append_newline`).  The walk over the first text ends where
the line end stands, because no piece of it goes further (`Scan.walk_append_newline`), and the walk over
the second one does not depend on the line where it starts (`Scan.walk_down`).
-/

namespace ToraCompiler

/-- The same column, `n` lines further down. -/
def Position.down (n : Nat) (p : Position) : Position where
  line := p.line + n
  column := p.column

theorem Position.down_after (n : Nat) (p : Position) (c : Char) :
    (p.down n).after c = (p.after c).down n := by
  unfold after down
  split
  · simp only [Nat.add_right_comm]
  · rfl

/-- The token at the place that `f` gives for its own. -/
def Token.moved (f : Position → Position) (t : Token) : Token :=
  { t with position := f t.position }

@[simp]
theorem Token.moved_kind (f : Position → Position) (t : Token) : (t.moved f).kind = t.kind := rfl

@[simp]
theorem Token.moved_text (f : Position → Position) (t : Token) : (t.moved f).text = t.text := rfl

/-- The tokens of a row up to its first end. -/
def tokensBeforeEnd (ts : List Token) : List Token :=
  ts.takeWhile (·.kind ≠ .endOfInput)

theorem tokensBeforeEnd_map_moved (f : Position → Position) (ts : List Token) :
    tokensBeforeEnd (ts.map (Token.moved f)) = (tokensBeforeEnd ts).map (Token.moved f) := by
  unfold tokensBeforeEnd
  rw [List.takeWhile_map]
  rfl

/-- The tokens before an end have no end among them. -/
theorem tokensBeforeEnd_append (ts us : List Token) :
    tokensBeforeEnd (tokensBeforeEnd ts ++ us) = tokensBeforeEnd ts ++ tokensBeforeEnd us := by
  refine List.takeWhile_append_of_pos fun t member => ?_
  have holds := List.mem_takeWhile_imp member
  exact holds

namespace Scan

/-- The scan with every place changed by `f`. -/
def moved (f : Position → Position) (s : Scan) : Scan where
  tokens := s.tokens.map (Token.moved f)
  fault := s.fault.map fun (fault, place) => (fault, f place)

/-- The scan with tokens in front. -/
def behind (ts : List Token) (s : Scan) : Scan :=
  { s with tokens := ts ++ s.tokens }

/-- The walk does not depend on the line where it starts. -/
theorem walk_down (n : Nat) (p : Position) (pending : Nat) (cs : List Char) :
    walk (p.down n) pending cs = (walk p pending cs).moved (Position.down n) := by
  induction cs generalizing p pending with
  | nil => rfl
  | cons c cs ih =>
    cases pending with
    | succ rest =>
      simp only [walk]
      rw [Position.down_after, ih]
    | zero =>
      simp only [walk]
      cases Piece.first? (c :: cs) with
      | none => rfl
      | some piece =>
        dsimp only
        rw [Position.down_after, ih]
        cases piece.kind with
        | none => rfl
        | some kind => rfl

/-- A walk over a text without a fault ends where the text does, so a line end and another text behind it
are walked over as if they stood alone. -/
theorem walk_append_newline {p : Position} {pending : Nat} {cs : List Char} (ds : List Char)
    (within : pending ≤ cs.length) (clean : (walk p pending cs).fault = none) :
    walk p pending (cs ++ '\n' :: ds) =
      (walk ⟨p.line + (cs.count '\n' + 1), 1⟩ 0 ds).behind
        (tokensBeforeEnd (walk p pending cs).tokens) := by
  induction cs generalizing p pending with
  | nil =>
    obtain rfl : pending = 0 := by simpa using within
    rfl
  | cons c cs ih =>
    have line : (p.after c).line + (cs.count '\n' + 1) = p.line + ((c :: cs).count '\n' + 1) := by
      rw [List.count_cons]
      unfold Position.after
      by_cases newline : c = '\n'
      · simp only [newline, if_true, beq_self_eq_true]
        omega
      · simp only [newline, if_false, beq_iff_eq]
    rw [List.length_cons] at within
    cases pending with
    | succ rest =>
      simp only [walk, List.cons_append] at clean ⊢
      rw [ih (by omega) clean, line]
    | zero =>
      rw [List.cons_append]
      simp only [walk] at clean ⊢
      cases found : Piece.first? (c :: cs) with
      | none =>
        rw [found] at clean
        cases clean
      | some piece =>
        -- The rest of the piece lies in the first text.
        obtain ⟨rest, split⟩ := Piece.text_begins found
        have inside : piece.text.length - 1 ≤ cs.length := by
          have length := congrArg List.length split
          rw [List.length_append, List.length_cons] at length
          omega
        have extended := Piece.first?_append_newline found ds
        rw [List.cons_append] at extended
        rw [found] at clean
        rw [extended]
        dsimp only at clean ⊢
        cases isKind : piece.kind with
        | none =>
          rw [isKind] at clean
          simp only at clean ⊢
          rw [ih inside clean, line]
        | some kind =>
          rw [isKind] at clean
          simp only at clean ⊢
          rw [ih inside clean, line]
          have notEnd := (Piece.wellSpelled_of_first? found isKind p).2
          simp [cons, behind, tokensBeforeEnd, notEnd]

/-- A walk without a fault makes one end, behind all other tokens. -/
theorem walk_eq_finish {p : Position} {pending : Nat} {cs : List Char}
    (clean : (walk p pending cs).fault = none) :
    ∃ us p', walk p pending cs = (finish p').behind us ∧ ∀ u ∈ us, u.kind ≠ .endOfInput := by
  induction cs generalizing p pending with
  | nil => exact ⟨[], p, rfl, by simp⟩
  | cons c cs ih =>
    cases pending with
    | succ rest => exact ih clean
    | zero =>
      simp only [walk] at clean ⊢
      cases found : Piece.first? (c :: cs) with
      | none =>
        rw [found] at clean
        cases clean
      | some piece =>
        rw [found] at clean
        dsimp only at clean ⊢
        cases isKind : piece.kind with
        | none =>
          rw [isKind] at clean
          exact ih clean
        | some kind =>
          rw [isKind] at clean
          obtain ⟨us, p', walked, notEnds⟩ := ih clean
          refine ⟨⟨kind, String.ofList piece.text, p⟩ :: us, p', ?_, ?_⟩
          · dsimp only
            rw [walked]
            rfl
          · have notEnd := (Piece.wellSpelled_of_first? found isKind p).2
            exact List.forall_mem_cons.2 ⟨notEnd, notEnds⟩

/-- The walk makes only well spelled tokens. -/
theorem wellSpelled_of_mem_walk {p : Position} {pending : Nat} {cs : List Char} {t : Token}
    (member : t ∈ (walk p pending cs).tokens) : t.WellSpelled := by
  induction cs generalizing p pending with
  | nil =>
    obtain rfl := List.mem_singleton.1 member
    exact ⟨nofun, nofun⟩
  | cons c cs ih =>
    cases pending with
    | succ rest => exact ih member
    | zero =>
      simp only [walk] at member
      cases found : Piece.first? (c :: cs) with
      | none =>
        rw [found] at member
        cases member
      | some piece =>
        rw [found] at member
        dsimp only at member
        cases isKind : piece.kind with
        | none =>
          rw [isKind] at member
          exact ih member
        | some kind =>
          rw [isKind] at member
          rcases List.mem_cons.1 member with rfl | later
          · exact (Piece.wellSpelled_of_first? found isKind p).1
          · exact ih later

end Scan

/-! ## Sources -/

theorem tokensOf_eq_ok_iff {source : String} {ts : List Token} :
    tokensOf source = .ok ts ↔ Scan.ofText source = ⟨ts, none⟩ := by
  unfold tokensOf Scan.diagnostic?
  rcases Scan.ofText source with ⟨tokens, _ | fault⟩
  · simp
  · simp

theorem wellSpelled_of_tokensOf {source : String} {ts : List Token} (h : tokensOf source = .ok ts) :
    ∀ t ∈ ts, t.WellSpelled := by
  intro t member
  have scan := tokensOf_eq_ok_iff.1 h
  have inScan : t ∈ (Scan.ofText source).tokens := by rwa [scan]
  exact Scan.wellSpelled_of_mem_walk inScan

/-- The tokens of a source are tokens before the end, and the end. -/
theorem tokensOf_ends {source : String} {ts : List Token} (h : tokensOf source = .ok ts) :
    ∃ p, ts = tokensBeforeEnd ts ++ [⟨.endOfInput, "", p⟩] := by
  have scan := tokensOf_eq_ok_iff.1 h
  have clean : (Scan.walk .start 0 source.toList).fault = none := congrArg Scan.fault scan
  obtain ⟨us, p', walked, notEnds⟩ := Scan.walk_eq_finish clean
  have tokens : ts = us ++ [⟨.endOfInput, "", ⟨p'.line, 0⟩⟩] :=
    (congrArg Scan.tokens scan).symm.trans (congrArg Scan.tokens walked)
  have before : tokensBeforeEnd ts = us := by
    unfold tokensBeforeEnd
    rw [tokens, List.takeWhile_append_of_pos (by simpa using notEnds)]
    simp
  exact ⟨_, by rw [before]; exact tokens⟩

/-- The number of lines that end in a text. -/
def lineEnds (text : String) : Nat :=
  text.toList.count '\n'

/-- The tokens of a text with another one below it. -/
theorem tokensOf_append_newline {upper lower : String} {ts us : List Token}
    (upperTokens : tokensOf upper = .ok ts) (lowerTokens : tokensOf lower = .ok us) :
    tokensOf (upper ++ "\n" ++ lower) =
      .ok (tokensBeforeEnd ts ++ us.map (Token.moved (Position.down (lineEnds upper + 1)))) := by
  rw [tokensOf_eq_ok_iff] at upperTokens lowerTokens ⊢
  have clean : (Scan.walk .start 0 upper.toList).fault = none := congrArg Scan.fault upperTokens
  have characters : (upper ++ "\n" ++ lower).toList = upper.toList ++ '\n' :: lower.toList := by
    simp
  have below : (⟨Position.start.line + (upper.toList.count '\n' + 1), 1⟩ : Position) =
      Position.start.down (lineEnds upper + 1) := rfl
  unfold Scan.ofText at upperTokens lowerTokens ⊢
  rw [characters, Scan.walk_append_newline _ (Nat.zero_le _) clean, below, Scan.walk_down,
    upperTokens, lowerTokens]
  rfl

end ToraCompiler
