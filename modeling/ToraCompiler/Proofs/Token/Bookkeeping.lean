import Mathlib.Data.List.DropRight
import ToraCompiler.Proofs.Token.Lossless
import ToraCompiler.Token.Lexer

/-!
# The bookkeeping of a lexer

The place behind some characters is counted in them (`Position.behind`), by their line ends and by what follows the
last of these.  A lexer behind them has numbers of octets instead (`Lexer.behind`): all of them, and those up to the
last line end.  Going over a piece keeps these numbers right, also where the piece holds line ends of its own
(`Lexer.advance?_behind`), and the column that is counted back from them is the column of the place
(`Lexer.columnOf?_behind`).

So a lexer never cuts the source out of range or inside a character, comes to its end, and finds what the walk over
the characters finds (`Lexer.scan?_start`).
-/

namespace ToraCompiler

/-- The number of octets of characters. -/
def octets (cs : List Char) : Nat :=
  (String.ofList cs).utf8ByteSize

theorem octets_append (cs ds : List Char) : octets (cs ++ ds) = octets cs + octets ds := by
  unfold octets
  rw [String.ofList_append, String.utf8ByteSize_append]

theorem octets_concat (cs : List Char) (c : Char) : octets (cs ++ [c]) = octets cs + c.utf8Size := by
  rw [octets_append]
  exact congrArg (octets cs + ·) (octets_single c)

/-- A part of a source is found at its octets. -/
theorem slice?_octets {source : String} {before inside behind : List Char}
    (split : source.toList = before ++ (inside ++ behind)) :
    slice? source (octets before) (octets before + octets inside) = some (String.ofList inside) := by
  have cut := slice?_append before inside behind
  rwa [List.append_assoc, ← split, String.ofList_toList] at cut

/-- The rest of a source is found from its octets on. -/
theorem slice?_rest {source : String} {before rest : List Char} (split : source.toList = before ++ rest) :
    slice? source (octets before) source.utf8ByteSize = some (String.ofList rest) := by
  have whole : source.utf8ByteSize = octets before + octets rest := by
    rw [← octets_append, ← split, octets, String.ofList_toList]
  rw [whole]
  exact slice?_octets (by rw [split, List.append_nil])

namespace Position

/-- The place behind these characters: on the line after as many line ends as there are, and in the column after
what follows the last of them. -/
def behind (before : List Char) : Position where
  line := 1 + before.count '\n'
  column := 1 + (before.rtakeWhile (· ≠ '\n')).length

/-- Moving over a character counts it in. -/
theorem behind_concat (before : List Char) (c : Char) : behind (before ++ [c]) = (behind before).after c := by
  unfold behind after
  rw [List.count_append, List.rtakeWhile_concat]
  by_cases newline : c = '\n'
  · subst newline
    simp [Nat.add_assoc]
  · simp [newline, Nat.add_assoc]

theorem behind_append (before cs : List Char) : behind (before ++ cs) = cs.foldl after (behind before) := by
  induction cs generalizing before with
  | nil => rw [List.append_nil, List.foldl_nil]
  | cons c cs ih => rw [List.append_cons, ih, behind_concat, List.foldl_cons]

end Position

namespace Lexer

/-- A lexer behind these characters. -/
def behind (before : List Char) : Lexer where
  index := octets before
  line := 1 + before.count '\n'
  lineStart := octets (before.rdropWhile (· ≠ '\n'))

theorem behind_nil : behind [] = start :=
  rfl

/-- The column is counted in what follows the last line end. -/
theorem columnOf?_behind {source : String} {before cs : List Char} (split : source.toList = before ++ cs) :
    (behind before).columnOf? source (octets before) = some (Position.behind before).column := by
  have parts : before.rdropWhile (· ≠ '\n') ++ before.rtakeWhile (· ≠ '\n') = before :=
    List.rdropWhile_append_rtakeWhile
  have line : slice? source (behind before).lineStart (octets before) =
      some (String.ofList (before.rtakeWhile (· ≠ '\n'))) := by
    have cut : slice? source (octets (before.rdropWhile (· ≠ '\n')))
        (octets (before.rdropWhile (· ≠ '\n')) + octets (before.rtakeWhile (· ≠ '\n'))) = _ :=
      slice?_octets (by rw [← List.append_assoc, parts, split])
    rwa [← octets_append, parts] at cut
  rw [columnOf?, line, Option.map_some, String.length_ofList]
  exact congrArg some (Nat.add_comm _ _)

/-- Over one more character, the lines are counted right. -/
theorem countLines_concat (before : List Char) (c : Char) (index offset : Nat)
    (here : index + offset = octets before) (cs : List Char) :
    countLines { behind before with index := index } offset (c :: cs) =
      countLines { behind (before ++ [c]) with index := index } (offset + c.utf8Size) cs := by
  rw [countLines]
  congr 1
  by_cases newline : c = '\n'
  · subst newline
    have size : '\n'.utf8Size = 1 := by decide
    simp [behind, here, octets_concat, size, Nat.add_assoc]
  · simp [behind, newline]

/-- Among characters behind others, the lines are counted right. -/
theorem countLines_behind (before cs : List Char) (index offset : Nat) (here : index + offset = octets before) :
    countLines { behind before with index := index } offset cs = { behind (before ++ cs) with index := index } := by
  induction cs generalizing before offset with
  | nil => rw [List.append_nil, countLines]
  | cons c cs ih =>
    rw [countLines_concat before c index offset here, List.append_cons before c cs]
    exact ih _ _ (by rw [octets_concat, ← here, Nat.add_assoc])

/-- A lexer that goes over a piece is behind it. -/
theorem advance?_behind {source : String} {before taken rest : List Char}
    (split : source.toList = before ++ (taken ++ rest)) :
    (behind before).advance? source (octets taken) = some (behind (before ++ taken)) := by
  have cut : slice? source (behind before).index ((behind before).index + octets taken) = _ := slice?_octets split
  have counted := countLines_behind before taken (octets before) 0 rfl
  rw [advance?, cut, Option.map_some, String.toList_ofList]
  change some { countLines { behind before with index := octets before } 0 taken with
    index := octets before + octets taken } = _
  rw [counted, ← octets_append]
  rfl

/-! ## One piece after another -/

/-- What a lexer behind `before` comes to next, where the walk over the characters `cs` goes on from there. -/
inductive Continues (before cs : List Char) : Except (ScanFault × Position) Token → Lexer → Prop
  | finished {t : Token} {y : Lexer} :
    t.kind = .endOfInput → Scan.walk (.behind before) 0 cs = ⟨[t], none⟩ → Continues before cs (.ok t) y
  | stopped {fault : ScanFault × Position} {y : Lexer} :
    Scan.walk (.behind before) 0 cs = ⟨[], some fault⟩ → Continues before cs (.error fault) y
  | found {t : Token} {taken rest : List Char} :
    t.kind ≠ .endOfInput → taken ≠ [] → cs = taken ++ rest →
    Scan.walk (.behind before) 0 cs = (Scan.walk (.behind (before ++ taken)) 0 rest).cons t →
    Continues before cs (.ok t) (behind (before ++ taken))

/-- What comes behind a gap comes behind what is before the gap. -/
theorem Continues.behindGap {before gap rest : List Char} {outcome : Except (ScanFault × Position) Token}
    {y : Lexer} (later : Continues (before ++ gap) rest outcome y)
    (passed : Scan.walk (.behind before) 0 (gap ++ rest) = Scan.walk (.behind (before ++ gap)) 0 rest) :
    Continues before (gap ++ rest) outcome y := by
  cases later with
  | finished isEnd walked => exact .finished isEnd (passed.trans walked)
  | stopped walked => exact .stopped (passed.trans walked)
  | @found t taken rest notEnd nonempty split walked =>
    rw [List.append_assoc]
    refine .found notEnd (by simp [nonempty]) (by rw [split, List.append_assoc]) ?_
    rw [← List.append_assoc, passed, walked]

/-- A lexer goes over the piece that it meets, and gives its token, if it has one. -/
theorem next?_piece {source : String} {before text later : List Char} {kind : Option Kind}
    (split : source.toList = before ++ (text ++ later)) (nonempty : text ≠ [])
    (found : Piece.first? (text ++ later) = some ⟨kind, text⟩) :
    (behind before).next? source =
      kind.elim ((behind (before ++ text)).next? source) fun kind =>
        some (.ok ⟨kind, String.ofList text, .behind before⟩, behind (before ++ text)) := by
  have rest : slice? source (behind before).index source.utf8ByteSize = _ := slice?_rest split
  have column : (behind before).columnOf? source (behind before).index = _ := columnOf?_behind split
  have cut : slice? (String.ofList (text ++ later)) 0 (octets text) = some (String.ofList text) := by
    have inside := slice?_append [] text later
    rwa [List.nil_append, String.ofList_nil, String.utf8ByteSize_empty, Nat.zero_add] at inside
  have moved := advance?_behind split
  simp only [octets] at cut moved
  rw [next?, rest]
  simp only [Option.bind_eq_bind, Option.bind_some, String.toList_ofList]
  cases text with
  | nil => exact (nonempty rfl).elim
  | cons c text =>
    rw [List.cons_append] at found cut ⊢
    simp only [column, found, cut, moved, Option.bind_some]
    cases kind with
    | none => rfl
    | some kind => rfl

/-- Where no piece starts, a lexer is at the end of its source or at a fault. -/
theorem next?_of_no_piece {source : String} {before cs : List Char} (split : source.toList = before ++ cs)
    (found : Piece.first? cs = none) :
    ∃ outcome y, (behind before).next? source = some (outcome, y) ∧ Continues before cs outcome y := by
  have rest : slice? source (behind before).index source.utf8ByteSize = _ := slice?_rest split
  have column : (behind before).columnOf? source (behind before).index = _ := columnOf?_behind split
  rw [next?, rest]
  simp only [Option.bind_eq_bind, Option.bind_some, String.toList_ofList]
  cases cs with
  | nil => exact ⟨_, _, rfl, .finished rfl rfl⟩
  | cons c cs =>
    simp only [column, found, Option.bind_some]
    refine ⟨_, _, rfl, .stopped ?_⟩
    simp only [Scan.walk, found]
    rfl

theorem next?_behind {source : String} {before cs : List Char} (split : source.toList = before ++ cs) :
    ∃ outcome y, (behind before).next? source = some (outcome, y) ∧ Continues before cs outcome y := by
  -- A gap has a character, so what follows it is shorter.
  induction length : cs.length using Nat.strong_induction_on generalizing before cs with
  | _ n ih =>
    cases found : Piece.first? cs with
    | none => exact next?_of_no_piece split found
    | some piece =>
      rcases piece with ⟨kind, text⟩
      have nonempty : text ≠ [] := (Piece.lexeme_of_first? found).ne_nil
      obtain ⟨later, rfl⟩ : text <+: cs := Piece.text_begins found
      rw [next?_piece split nonempty found]
      cases kind with
      | none =>
        have further : source.toList = before ++ text ++ later := by rw [split, List.append_assoc]
        have shorter : later.length < n := by simp [← length, List.length_pos_iff, nonempty]
        obtain ⟨outcome, y, given, continues⟩ := ih _ shorter further rfl
        refine ⟨outcome, y, given, continues.behindGap ?_⟩
        cases text with
        | nil => exact (nonempty rfl).elim
        | cons d text =>
          rw [List.cons_append] at found ⊢
          rw [Scan.walk_gap found, Position.behind_append]
      | some kind =>
        refine ⟨_, _, rfl, .found ?_ nonempty rfl ?_⟩
        · exact (Piece.wellSpelled_of_first? found rfl (.behind before)).2
        · rw [Scan.walk_token nonempty found, Position.behind_append]

/-- A lexer behind some characters finds what the walk finds that goes on there. -/
theorem scan?_behind {source : String} {before cs : List Char} (split : source.toList = before ++ cs) :
    (behind before).scan? source = some (Scan.walk (.behind before) 0 cs) := by
  induction length : cs.length using Nat.strong_induction_on generalizing before cs with
  | _ n ih =>
    obtain ⟨outcome, y, given, continues⟩ := next?_behind split
    rw [scan?, given]
    simp only [Option.bind_eq_bind, Option.bind_some]
    cases continues with
    | finished isEnd walked => simp only [isEnd, if_true, walked]; rfl
    | stopped walked => rw [walked]; rfl
    | @found t taken rest notEnd nonempty parts walked =>
      subst parts
      have shorter : rest.length < n := by simp [← length, List.length_pos_iff, nonempty]
      have later := ih _ shorter (by rw [split, List.append_assoc]) rfl
      simp only [notEnd, if_false, later, Option.bind_some, walked]
      rfl

/-- A lexer at the start of a source finds what the walk over its characters finds. -/
theorem scan?_start (source : String) : start.scan? source = some (Scan.ofText source) :=
  have split : source.toList = [] ++ source.toList := rfl
  scan?_behind split

end Lexer

end ToraCompiler
