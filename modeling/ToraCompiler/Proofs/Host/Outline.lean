import Mathlib.Data.List.Forall2
import ToraCompiler.Proofs.Host.OneLine
import ToraCompiler.Proofs.Host.Pen

/-!
# The outline of a program

The blocks of a program can be told from the indentation of its host text.  The outline of a program says what
its lines are, and at which depth, from the tree alone.  The host text, cut at its line ends, is the outline line
by line (`Host.Pen.write_outline`): each line has four spaces for each block and then a text that starts with no
space, and it ends with a colon just where a block is opened.
-/

namespace ToraCompiler

/-! ## Outlines -/

/-- What a line of a program is. -/
inductive LineKind where
  /-- A statement without blocks. -/
  | simple
  /-- The line that opens the block of a statement, and the word that it starts with. -/
  | header (word : String)
  /-- The line that opens the second block of a branch. -/
  | otherwise
  /-- The only line of a block without statements. -/
  | filler
deriving DecidableEq, Repr

/-- Whether the line opens a block. -/
def LineKind.opens : LineKind → Bool
  | .simple => false
  | .header _ => true
  | .otherwise => true
  | .filler => false

/-- A line of an outline. -/
structure OutlineLine where
  /-- How many blocks it stands in. -/
  depth : Nat
  /-- What it is. -/
  kind : LineKind
deriving DecidableEq, Repr

mutual

/-- The outline of a statement at some depth. -/
def Stmt.outline (depth : Nat) : Stmt → List OutlineLine
  | .declare _ _ _ => [⟨depth, .simple⟩]
  | .function _ _ _ body => ⟨depth, .header "def"⟩ :: Stmt.outlineBlock (depth + 1) body
  | .branch _ yes no =>
    ⟨depth, .header "if"⟩ :: (Stmt.outlineBlock (depth + 1) yes ++ Stmt.outlineElse depth no)
  | .loop _ body => ⟨depth, .header "while"⟩ :: Stmt.outlineBlock (depth + 1) body
  | .each _ _ body => ⟨depth, .header "for"⟩ :: Stmt.outlineBlock (depth + 1) body
  | .print _ _ => [⟨depth, .simple⟩]
  | .eval _ => [⟨depth, .simple⟩]
  | .assign _ _ => [⟨depth, .simple⟩]

/-- The outline of statements one after another. -/
def Stmt.outlineAll (depth : Nat) : List Stmt → List OutlineLine
  | [] => []
  | s :: rest => s.outline depth ++ Stmt.outlineAll depth rest

/-- The outline of the statements of a block. -/
def Stmt.outlineBlock (depth : Nat) : List Stmt → List OutlineLine
  | [] => [⟨depth, .filler⟩]
  | s :: rest => s.outline depth ++ Stmt.outlineAll depth rest

/-- The outline of the second block of a branch, which is left out if it has no statements. -/
def Stmt.outlineElse (depth : Nat) : Option (List Stmt) → List OutlineLine
  | none => []
  | some [] => []
  | some (s :: rest) =>
    ⟨depth, .otherwise⟩ :: (s.outline (depth + 1) ++ Stmt.outlineAll (depth + 1) rest)

end

/-! ## Lines that fit -/

/-- How the text of such a line is worded. -/
def LineKind.Wording : LineKind → String → Prop
  | .simple, _ => True
  | .header word, text => ∃ rest, text = word ++ " " ++ rest ++ ":"
  | .otherwise, text => text = "else:"
  | .filler, text => text = "pass"

/-- The characters of a line show the entry: four spaces for each block, then the text of the line. -/
structure OutlineLine.Shows (entry : OutlineLine) (cs : List Char) : Prop where
  laidOut : ∃ text : String, cs = List.replicate (4 * entry.depth) ' ' ++ text.toList ∧
    text.toList.head?.any (· ≠ ' ') ∧ entry.kind.Wording text
  colon : cs.getLast? = some ':' ↔ entry.kind.opens

namespace Host

/-- The text of a line fits what the line is. -/
structure FitsKind (kind : LineKind) (text : String) : Prop where
  oneLine : OneLine text
  begins : Begins text
  colon : text.toList.getLast? = some ':' ↔ kind.opens
  wording : kind.Wording text

/-- The line fits the entry. -/
structure Fits (entry : OutlineLine) (line : Line) : Prop where
  depth : line.depth = entry.depth
  text : FitsKind entry.kind line.text

theorem Inline.fits {text : String} (h : Inline text) : FitsKind .simple text := by
  refine ⟨h.oneLine, h.begins, ⟨fun colon => ?_, nofun⟩, trivial⟩
  have stops := h.stops
  unfold Stops at stops
  rw [colon] at stops
  cases stops

theorem fits_header {word rest : String} (start : OneLine word ∧ Begins word) (line : OneLine rest) :
    FitsKind (.header word) (word ++ " " ++ rest ++ ":") := by
  have last : (word ++ " " ++ rest ++ ":").toList.getLast? = some ':' := by
    rw [String.toList_append]
    exact List.getLast?_concat
  refine ⟨?_, ((start.2.append _).append _).append _, iff_of_true last rfl, rest, rfl⟩
  simp only [oneLine_append]
  exact ⟨⟨⟨start.1, by decide⟩, line⟩, by decide⟩

theorem fits_otherwise : FitsKind .otherwise "else:" :=
  ⟨by decide, by decide, by decide, rfl⟩

theorem fits_filler : FitsKind .filler "pass" :=
  ⟨by decide, by decide, by decide, rfl⟩

/-- A block fits if the line that opens it does, and the lines of its statements. -/
theorem fits_block {kind : LineKind} {header : String} {names : NameScopes} {depth : Nat} {body : List Stmt}
    (opening : FitsKind kind header)
    (inner : List.Forall₂ Fits (Stmt.outlineAll (depth + 1) body) (stmtsLines names (depth + 1) body).1) :
    List.Forall₂ Fits (⟨depth, kind⟩ :: Stmt.outlineBlock (depth + 1) body)
      (blockLines depth header (stmtsLines names (depth + 1) body).1) := by
  cases body with
  | nil => exact .cons ⟨rfl, opening⟩ (.cons ⟨rfl, fits_filler⟩ .nil)
  | cons s rest =>
    have some : (stmtsLines names (depth + 1) (s :: rest)).1 ≠ [] := by
      rw [Ne, stmtsLines_eq_nil_iff]
      exact List.cons_ne_nil _ _
    rw [blockLines, if_neg some]
    exact .cons ⟨rfl, opening⟩ inner

theorem inline_assignment {target value : String} (word : Inline target) (h : Inline value) :
    Inline (assignment target value) :=
  inline_between ⟨word.oneLine, word.begins⟩ (by decide) ⟨h.oneLine, h.stops⟩

/-! ## Statements -/

mutual

/-- The lines of a statement fit its outline. -/
theorem fits_stmtLines (names : NameScopes) (depth : Nat) :
    ∀ s : Stmt, s.All (fun text => IsWord text.toList) Number.IsWritten →
      List.Forall₂ Fits (s.outline depth) (stmtLines names depth s).1
  | .declare _ _ none, all => by
    have word := inline_of_isWord all.1
    have nothing : Inline "None" := ⟨by decide, by decide, by decide⟩
    exact .cons ⟨rfl, (inline_assignment word nothing).fits⟩ .nil
  | .declare _ _ (some e), all => by
    have word := inline_of_isWord all.1
    have value := inline_exprText names e (all.2 e rfl)
    exact .cons ⟨rfl, (inline_assignment word value).fits⟩ .nil
  | .function name params _ body, all => by
    have inner := fits_stmtsLines ((names.declare name.text).push (params.map (·.name.text))) (depth + 1) body
      all.2.2
    have word := inline_of_isWord all.1
    have head : Inline (call name.text (params.map (·.name.text))) := by
      refine inline_call word.oneLine word.begins fun param member => ?_
      rcases List.mem_map.1 member with ⟨p, isParam, rfl⟩
      exact (inline_of_isWord (all.2.1 p isParam)).oneLine
    exact fits_block (fits_header (by decide) head.oneLine) inner
  | .branch condition yes no, all => by
    have head := inline_exprText names condition all.1
    have first := fits_stmtsLines names (depth + 1) yes all.2.1
    have second := fits_elseLines (stmtsLines names (depth + 1) yes).2 depth no all.2.2
    exact List.rel_append (fits_block (fits_header (by decide) head.oneLine) first) second
  | .loop condition body, all => by
    have head := inline_exprText names condition all.1
    have inner := fits_stmtsLines names (depth + 1) body all.2
    exact fits_block (fits_header (by decide) head.oneLine) inner
  | .each item iterable body, all => by
    have word := inline_of_isWord all.1
    have items := inline_exprText names iterable all.2.1
    have inner := fits_stmtsLines (names.declare item.text) (depth + 1) body all.2.2
    have head : OneLine (item.text ++ " in " ++ exprText names iterable) := by
      rw [oneLine_append, oneLine_append]
      exact ⟨⟨word.oneLine, by decide⟩, items.oneLine⟩
    -- The header has the same parts in the same order, put together from the left.
    exact fits_block (fits_header (by decide) head) inner
  | .print value newline, all =>
    .cons ⟨rfl, (inline_printing (inline_exprText names value all).oneLine newline).fits⟩ .nil
  | .eval value, all => .cons ⟨rfl, (inline_exprText names value all).fits⟩ .nil
  | .assign _ value, all => by
    have word := inline_of_isWord all.1
    have value := inline_exprText names value all.2
    exact .cons ⟨rfl, (inline_assignment word value).fits⟩ .nil

theorem fits_stmtsLines (names : NameScopes) (depth : Nat) :
    ∀ p : List Stmt, Stmt.AllOf (fun text => IsWord text.toList) Number.IsWritten p →
      List.Forall₂ Fits (Stmt.outlineAll depth p) (stmtsLines names depth p).1
  | [], _ => .nil
  | s :: rest, all =>
    List.rel_append (fits_stmtLines names depth s all.1) (fits_stmtsLines _ depth rest all.2)

theorem fits_elseLines (names : NameScopes) (depth : Nat) :
    ∀ no : Option (List Stmt), Stmt.AllElse (fun text => IsWord text.toList) Number.IsWritten no →
      List.Forall₂ Fits (Stmt.outlineElse depth no) (elseLines names depth no).1
  | none, _ => .nil
  | some [], _ => .nil
  | some (s :: rest), all => by
    have inner : List.Forall₂ Fits (Stmt.outlineAll (depth + 1) (s :: rest))
        (stmtsLines names (depth + 1) (s :: rest)).1 :=
      List.rel_append (fits_stmtLines names (depth + 1) s all.1) (fits_stmtsLines _ (depth + 1) rest all.2)
    exact fits_block fits_otherwise inner

end

/-! ## Texts of lines -/

theorem toList_joinLines (lines : List String) :
    (joinLines lines).toList = ['\n'].intercalate (lines.map String.toList) := by
  induction lines with
  | nil => rfl
  | cons line lines ih =>
    cases lines with
    | nil => simp [joinLines, joinWith]
    | cons next lines =>
      rw [joinLines_cons (List.cons_ne_nil _ _), String.toList_append, String.toList_append, ih, List.map_cons,
        List.map_cons, List.map_cons, List.intercalate_cons_cons]
      simp

/-- Joined lines come apart again at the line ends. -/
theorem splitOn_joinLines {lines : List String} (nonempty : lines ≠ []) (each : ∀ line ∈ lines, OneLine line) :
    (joinLines lines).toList.splitOn '\n' = lines.map String.toList := by
  rw [toList_joinLines]
  refine List.splitOn_intercalate '\n' (fun cs member => ?_) (by simpa using nonempty)
  rcases List.mem_map.1 member with ⟨line, inLines, rfl⟩
  exact each line inLines

theorem toList_render (line : Line) :
    line.render.toList = List.replicate (4 * line.depth) ' ' ++ line.text.toList := by
  rw [Line.render, String.toList_append, String.toList_ofList]

theorem Fits.oneLine_render {entry : OutlineLine} {line : Line} (h : Fits entry line) : OneLine line.render := by
  unfold OneLine
  rw [toList_render, List.mem_append, not_or]
  refine ⟨fun member => ?_, h.text.oneLine⟩
  cases List.eq_of_mem_replicate member

/-- A line that fits an entry shows it. -/
theorem Fits.shows {entry : OutlineLine} {line : Line} (h : Fits entry line) : entry.Shows line.render.toList := by
  have layout := toList_render line
  rw [h.depth] at layout
  refine ⟨⟨line.text, layout, h.text.begins, h.text.wording⟩, ?_⟩
  -- The text has a character, so the last one of the line is the last one of the text.
  have same : line.render.toList.getLast? = line.text.toList.getLast? := by
    rw [layout, List.getLast?_append_of_ne_nil]
    intro empty
    have begins := h.text.begins
    unfold Begins at begins
    rw [empty] at begins
    cases begins
  rw [same]
  exact h.text.colon

/-- Lines that fit an outline show it, once they are joined and cut at the line ends again. -/
theorem shows_of_fits {entries : List OutlineLine} {lines : List Line} (fits : List.Forall₂ Fits entries lines)
    (nonempty : lines ≠ []) :
    List.Forall₂ OutlineLine.Shows entries ((joinLines (lines.map Line.render)).toList.splitOn '\n') := by
  have each : ∀ text ∈ lines.map Line.render, OneLine text := by
    clear nonempty
    induction fits with
    | nil => nofun
    | cons first _ ih => exact List.forall_mem_cons.2 ⟨first.oneLine_render, ih⟩
  rw [splitOn_joinLines (by simpa using nonempty) each, List.map_map, List.forall₂_map_right_iff]
  exact fits.imp fun _ _ => Fits.shows

/-! ## Programs -/

/-- A program that is read from a source is written as its outline, whatever names are known before: one line
for each entry, in order.  The pen that writes it is at rest again behind it. -/
theorem Pen.write_outline {source : String} {p : Program} (read : Program.ofSource source = .ok p)
    (nonempty : p ≠ []) {pen : Pen} (rest : pen.AtRest) :
    List.Forall₂ OutlineLine.Shows (Stmt.outlineAll 0 p)
        ((fragmentText pen.names.globals p).1.toList.splitOn '\n') ∧
      ((pen.write p).1, (pen.write p).2.names.globals) = fragmentText pen.names.globals p ∧
      (pen.write p).2.AtRest := by
  rcases rest.write p with ⟨after, written⟩
  refine ⟨?_, written, after⟩
  have fits := fits_stmtsLines (.ofGlobals pen.names.globals) 0 p (Program.all_of_ofSource read)
  refine shows_of_fits fits ?_
  rw [Ne, stmtsLines_eq_nil_iff]
  exact nonempty

/-- A branch with an empty first block and a loop in the second, for a pen that has written before. -/
theorem Pen.write_outline_branch :
    let pen := start.run [[.assign ⟨"b", ⟨1, 1⟩⟩ (.str "\n:")]]
    let p : Program := [.branch (.name ⟨"a", ⟨1, 5⟩⟩) [] (some [.loop (.name ⟨"b", ⟨1, 25⟩⟩) []])]
    Program.ofSource "if (a) \x7b \x7d else \x7b while b \x7b \x7d \x7d" = .ok p ∧
      pen.names.globals = ["b"] ∧
      List.Forall₂ OutlineLine.Shows
        [⟨0, .header "if"⟩, ⟨1, .filler⟩, ⟨0, .otherwise⟩, ⟨1, .header "while"⟩, ⟨2, .filler⟩]
        ((fragmentText ["b"] p).1.toList.splitOn '\n') ∧
      (pen.write p).2.AtRest := by
  intro pen p
  have scanned : tokensOf "if (a) \x7b \x7d else \x7b while b \x7b \x7d \x7d" = .ok
      [⟨.ifKeyword, "if", ⟨1, 1⟩⟩, ⟨.openParen, "(", ⟨1, 4⟩⟩, ⟨.identifier, "a", ⟨1, 5⟩⟩,
        ⟨.closeParen, ")", ⟨1, 6⟩⟩, ⟨.openBrace, "\x7b", ⟨1, 8⟩⟩, ⟨.closeBrace, "\x7d", ⟨1, 10⟩⟩,
        ⟨.elseKeyword, "else", ⟨1, 12⟩⟩, ⟨.openBrace, "\x7b", ⟨1, 17⟩⟩, ⟨.whileKeyword, "while", ⟨1, 19⟩⟩,
        ⟨.identifier, "b", ⟨1, 25⟩⟩, ⟨.openBrace, "\x7b", ⟨1, 27⟩⟩, ⟨.closeBrace, "\x7d", ⟨1, 29⟩⟩,
        ⟨.closeBrace, "\x7d", ⟨1, 31⟩⟩, ⟨.endOfInput, "", ⟨1, 0⟩⟩] := by decide +kernel
  have read : Program.ofSource _ = .ok p := Program.ofSource_eq_ok_iff.2 ⟨_, scanned, rfl⟩
  have known : pen.names.globals = ["b"] := rfl
  have rest : pen.AtRest := atRest_run .start _
  rcases write_outline read (List.cons_ne_nil _ _) rest with ⟨shown, -, after⟩
  rw [known] at shown
  exact ⟨read, known, shown, after⟩

end Host

end ToraCompiler
