import Mathlib.Tactic.SplitIfs
import ToraCompiler.Host.Writer

/-!
# Drafts of written lines

The writer puts host text of its own beside what it takes from the program.  A `Draft` is a line in which the
two are still apart, with the names that the program had introduced when the line was written.  Drafts are made
by a writer of their own that follows the first one rule by rule, and with the parts put together they are the
lines of that writer (`map_line_stmtsDrafts`).  So a fact about all own text in the drafts is one about all own
text in the program.
-/

namespace ToraCompiler.Host

/-! ## Fragments -/

/-- A part of a line. -/
inductive Fragment where
  /-- Host text for a built-in name, a conversion or a constant. -/
  | own (text : String)
  /-- Names of the program, literals, statement words and punctuation. -/
  | plain (text : String)
deriving DecidableEq, Repr

/-- The characters of a fragment. -/
def Fragment.text : Fragment → String
  | .own text => text
  | .plain text => text

/-- The fragments put together. -/
def render : List Fragment → String
  | [] => ""
  | f :: fs => f.text ++ render fs

@[simp]
theorem render_append (fs gs : List Fragment) : render (fs ++ gs) = render fs ++ render gs := by
  induction fs with
  | nil => simp [render]
  | cons f fs ih => simp only [List.cons_append, render, ih, String.append_assoc]

/-! ## Expressions -/

/-- Fragments with commas between them. -/
def commaFragments : List (List Fragment) → List Fragment
  | [] => []
  | [item] => item
  | item :: next :: rest => item ++ .plain ", " :: commaFragments (next :: rest)

theorem render_commaFragments (items : List (List Fragment)) :
    render (commaFragments items) = commaSeparated (items.map render) := by
  induction items with
  | nil => rfl
  | cons item rest ih =>
    cases rest with
    | nil => rfl
    | cons next rest =>
      have joined : commaSeparated ((item :: next :: rest).map render) =
          render item ++ ", " ++ commaSeparated ((next :: rest).map render) := rfl
      rw [joined, ← ih, commaFragments, render_append, String.append_assoc]
      rfl

/-- A call of what the first fragments say. -/
def callFragments (callee : List Fragment) (args : List (List Fragment)) : List Fragment :=
  callee ++ .plain "(" :: (commaFragments args ++ [.plain ")"])

theorem render_callFragments (callee : List Fragment) (args : List (List Fragment)) :
    render (callFragments callee args) = call (render callee) (args.map render) := by
  simp only [callFragments, call, render_append, render, render_commaFragments, Fragment.text,
    String.append_assoc, String.append_empty]

/-- A call of the printing function. -/
def printingFragments (args : List Fragment) (newline : Bool) : List Fragment :=
  if newline then .own "print" :: .plain "(" :: (args ++ [.plain ")"])
  else if render args = "" then [.own "print", .plain "(end='')"]
  else .own "print" :: .plain "(" :: (args ++ [.plain ", end='')"])

theorem render_printingFragments (args : List Fragment) (newline : Bool) :
    render (printingFragments args newline) = printing (render args) newline := by
  have opening : ∀ rest : String, "print" ++ ("(" ++ rest) = "print(" ++ rest := fun rest => by
    rw [← String.append_assoc]
    rfl
  unfold printingFragments printing
  split_ifs
  · simp only [render, render_append, Fragment.text, opening, String.append_empty, String.append_assoc]
  · rfl
  · simp only [render, render_append, Fragment.text, opening, String.append_empty, String.append_assoc]

/-- A call of a built-in function. -/
def builtinFragments (b : Builtin) (args : List (List Fragment)) : List Fragment :=
  match b.form with
  | .byHostText => callFragments [.own b.host] args
  | .byName => callFragments [.own b.name] args
  | .parenthesized => callFragments [.plain "(", .own b.host, .plain ")"] args
  | .printing newline => printingFragments (commaFragments args) newline
  | .append =>
    match args with
    | [list, item] => list ++ .plain ".append(" :: (item ++ [.plain ")"])
    | _ => callFragments [.own b.name] args

theorem render_builtinFragments (b : Builtin) (args : List (List Fragment)) :
    render (builtinFragments b args) = builtinCall b (args.map render) := by
  unfold builtinFragments builtinCall
  cases b.form with
  | byHostText => simp [render_callFragments, render, Fragment.text]
  | byName => simp [render_callFragments, render, Fragment.text]
  | parenthesized => simp [render_callFragments, render, Fragment.text, String.append_assoc]
  | printing newline => simp only [render_printingFragments, render_commaFragments]
  | append =>
    match args with
    | [] => simp [render_callFragments, render, Fragment.text]
    | [_] => simp [render_callFragments, render, Fragment.text]
    | [list, item] => simp [render, Fragment.text, String.append_assoc]
    | _ :: _ :: _ :: _ => simp [render_callFragments, render, Fragment.text]

/-- An operand of a concatenation. -/
def stringFragments (operand : List Fragment) : List Fragment :=
  if isConversion (render operand) then operand
  else .own "str" :: .plain "(" :: (operand ++ [.plain ")"])

theorem render_stringFragments (operand : List Fragment) :
    render (stringFragments operand) = asString (render operand) := by
  unfold stringFragments asString
  split_ifs
  · rfl
  · have opening : ∀ rest : String, "str" ++ ("(" ++ rest) = "str(" ++ rest := fun rest => by
      rw [← String.append_assoc]
      rfl
    simp only [render, render_append, Fragment.text, opening, String.append_empty, String.append_assoc]

/-- A binary operation. -/
def binaryFragments (op : BinaryOp) (left right : Expr) (first second : List Fragment) : List Fragment :=
  if op = .add ∧ ¬(mayBeNumber left ∧ mayBeNumber right) then
    stringFragments first ++ .plain " + " :: stringFragments second
  else .plain "(" :: (first ++ .plain (" " ++ op.symbol ++ " ") :: (second ++ [.plain ")"]))

theorem render_binaryFragments (op : BinaryOp) (left right : Expr) (first second : List Fragment) :
    render (binaryFragments op left right first second) =
      binaryText op left right (render first) (render second) := by
  unfold binaryFragments binaryText
  split_ifs
  · simp only [render, render_append, render_stringFragments, Fragment.text, String.append_assoc]
  · simp only [render, render_append, Fragment.text, String.append_empty, String.append_assoc]

/-- An item of a list. -/
def itemFragments (item : List Fragment) : List Fragment :=
  if render item = "true" then [.own "True"]
  else if render item = "false" then [.own "False"]
  else item

theorem render_itemFragments (item : List Fragment) : render (itemFragments item) = itemText (render item) := by
  unfold itemFragments itemText
  split_ifs <;> rfl

/-- A name, or the constant that it stands for. -/
def nameFragments (names : NameScopes) (name : String) : List Fragment :=
  match Catalog.constant? name with
  | some constant => if names.isDeclared name then [.plain name] else [.own constant.host]
  | none => [.plain name]

theorem render_nameFragments (names : NameScopes) (name : String) :
    render (nameFragments names name) = nameText names name := by
  unfold nameFragments nameText
  cases Catalog.constant? name with
  | none => simp [render, Fragment.text]
  | some constant => cases names.isDeclared name <;> simp [render, Fragment.text]

/-- A call of a named function. -/
def namedCallFragments (names : NameScopes) (callee : String) (args : List (List Fragment)) : List Fragment :=
  match builtinFor? names callee with
  | some builtin => builtinFragments builtin args
  | none => callFragments [.plain callee] args

theorem render_namedCallFragments (names : NameScopes) (callee : String) (args : List (List Fragment)) :
    render (namedCallFragments names callee args) = callText names callee (args.map render) := by
  have itself : render (callFragments [.plain callee] args) = call callee (args.map render) := by
    simp [render_callFragments, render, Fragment.text]
  unfold namedCallFragments callText
  cases builtinFor? names callee with
  | none => exact itself
  | some builtin => exact render_builtinFragments builtin args

mutual

/-- The fragments of an expression. -/
def exprFragments (names : NameScopes) : Expr → List Fragment
  | .binary op left right =>
    binaryFragments op left right (exprFragments names left) (exprFragments names right)
  | .call callee args => namedCallFragments names callee.text (exprsFragments names args)
  | .name name => nameFragments names name.text
  | .number value => [.plain value.text]
  | .str value => [.plain (stringLiteral value)]
  | .list items =>
    .plain "[" :: (commaFragments ((exprsFragments names items).map itemFragments) ++ [.plain "]"])

/-- The fragments of expressions. -/
def exprsFragments (names : NameScopes) : List Expr → List (List Fragment)
  | [] => []
  | e :: rest => exprFragments names e :: exprsFragments names rest

end

mutual

theorem render_exprFragments (names : NameScopes) : ∀ e : Expr,
    render (exprFragments names e) = exprText names e
  | .binary op left right => by
    rw [exprFragments, render_binaryFragments, render_exprFragments names left,
      render_exprFragments names right, exprText]
  | .call callee args => by
    rw [exprFragments, render_namedCallFragments, map_render_exprsFragments names args, exprText]
  | .name name => by rw [exprFragments, render_nameFragments, exprText]
  | .number value => by simp [exprFragments, exprText, render, Fragment.text]
  | .str value => by simp [exprFragments, exprText, render, Fragment.text]
  | .list items => by
    have texts : ((exprsFragments names items).map itemFragments).map render =
        (exprTexts names items).map itemText := by
      rw [← map_render_exprsFragments names items, List.map_map, List.map_map]
      exact List.map_congr_left fun item _ => render_itemFragments item
    simp only [exprFragments, exprText, render, render_append, render_commaFragments, texts, Fragment.text,
      String.append_assoc, String.append_empty]

theorem map_render_exprsFragments (names : NameScopes) : ∀ es : List Expr,
    (exprsFragments names es).map render = exprTexts names es
  | [] => rfl
  | e :: rest => by
    rw [exprsFragments, List.map_cons, render_exprFragments names e, map_render_exprsFragments names rest,
      exprTexts]

end

/-! ## Statements -/

/-- A line in fragments. -/
structure Draft where
  /-- How many blocks it stands in. -/
  depth : Nat
  /-- The names that the program has introduced in the scopes open at the line. -/
  names : NameScopes
  /-- What it says. -/
  fragments : List Fragment

/-- The line that a draft is one of. -/
def Draft.line (d : Draft) : Line where
  depth := d.depth
  text := render d.fragments

/-- The line of a statement, or the one that opens its blocks. -/
def headerFragments (names : NameScopes) : Stmt → List Fragment
  | .declare name _ none => [.plain (name.text ++ " = "), .own "None"]
  | .declare name _ (some value) => .plain (name.text ++ " = ") :: exprFragments names value
  | .function name params _ _ => [.plain ("def " ++ call name.text (params.map (·.name.text)) ++ ":")]
  | .branch condition _ _ => .plain "if " :: (exprFragments names condition ++ [.plain ":"])
  | .loop condition _ => .plain "while " :: (exprFragments names condition ++ [.plain ":"])
  | .each item iterable _ =>
    .plain ("for " ++ item.text ++ " in ") :: (exprFragments names iterable ++ [.plain ":"])
  | .print value newline => printingFragments (exprFragments names value) newline
  | .eval value => exprFragments names value
  | .assign target value => .plain (target.text ++ " = ") :: exprFragments names value

/-- A block: the draft that opens it, then its drafts. -/
def blockDrafts (header : Draft) (body : List Draft) : List Draft :=
  header :: match body with
    | [] => [⟨header.depth + 1, header.names, [.plain "pass"]⟩]
    | first :: rest => first :: rest

theorem map_line_blockDrafts (header : Draft) (body : List Draft) :
    (blockDrafts header body).map Draft.line =
      blockLines header.depth (render header.fragments) (body.map Draft.line) := by
  cases body <;> rfl

mutual

/-- The drafts of a statement at some depth. -/
def stmtDrafts (names : NameScopes) (depth : Nat) : Stmt → List Draft
  | .function name params result body =>
    blockDrafts ⟨depth, names, headerFragments names (.function name params result body)⟩
      (stmtsDrafts ((names.declare name.text).push (params.map (·.name.text))) (depth + 1) body)
  | .branch condition yes no =>
    blockDrafts ⟨depth, names, headerFragments names (.branch condition yes no)⟩
      (stmtsDrafts names (depth + 1) yes) ++
      elseDrafts (stmtsLines names (depth + 1) yes).2 depth no
  | .loop condition body =>
    blockDrafts ⟨depth, names, headerFragments names (.loop condition body)⟩
      (stmtsDrafts names (depth + 1) body)
  | .each item iterable body =>
    blockDrafts ⟨depth, names, headerFragments names (.each item iterable body)⟩
      (stmtsDrafts (names.declare item.text) (depth + 1) body)
  | s => [⟨depth, names, headerFragments names s⟩]

/-- The drafts of statements at some depth. -/
def stmtsDrafts (names : NameScopes) (depth : Nat) : List Stmt → List Draft
  | [] => []
  | s :: rest => stmtDrafts names depth s ++ stmtsDrafts (stmtLines names depth s).2 depth rest

/-- The drafts of the second block of a branch. -/
def elseDrafts (names : NameScopes) (depth : Nat) : Option (List Stmt) → List Draft
  | none => []
  | some [] => []
  | some (s :: rest) =>
    blockDrafts ⟨depth, names, [.plain "else:"]⟩
      (stmtDrafts names (depth + 1) s ++ stmtsDrafts (stmtLines names (depth + 1) s).2 (depth + 1) rest)

end

/-- The text of a header with an expression between two pieces. -/
theorem render_around (names : NameScopes) (e : Expr) (before after : String) :
    render (.plain before :: (exprFragments names e ++ [.plain after])) =
      before ++ exprText names e ++ after := by
  simp only [render, render_append, render_exprFragments, Fragment.text, String.append_empty,
    String.append_assoc]

theorem render_assigned (names : NameScopes) (e : Expr) (target : String) :
    render (.plain (target ++ " = ") :: exprFragments names e) = assignment target (exprText names e) := by
  simp only [render, render_exprFragments, Fragment.text, assignment]

mutual

theorem map_line_stmtDrafts : ∀ (s : Stmt) (names : NameScopes) (depth : Nat),
    (stmtDrafts names depth s).map Draft.line = (stmtLines names depth s).1
  | .declare name _ none, names, depth => by
    simp [stmtDrafts, stmtLines, Draft.line, headerFragments, render, Fragment.text, assignment]
  | .declare name _ (some value), names, depth => by
    simp only [stmtDrafts, stmtLines, List.map_cons, List.map_nil, Draft.line, headerFragments,
      render_assigned]
  | .function name params result body, names, depth => by
    simp only [stmtDrafts, map_line_blockDrafts, map_line_stmtsDrafts body, stmtLines]
    simp [headerFragments, render, Fragment.text]
  | .branch condition yes no, names, depth => by
    simp only [stmtDrafts, List.map_append, map_line_blockDrafts, map_line_stmtsDrafts yes,
      map_line_elseDrafts no, stmtLines, headerFragments, render_around]
  | .loop condition body, names, depth => by
    simp only [stmtDrafts, map_line_blockDrafts, map_line_stmtsDrafts body, stmtLines, headerFragments,
      render_around]
  | .each item iterable body, names, depth => by
    simp only [stmtDrafts, map_line_blockDrafts, map_line_stmtsDrafts body, stmtLines, headerFragments,
      render_around]
  | .print value newline, names, depth => by
    simp only [stmtDrafts, stmtLines, List.map_cons, List.map_nil, Draft.line, headerFragments,
      render_printingFragments, render_exprFragments]
  | .eval value, names, depth => by
    simp only [stmtDrafts, stmtLines, List.map_cons, List.map_nil, Draft.line, headerFragments,
      render_exprFragments]
  | .assign target value, names, depth => by
    simp only [stmtDrafts, stmtLines, List.map_cons, List.map_nil, Draft.line, headerFragments,
      render_assigned]

theorem map_line_stmtsDrafts : ∀ (p : List Stmt) (names : NameScopes) (depth : Nat),
    (stmtsDrafts names depth p).map Draft.line = (stmtsLines names depth p).1
  | [], _, _ => rfl
  | s :: rest, names, depth => by
    simp only [stmtsDrafts, List.map_append, map_line_stmtDrafts s, map_line_stmtsDrafts rest, stmtsLines]

theorem map_line_elseDrafts : ∀ (no : Option (List Stmt)) (names : NameScopes) (depth : Nat),
    (elseDrafts names depth no).map Draft.line = (elseLines names depth no).1
  | none, _, _ => rfl
  | some [], _, _ => rfl
  | some (s :: rest), names, depth => by
    simp only [elseDrafts, map_line_blockDrafts, List.map_append, map_line_stmtDrafts s,
      map_line_stmtsDrafts rest, elseLines]
    simp [render, Fragment.text]

end

/-- The drafts of a program that stands alone. -/
def programDrafts (p : Program) : List Draft :=
  stmtsDrafts (.ofGlobals []) 0 p

/-- A module is the prologue and the lines of the program's drafts. -/
theorem moduleText_eq_drafts (p : Program) :
    (moduleText [] p).1 = joinLines (prologue :: "" :: (programDrafts p).map fun d => d.line.render) := by
  have lines := map_line_stmtsDrafts p (.ofGlobals []) 0
  have rendered : (programDrafts p).map (fun d => d.line.render) =
      ((programDrafts p).map Draft.line).map Line.render := by
    rw [List.map_map]
    rfl
  rw [rendered, programDrafts, lines]
  rfl

end ToraCompiler.Host
