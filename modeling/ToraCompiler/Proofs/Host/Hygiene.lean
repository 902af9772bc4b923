import ToraCompiler.Proofs.Host.Drafts
import ToraCompiler.Proofs.Tree.Introduced

/-!
# Names of the program in text of the host

A program's names are written as they are, into the same host text as the names that the built-ins rely on.  The
writer looks only whether the program has introduced the name of the built-in itself, so a name of the host
inside the text for that built-in may be one of the program's: it is *captured*.

The names that can be captured are twelve (`captured_exposed`), and each of them is captured in some program
(`exists_captured`).  All other own text is safe: it stands for a name that is looked at
(`OwnText.exposed_or_printing`), or it is the printing function, whose name no program can introduce because it
is a keyword (`Program.introduced_ne_keyword`).
-/

namespace ToraCompiler

/-! ## Compiled sources -/

theorem Artifact.ofSource_eq_ok {source : String} {artifact : Artifact}
    (h : Artifact.ofSource source = .ok artifact) :
    Program.ofSource source = .ok artifact.program ∧ artifact.text = (Host.moduleText [] artifact.program).1 := by
  unfold Artifact.ofSource at h
  obtain ⟨p, read, checked⟩ := bind_eq_ok_iff.1 h
  obtain ⟨scope, -, made⟩ := bind_eq_ok_iff.1 checked
  cases made
  exact ⟨read, rfl⟩

/-- Whether the source compiles, to an artifact with the property. -/
def Artifact.compilesTo (source : String) (property : Artifact → Bool) : Bool :=
  match Artifact.ofSource source with
  | .ok artifact => property artifact
  | .error _ => false

theorem Artifact.exists_of_compilesTo {source : String} {property : Artifact → Bool}
    (h : compilesTo source property) : ∃ artifact, ofSource source = .ok artifact ∧ property artifact := by
  unfold compilesTo at h
  cases compiled : ofSource source with
  | ok artifact =>
    rw [compiled] at h
    exact ⟨artifact, rfl, h⟩
  | error d =>
    rw [compiled] at h
    cases h

namespace Host

/-! ## Free names of host text -/

/-- The words of the host that are no names. -/
def reservedWords : List String := ["lambda", "in", "if", "else", "True", "False", "None"]

/-- The words that host text looks up by themselves: of each path with points, the first. -/
def roots (cs : List Char) : List String :=
  let paths := cs.splitOnP fun c => !(isWordPart c || c = '.')
  let words := (paths.map fun path => path.takeWhile (· ≠ '.')).filter (·.head?.any isWordStart)
  words.map String.ofList

/-- The parameters of host text that is a function written in place. -/
def parameters (cs : List Char) : List String :=
  match roots (cs.takeWhile (· ≠ ':')) with
  | "lambda" :: names => names
  | _ => []

/-- The names that a host text takes from where it stands. -/
def freeNames (text : String) : List String :=
  (roots text.toList).filter fun word => word ∉ reservedWords ∧ word ∉ parameters text.toList

example : freeNames "lambda lst: sum(lst) / len(lst) if lst else 0" = ["sum", "len"] := by decide +kernel

/-- The free names of a fragment of own text. -/
def Fragment.freeNames : Fragment → List String
  | .own text => Host.freeNames text
  | .plain _ => []

/-- The free names of a draft's own text that stand for something of the program where the line is. -/
def Draft.captured (d : Draft) : List String :=
  (d.fragments.flatMap Fragment.freeNames).filter d.names.isDeclared

/-- The names that are captured anywhere in a program that stands alone. -/
def captured (p : Program) : List String :=
  (programDrafts p).flatMap Draft.captured

/-- The names of the host that own text relies on without looking whether the program has introduced them. -/
def exposedNames : List String :=
  ["math", "list", "sum", "len", "max", "min", "datetime", "isinstance", "int", "float", "str", "bool"]

/-! ## Where own text comes from -/

/-- The texts that the writer puts in by itself, where the program has introduced these names. -/
inductive OwnText (names : NameScopes) : String → Prop
  | function {b : Builtin} : b ∈ Catalog.functions → b.form ≠ .byName → names.isDeclared b.name = false →
    OwnText names b.host
  | bound {b : Builtin} : b ∈ Catalog.functions → b.form = .byName ∨ b.form = .append →
    names.isDeclared b.name = false → OwnText names b.name
  | constant {c : Constant} : c ∈ Catalog.constants → OwnText names c.host
  | printing : OwnText names "print"
  | conversion : OwnText names "str"
  | word {text : String} : text ∈ reservedWords → OwnText names text

/-- Own text relies on a name only if that is exposed or the printing function, or not introduced. -/
theorem OwnText.exposed_or_printing {names : NameScopes} {text : String} (own : OwnText names text) {name : String}
    (free : name ∈ freeNames text) (declared : names.isDeclared name) :
    name ∈ exposedNames ∨ name = "print" := by
  have ofFunction : ∀ b ∈ Catalog.functions, b.form ≠ .byName → ∀ name ∈ freeNames b.host,
      name = b.name ∨ name ∈ exposedNames ∨ name = "print" := by decide +kernel
  have ofBinding : ∀ b ∈ Catalog.functions, b.form = .byName ∨ b.form = .append →
      freeNames b.name = [b.name] := by decide +kernel
  have ofConstant : ∀ c ∈ Catalog.constants, ∀ name ∈ freeNames c.host, name ∈ exposedNames := by
    decide +kernel
  have ofWord : ∀ word ∈ reservedWords, freeNames word = [] := by decide +kernel
  cases own with
  | function member form hidden =>
    rcases ofFunction _ member form name free with rfl | safe
    · rw [hidden] at declared
      cases declared
    · exact safe
  | bound member form hidden =>
    rw [ofBinding _ member form, List.mem_singleton] at free
    rw [free, hidden] at declared
    cases declared
  | constant member => exact .inl (ofConstant _ member name free)
  | printing =>
    have names : freeNames "print" = ["print"] := by decide +kernel
    rw [names, List.mem_singleton] at free
    exact .inr free
  | conversion =>
    have names : freeNames "str" = ["str"] := by decide +kernel
    rw [names, List.mem_singleton] at free
    subst free
    exact .inl (by decide)
  | word member =>
    rw [ofWord _ member] at free
    cases free

/-- All own text among the fragments comes from where it may. -/
def Grounded (names : NameScopes) (fs : List Fragment) : Prop :=
  ∀ text, .own text ∈ fs → OwnText names text

namespace Grounded

variable {names : NameScopes} {fs gs : List Fragment}

theorem nil : Grounded names [] := nofun

theorem plain (text : String) (h : Grounded names fs) : Grounded names (.plain text :: fs) := by
  intro own member
  rcases List.mem_cons.1 member with same | later
  · cases same
  · exact h own later

theorem own {text : String} (isOwn : OwnText names text) (h : Grounded names fs) :
    Grounded names (.own text :: fs) := by
  intro other member
  rcases List.mem_cons.1 member with same | later
  · cases same
    exact isOwn
  · exact h other later

theorem append (left : Grounded names fs) (right : Grounded names gs) : Grounded names (fs ++ gs) := by
  intro own member
  rcases List.mem_append.1 member with first | second
  · exact left own first
  · exact right own second

/-- Between two pieces of plain text. -/
theorem between (h : Grounded names fs) (before after : String) :
    Grounded names (.plain before :: (fs ++ [.plain after])) :=
  plain before (append h (plain after nil))

theorem comma {items : List (List Fragment)} (each : ∀ item ∈ items, Grounded names item) :
    Grounded names (commaFragments items) := by
  induction items with
  | nil => exact nil
  | cons item rest ih =>
    have first := each item List.mem_cons_self
    have others := ih fun other member => each other (List.mem_cons_of_mem item member)
    cases rest with
    | nil => exact first
    | cons next rest => exact append first (plain ", " others)

theorem call {callee : List Fragment} {args : List (List Fragment)} (first : Grounded names callee)
    (each : ∀ arg ∈ args, Grounded names arg) : Grounded names (callFragments callee args) :=
  append first (between (comma each) "(" ")")

theorem printing {args : List Fragment} (h : Grounded names args) (newline : Bool) :
    Grounded names (printingFragments args newline) := by
  unfold printingFragments
  split_ifs
  · exact own .printing (between h "(" ")")
  · exact own .printing (plain "(end='')" nil)
  · exact own .printing (between h "(" ", end='')")

theorem string (h : Grounded names fs) : Grounded names (stringFragments fs) := by
  unfold stringFragments
  split_ifs
  · exact h
  · exact own .conversion (between h "(" ")")

theorem binary {op : BinaryOp} {left right : Expr} (first : Grounded names fs) (second : Grounded names gs) :
    Grounded names (binaryFragments op left right fs gs) := by
  unfold binaryFragments
  split_ifs
  · exact append first.string (plain " + " second.string)
  · exact plain "(" (append first (between second (" " ++ op.symbol ++ " ") ")"))

theorem item (h : Grounded names fs) : Grounded names (itemFragments fs) := by
  unfold itemFragments
  split_ifs
  · exact own (.word (by decide)) nil
  · exact own (.word (by decide)) nil
  · exact h

theorem builtin {b : Builtin} (member : b ∈ Catalog.functions) (hidden : names.isDeclared b.name = false)
    {args : List (List Fragment)} (each : ∀ arg ∈ args, Grounded names arg) :
    Grounded names (builtinFragments b args) := by
  unfold builtinFragments
  cases form : b.form with
  | byHostText => exact call (own (.function member (by rw [form]; nofun) hidden) nil) each
  | byName => exact call (own (.bound member (.inl form) hidden) nil) each
  | parenthesized =>
    exact call (plain "(" (own (.function member (by rw [form]; nofun) hidden) (plain ")" nil))) each
  | printing newline => exact printing (comma each) newline
  | append =>
    have fallback := call (own (.bound member (.inr form) hidden) nil) each
    match args with
    | [] => exact fallback
    | [_] => exact fallback
    | [list, item] =>
      exact append (each list (by simp)) (between (each item (by simp)) ".append(" ")")
    | _ :: _ :: _ :: _ => exact fallback

theorem namedCall {callee : String} {args : List (List Fragment)} (each : ∀ arg ∈ args, Grounded names arg) :
    Grounded names (namedCallFragments names callee args) := by
  have itself : Grounded names (callFragments [.plain callee] args) := call (plain callee nil) each
  unfold namedCallFragments
  cases found : builtinFor? names callee with
  | none => exact itself
  | some b =>
    obtain ⟨member, isName, hidden⟩ := mem_of_builtinFor? found
    rw [← isName] at hidden
    exact builtin member hidden each

theorem name (text : String) : Grounded names (nameFragments names text) := by
  unfold nameFragments
  cases found : Catalog.constant? text with
  | none => exact plain text nil
  | some c =>
    cases names.isDeclared text with
    | true => exact plain text nil
    | false => exact own (.constant (List.mem_of_find?_eq_some found)) nil

mutual

theorem expr (names : NameScopes) : ∀ e : Expr, Grounded names (exprFragments names e)
  | .binary _ left right => by
    rw [exprFragments]
    exact binary (expr names left) (expr names right)
  | .call _ args => by
    rw [exprFragments]
    exact namedCall (exprs names args)
  | .name n => by
    rw [exprFragments]
    exact name n.text
  | .number value => by
    rw [exprFragments]
    exact plain value.text nil
  | .str value => by
    rw [exprFragments]
    exact plain (stringLiteral value) nil
  | .list items => by
    rw [exprFragments]
    refine between (comma fun written member => ?_) "[" "]"
    obtain ⟨first, inItems, rfl⟩ := List.mem_map.1 member
    exact item (exprs names items first inItems)

theorem exprs (names : NameScopes) : ∀ es : List Expr, ∀ fs ∈ exprsFragments names es, Grounded names fs
  | [], _, member => by cases member
  | e :: rest, fs, member => by
    rw [exprsFragments] at member
    rcases List.mem_cons.1 member with rfl | later
    · exact expr names e
    · exact exprs names rest fs later

end

theorem header (names : NameScopes) (s : Stmt) : Grounded names (headerFragments names s) := by
  cases s with
  | declare target type value =>
    cases value with
    | none => exact plain _ (own (.word (by decide)) nil)
    | some value => exact plain _ (expr names value)
  | function => exact plain _ nil
  | branch condition => exact between (expr names condition) "if " ":"
  | loop condition => exact between (expr names condition) "while " ":"
  | each item iterable => exact between (expr names iterable) _ ":"
  | print value newline => exact printing (expr names value) newline
  | eval value => exact expr names value
  | assign target value => exact plain _ (expr names value)

end Grounded

/-! ## Names known along a program -/

/-- Every name introduced in an open scope has the property. -/
def NameScopes.Within (known : String → Prop) (names : NameScopes) : Prop :=
  ∀ name, names.isDeclared name → known name

namespace NameScopes.Within

variable {known : String → Prop} {names : NameScopes}

theorem declare (h : names.Within known) {name : String} (isKnown : known name) :
    (names.declare name).Within known := by
  intro other declared
  have cases : other = name ∨ names.isDeclared other := by
    rcases names with ⟨_ | ⟨scope, outer⟩, globals⟩
    · simpa [isDeclared, NameScopes.declare, Scopes.modifyInnermost, Scopes.toList] using declared
    · simpa [isDeclared, NameScopes.declare, Scopes.modifyInnermost, Scopes.toList, or_assoc] using declared
  rcases cases with rfl | earlier
  · exact isKnown
  · exact h other earlier

theorem push (h : names.Within known) {scope : List String} (areKnown : ∀ name ∈ scope, known name) :
    Within known (names.push scope) := by
  intro other declared
  have cases : other ∈ scope ∨ names.isDeclared other := by
    simpa [isDeclared] using declared
  rcases cases with inner | earlier
  · exact areKnown other inner
  · exact h other earlier

theorem pop (h : names.Within known) : Within known names.pop := by
  intro other declared
  refine h other ?_
  rcases names with ⟨_ | ⟨scope, outer⟩, globals⟩
  · exact declared
  · have earlier : (∃ scope ∈ outer, other ∈ scope) ∨ other ∈ globals := by
      simpa [isDeclared, Scopes.pop, Scopes.toList] using declared
    simpa [isDeclared, Scopes.toList, or_assoc] using Or.inr earlier

end NameScopes.Within

section Known

variable {known : String → Prop}

mutual

/-- What is known of the names before a statement and of those that it introduces is known after it. -/
theorem within_stmtLines : ∀ (s : Stmt) (names : NameScopes) (depth : Nat), names.Within known →
    (∀ name ∈ s.introduced, known name) → (stmtLines names depth s).2.Within known
  | .declare name _ _, names, depth, h, new => h.declare (new name.text (by simp [Stmt.introduced]))
  | .function name params _ body, names, depth, h, new => by
    simp only [Stmt.introduced, List.forall_mem_cons, List.forall_mem_append] at new
    exact (within_stmtsLines body _ (depth + 1) ((h.declare new.1).push new.2.1) new.2.2).pop
  | .branch _ yes no, names, depth, h, new => by
    simp only [Stmt.introduced, List.forall_mem_append] at new
    exact within_elseLines no _ depth (within_stmtsLines yes names (depth + 1) h new.1) new.2
  | .loop _ body, names, depth, h, new => within_stmtsLines body names (depth + 1) h new
  | .each item _ body, names, depth, h, new => by
    simp only [Stmt.introduced, List.forall_mem_cons] at new
    exact within_stmtsLines body _ (depth + 1) (h.declare new.1) new.2
  | .print _ _, names, depth, h, _ => h
  | .eval _, names, depth, h, _ => h
  | .assign target _, names, depth, h, new => h.declare (new target.text (by simp [Stmt.introduced]))

theorem within_stmtsLines : ∀ (p : List Stmt) (names : NameScopes) (depth : Nat), names.Within known →
    (∀ name ∈ Stmt.introducedAll p, known name) → (stmtsLines names depth p).2.Within known
  | [], _, _, h, _ => h
  | s :: rest, names, depth, h, new => by
    simp only [Stmt.introducedAll, List.forall_mem_append] at new
    exact within_stmtsLines rest _ depth (within_stmtLines s names depth h new.1) new.2

theorem within_elseLines : ∀ (no : Option (List Stmt)) (names : NameScopes) (depth : Nat), names.Within known →
    (∀ name ∈ Stmt.introducedElse no, known name) → (elseLines names depth no).2.Within known
  | none, _, _, h, _ => h
  | some [], _, _, h, _ => h
  | some (s :: rest), names, depth, h, new => by
    simp only [Stmt.introducedElse, Stmt.introducedAll, List.forall_mem_append] at new
    exact within_stmtsLines rest _ (depth + 1) (within_stmtLines s names (depth + 1) h new.1) new.2

end

/-- The draft's own text comes from where it may, and the names at the draft are known. -/
structure Draft.Sound (known : String → Prop) (d : Draft) : Prop where
  grounded : Grounded d.names d.fragments
  within : d.names.Within known

theorem sound_header {names : NameScopes} (h : names.Within known) (depth : Nat) (s : Stmt) :
    Draft.Sound known ⟨depth, names, headerFragments names s⟩ :=
  ⟨Grounded.header names s, h⟩

theorem sound_blockDrafts {header : Draft} {body : List Draft} (first : header.Sound known)
    (others : ∀ d ∈ body, d.Sound known) : ∀ d ∈ blockDrafts header body, d.Sound known := by
  intro d member
  rcases List.mem_cons.1 member with rfl | inBody
  · exact first
  · cases body with
    | nil =>
      obtain rfl := List.mem_singleton.1 inBody
      exact ⟨.plain "pass" .nil, first.within⟩
    | cons => exact others d inBody

mutual

theorem sound_stmtDrafts : ∀ (s : Stmt) (names : NameScopes) (depth : Nat), names.Within known →
    (∀ name ∈ s.introduced, known name) → ∀ d ∈ stmtDrafts names depth s, d.Sound known
  | .function name params result body, names, depth, h, new => by
    simp only [Stmt.introduced, List.forall_mem_cons, List.forall_mem_append] at new
    exact sound_blockDrafts (sound_header h depth _)
      (sound_stmtsDrafts body _ (depth + 1) ((h.declare new.1).push new.2.1) new.2.2)
  | .branch condition yes no, names, depth, h, new => by
    simp only [Stmt.introduced, List.forall_mem_append] at new
    have first := sound_blockDrafts (sound_header h depth (.branch condition yes no))
      (sound_stmtsDrafts yes names (depth + 1) h new.1)
    have second := sound_elseDrafts no _ depth (within_stmtsLines yes names (depth + 1) h new.1) new.2
    intro d member
    rcases List.mem_append.1 member with inFirst | inSecond
    · exact first d inFirst
    · exact second d inSecond
  | .loop condition body, names, depth, h, new =>
    sound_blockDrafts (sound_header h depth _) (sound_stmtsDrafts body names (depth + 1) h new)
  | .each item iterable body, names, depth, h, new => by
    simp only [Stmt.introduced, List.forall_mem_cons] at new
    exact sound_blockDrafts (sound_header h depth _)
      (sound_stmtsDrafts body _ (depth + 1) (h.declare new.1) new.2)
  | .declare _ _ _, _, depth, h, _ => List.forall_mem_singleton.2 (sound_header h depth _)
  | .print _ _, _, depth, h, _ => List.forall_mem_singleton.2 (sound_header h depth _)
  | .eval _, _, depth, h, _ => List.forall_mem_singleton.2 (sound_header h depth _)
  | .assign _ _, _, depth, h, _ => List.forall_mem_singleton.2 (sound_header h depth _)

theorem sound_stmtsDrafts : ∀ (p : List Stmt) (names : NameScopes) (depth : Nat), names.Within known →
    (∀ name ∈ Stmt.introducedAll p, known name) → ∀ d ∈ stmtsDrafts names depth p, d.Sound known
  | [], _, _, _, _ => nofun
  | s :: rest, names, depth, h, new => by
    simp only [Stmt.introducedAll, List.forall_mem_append] at new
    intro d member
    rcases List.mem_append.1 member with inFirst | inRest
    · exact sound_stmtDrafts s names depth h new.1 d inFirst
    · exact sound_stmtsDrafts rest _ depth (within_stmtLines s names depth h new.1) new.2 d inRest

theorem sound_elseDrafts : ∀ (no : Option (List Stmt)) (names : NameScopes) (depth : Nat), names.Within known →
    (∀ name ∈ Stmt.introducedElse no, known name) → ∀ d ∈ elseDrafts names depth no, d.Sound known
  | none, _, _, _, _ => nofun
  | some [], _, _, _, _ => nofun
  | some (s :: rest), names, depth, h, new => by
    simp only [Stmt.introducedElse, Stmt.introducedAll, List.forall_mem_append] at new
    refine sound_blockDrafts ⟨.plain "else:" .nil, h⟩ fun d member => ?_
    rcases List.mem_append.1 member with inFirst | inRest
    · exact sound_stmtDrafts s names (depth + 1) h new.1 d inFirst
    · exact sound_stmtsDrafts rest _ (depth + 1) (within_stmtLines s names (depth + 1) h new.1) new.2 d inRest

end

end Known

/-! ## Captured names -/

/-- A name of the host that a program captures is one of the exposed ones, and one that the program introduces. -/
theorem exposed_of_captured {source : String} {p : Program} (read : Program.ofSource source = .ok p) :
    ∀ name ∈ captured p, name ∈ exposedNames ∧ name ∈ Stmt.introducedAll p := by
  intro name member
  obtain ⟨d, inDrafts, inDraft⟩ := List.mem_flatMap.1 member
  obtain ⟨free, declared⟩ := List.mem_filter.1 inDraft
  obtain ⟨fragment, inFragments, inFree⟩ := List.mem_flatMap.1 free
  have nothing : (NameScopes.Within (· ∈ Stmt.introducedAll p)) (.ofGlobals []) := by
    intro other known
    simp [NameScopes.isDeclared, Scopes.ofGlobals, Scopes.toList] at known
  have sound := sound_stmtsDrafts p _ 0 nothing (fun _ introduced => introduced) d inDrafts
  have introduced := sound.within name declared
  refine ⟨?_, introduced⟩
  cases fragment with
  | plain text => cases inFree
  | own text =>
    rcases (sound.grounded text inFragments).exposed_or_printing inFree declared with exposed | rfl
    · exact exposed
    · have keyword : ("print", Kind.printKeyword) ∈ keywords := by decide
      exact absurd rfl (Program.introduced_ne_keyword read introduced keyword)

/-- The text of a compiled program is the prologue and its drafts, and whatever name of the host the program
captures in them is an exposed one that it introduces.  So a program that introduces no exposed name captures
nothing: all own text in it means what the catalog says. -/
theorem captured_exposed {source : String} {artifact : Artifact}
    (compiled : Artifact.ofSource source = .ok artifact) :
    artifact.text =
        joinLines (prologue :: "" :: (programDrafts artifact.program).map fun d => d.line.render) ∧
      (∀ name ∈ captured artifact.program,
        name ∈ exposedNames ∧ name ∈ Stmt.introducedAll artifact.program) ∧
      ((∀ name ∈ exposedNames, name ∉ Stmt.introducedAll artifact.program) →
        captured artifact.program = []) := by
  obtain ⟨read, written⟩ := Artifact.ofSource_eq_ok compiled
  have exposed := exposed_of_captured read
  refine ⟨written.trans (moduleText_eq_drafts artifact.program), exposed, fun avoids => ?_⟩
  refine List.eq_nil_iff_forall_not_mem.2 fun name member => ?_
  exact avoids name (exposed name member).1 (exposed name member).2

/-- A number that the program calls `math` stands where the text for the square root needs the module of that
name.  A program may take the name of the square root itself. -/
theorem captured_exposed_math :
    (∃ artifact, Artifact.ofSource "let math = 16;\nprintln(sqrt(math));" = .ok artifact ∧
      (programDrafts artifact.program).map Draft.line =
        [⟨0, "math = 16"⟩, ⟨0, "print(math.sqrt(math))"⟩] ∧
      captured artifact.program = ["math"] ∧ "math" ∈ exposedNames ∧
      "math" ∈ Stmt.introducedAll artifact.program) ∧
    ∃ artifact, Artifact.ofSource "fn sqrt(abs) \x7b println(abs + PI); \x7d sqrt(average([2]));" = .ok artifact ∧
      (∀ name ∈ exposedNames, name ∉ Stmt.introducedAll artifact.program) ∧
      captured artifact.program = [] := by
  have captures : Artifact.compilesTo "let math = 16;\nprintln(sqrt(math));" fun artifact =>
      (programDrafts artifact.program).map Draft.line =
        [⟨0, "math = 16"⟩, ⟨0, "print(math.sqrt(math))"⟩] ∧
      captured artifact.program = ["math"] := by decide +kernel
  have avoids : Artifact.compilesTo "fn sqrt(abs) \x7b println(abs + PI); \x7d sqrt(average([2]));" fun artifact =>
      ∀ name ∈ exposedNames, name ∉ Stmt.introducedAll artifact.program := by decide +kernel
  obtain ⟨artifact, compiled, facts⟩ := Artifact.exists_of_compilesTo captures
  obtain ⟨other, compiledOther, facts'⟩ := Artifact.exists_of_compilesTo avoids
  obtain ⟨lines, names⟩ := of_decide_eq_true facts
  have introducesNone := of_decide_eq_true facts'
  have isCaptured : "math" ∈ captured artifact.program := by rw [names]; simp
  refine ⟨⟨artifact, compiled, lines, names, ?_⟩, other, compiledOther, introducesNone, ?_⟩
  · exact (captured_exposed compiled).2.1 "math" isCaptured
  · exact (captured_exposed compiledOther).2.2 introducesNone

/-- For each exposed name, an expression whose text relies on it. -/
def exposedUses : List (String × String) :=
  [("math", "sqrt(4)"), ("list", "pop([1])"), ("sum", "average([1])"), ("len", "average([1])"),
    ("max", "max_list([1])"), ("min", "min_list([1])"), ("datetime", "time()"), ("isinstance", "is_int(1)"),
    ("int", "is_int(1)"), ("float", "is_float(1)"), ("str", "\"a\"+1"), ("bool", "is_bool(1)")]

/-- None of the exposed names is safe: a program that introduces it and nothing else may capture it. -/
theorem exists_captured {name : String} (exposed : name ∈ exposedNames) :
    ∃ source artifact, Artifact.ofSource source = .ok artifact ∧
      Stmt.introducedAll artifact.program = [name] ∧ name ∈ captured artifact.program := by
  have names : exposedNames = exposedUses.map Prod.fst := by decide
  have samples : ∀ use ∈ exposedUses, Artifact.compilesTo ("let " ++ use.1 ++ "=1;" ++ use.2 ++ ";")
      fun artifact => Stmt.introducedAll artifact.program = [use.1] ∧ use.1 ∈ captured artifact.program := by
    decide +kernel
  rw [names] at exposed
  obtain ⟨use, member, rfl⟩ := List.mem_map.1 exposed
  obtain ⟨artifact, compiled, facts⟩ := Artifact.exists_of_compilesTo (samples use member)
  exact ⟨_, artifact, compiled, of_decide_eq_true facts⟩

end Host

end ToraCompiler
