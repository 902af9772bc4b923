import ToraCompiler.Proofs.Tree.Introduced
import ToraCompiler.Proofs.Tree.Phrase

/-!
# The words and the numbers of a tree

The names and the numbers in the tree of a program are those of its tokens.  `Stmt.All` says of a tree that all
its names and all its numbers have some property, and `Grammar.Statement.all` that the tree of a row of tokens
has it if the tokens do.  Hence in a program that is read from a source every name is a word, and every number
is one that digits denote (`Program.all_of_ofSource`).
-/

namespace ToraCompiler

/-! ## Properties of all names and numbers -/

section

variable (word : String → Prop) (number : Number → Prop)

mutual

/-- All names and numbers of an expression have the properties. -/
def Expr.All : Expr → Prop
  | .binary _ left right => left.All ∧ right.All
  | .call callee args => word callee.text ∧ Expr.AllOf args
  | .name n => word n.text
  | .number value => number value
  | .str _ => True
  | .list items => Expr.AllOf items

/-- All names and numbers of expressions have the properties. -/
def Expr.AllOf : List Expr → Prop
  | [] => True
  | e :: rest => e.All ∧ Expr.AllOf rest

end

mutual

/-- All names and numbers of a statement have the properties, parameters included and types left out. -/
def Stmt.All : Stmt → Prop
  | .declare name _ value => word name.text ∧ ∀ e ∈ value, e.All word number
  | .function name params _ body => word name.text ∧ (∀ p ∈ params, word p.name.text) ∧ Stmt.AllOf body
  | .branch condition yes no => condition.All word number ∧ Stmt.AllOf yes ∧ Stmt.AllElse no
  | .loop condition body => condition.All word number ∧ Stmt.AllOf body
  | .each item iterable body => word item.text ∧ iterable.All word number ∧ Stmt.AllOf body
  | .print value _ => value.All word number
  | .eval value => value.All word number
  | .assign target value => word target.text ∧ value.All word number

/-- All names and numbers of statements have the properties. -/
def Stmt.AllOf : List Stmt → Prop
  | [] => True
  | s :: rest => s.All ∧ Stmt.AllOf rest

/-- All names and numbers of the second block of a branch have the properties. -/
def Stmt.AllElse : Option (List Stmt) → Prop
  | none => True
  | some body => Stmt.AllOf body

end

/-- What a token spells has the properties: its text if it is a name, and what it denotes if it is a number,
with and without a minus of its own. -/
structure Token.Spells (t : Token) : Prop where
  name : t.kind = .identifier → word t.text
  value : t.kind = .number → number t.numberValue
  magnitude : t.isNegativeNumber → number t.dropFirst.numberValue

end

namespace Grammar

variable {word : String → Prop} {number : Number → Prop}

/-! ## Expressions -/

mutual

theorem Phrase.all : ∀ {us : List Token} {e : Expr}, Phrase us e → (∀ t ∈ us, t.Spells word number) →
    e.All word number
  | _, _, .number kind, spelled => (spelled _ List.mem_cons_self).value kind
  | _, _, .magnitude negative, spelled => (spelled _ List.mem_cons_self).magnitude negative
  | _, _, .string _, _ => trivial
  | _, _, .name kind, spelled => (spelled _ List.mem_cons_self).name kind
  | _, _, .call kind _ args _, spelled =>
    ⟨(spelled _ List.mem_cons_self).name kind, args.all fun t member => spelled t (by simp [member])⟩
  | _, _, .parens _ inner _, spelled => inner.all fun t member => spelled t (by simp [member])
  | _, _, .list _ items _, spelled => items.all fun t member => spelled t (by simp [member])
  | _, _, .operation left _ right, spelled =>
    ⟨left.all fun t member => spelled t (by simp [member]), right.all fun t member => spelled t (by simp [member])⟩
  | _, _, .folded left right, spelled =>
    ⟨left.all fun t member => spelled t (by simp [member]), right.all fun t member => spelled t (by simp [member])⟩

theorem Phrases.all : ∀ {us : List Token} {es : List Expr}, Phrases us es → (∀ t ∈ us, t.Spells word number) →
    Expr.AllOf word number es
  | _, _, .nil, _ => trivial
  | _, _, .comma _ rest, spelled => rest.all fun t member => spelled t (by simp [member])
  | _, _, .cons first rest, spelled =>
    ⟨first.all fun t member => spelled t (by simp [member]), rest.all fun t member => spelled t (by simp [member])⟩

end

/-- All names and numbers of an expression are those of its tokens. -/
theorem Expression.all {us : List Token} {e : Expr} (h : Expression us e)
    (spelled : ∀ t ∈ us, t.Spells word number) : e.All word number :=
  h.phrase.all spelled

/-! ## Statements -/

theorem Params.all {us : List Token} {params : List Param} (h : Items Parameter us params)
    (spelled : ∀ t ∈ us, t.Spells word number) : ∀ p ∈ params, word p.name.text := by
  intro p member
  rcases h.spell p member with ⟨t, inRow, kind, text⟩
  rw [← text]
  exact (spelled t inRow).name kind

/-- The statements of a block make up a row inside the block. -/
theorem Block.inner {us : List Token} {body : List Stmt} (h : Block us body)
    (spelled : ∀ t ∈ us, t.Spells word number) :
    ∃ vs, Sequence Statement vs body ∧ ∀ t ∈ vs, t.Spells word number := by
  cases h with
  | intro _ sequence _ => exact ⟨_, sequence, fun t member => spelled t (by simp [member])⟩

mutual

/-- All names and numbers of a statement are those of its tokens. -/
theorem Statement.all : ∀ (s : Stmt) {us : List Token}, Statement us s →
    (∀ t ∈ us, t.Spells word number) → s.All word number
  | .declare _ _ _, us, h, spelled => by
    cases h with
    | declare _ kind _ _ value _ =>
      refine ⟨(spelled _ (by simp)).name kind, fun e member => ?_⟩
      obtain rfl := Option.some.inj member
      exact value.all fun t member => spelled t (by simp [member])
  | .function _ params _ body, us, h, spelled => by
    cases h with
    | function _ kind _ items _ _ block =>
      rcases block.inner fun t member => spelled t (by simp [member]) with ⟨vs, sequence, spelledBody⟩
      exact ⟨(spelled _ (by simp)).name kind, Params.all items fun t member => spelled t (by simp [member]),
        Sequence.all body sequence spelledBody⟩
  | .branch _ yes none, us, h, spelled => by
    cases h with
    | branch _ _ condition _ block =>
      rcases block.inner fun t member => spelled t (by simp [member]) with ⟨vs, sequence, spelledYes⟩
      exact ⟨condition.all fun t member => spelled t (by simp [member]),
        Sequence.all yes sequence spelledYes, trivial⟩
  | .branch _ yes (some no), us, h, spelled => by
    cases h with
    | branchElse _ _ condition _ block _ other =>
      rcases block.inner fun t member => spelled t (by simp [member]) with ⟨vs, sequence, spelledYes⟩
      rcases other.inner fun t member => spelled t (by simp [member]) with ⟨ws, otherwise, spelledNo⟩
      exact ⟨condition.all fun t member => spelled t (by simp [member]),
        Sequence.all yes sequence spelledYes, Sequence.all no otherwise spelledNo⟩
  | .loop _ body, us, h, spelled => by
    cases h with
    | loopParens _ _ condition _ block =>
      rcases block.inner fun t member => spelled t (by simp [member]) with ⟨vs, sequence, spelledBody⟩
      exact ⟨condition.all fun t member => spelled t (by simp [member]),
        Sequence.all body sequence spelledBody⟩
    | loop _ condition _ block =>
      rcases block.inner fun t member => spelled t (by simp [member]) with ⟨vs, sequence, spelledBody⟩
      exact ⟨condition.all fun t member => spelled t (by simp [member]),
        Sequence.all body sequence spelledBody⟩
  | .each _ _ body, us, h, spelled => by
    cases h with
    | eachIn _ kind _ iterable block =>
      rcases block.inner fun t member => spelled t (by simp [member]) with ⟨vs, sequence, spelledBody⟩
      exact ⟨(spelled _ (by simp)).name kind, iterable.all fun t member => spelled t (by simp [member]),
        Sequence.all body sequence spelledBody⟩
    | each _ kind iterable _ block =>
      rcases block.inner fun t member => spelled t (by simp [member]) with ⟨vs, sequence, spelledBody⟩
      exact ⟨(spelled _ (by simp)).name kind, iterable.all fun t member => spelled t (by simp [member]),
        Sequence.all body sequence spelledBody⟩
  | .print _ _, us, h, spelled => by
    cases h with
    | print _ _ value _ _ => exact value.all fun t member => spelled t (by simp [member])
  | .eval _, us, h, spelled => by
    cases h with
    | giveBack _ value _ => exact value.all fun t member => spelled t (by simp [member])
    | eval value _ => exact value.all fun t member => spelled t (by simp [member])
  | .assign _ _, us, h, spelled => by
    cases h with
    | assign kind _ value _ =>
      exact ⟨(spelled _ (by simp)).name kind, value.all fun t member => spelled t (by simp [member])⟩

theorem Sequence.all : ∀ (p : List Stmt) {us : List Token}, Sequence Statement us p →
    (∀ t ∈ us, t.Spells word number) → Stmt.AllOf word number p
  | [], _, _, _ => trivial
  | s :: rest, us, h, spelled => by
    cases h with
    | cons first others =>
      rcases List.forall_mem_append.1 spelled with ⟨spelledFirst, spelledRest⟩
      exact ⟨Statement.all s first spelledFirst, Sequence.all rest others spelledRest⟩

end

end Grammar

/-! ## Programs that are read from a source -/

/-- A word: a letter or the like, and then letters and digits. -/
def IsWord (cs : List Char) : Prop :=
  ∃ c ds, cs = c :: ds ∧ isWordStart c ∧ ∀ d ∈ ds, isWordPart d

/-- A number that is written with digits, and maybe a point and a minus. -/
def Number.IsWritten (value : Number) : Prop :=
  ∃ cs, IsNumeral cs ∧ Number.ofLiteral? (String.ofList cs) = some value

/-- The text of an identifier is a word. -/
theorem Lexeme.isWord {cs : List Char} (h : Lexeme (some .identifier) cs) : IsWord cs := by
  cases h with
  | keyword member =>
    have others : ∀ entry ∈ keywords, entry.2 ≠ .identifier := by decide
    exact absurd rfl (others _ member)
  | identifier start parts => exact ⟨_, _, rfl, start, parts⟩
  | mark member =>
    have others : ∀ mark ∈ marks, mark.2 ≠ .identifier := by decide
    exact absurd rfl (others _ member)

theorem Token.isWritten_numberValue {t : Token} (spelled : IsNumeral t.text.toList)
    (denotes : ∃ value, Number.ofLiteral? t.text = some value) : t.numberValue.IsWritten := by
  rcases denotes with ⟨value, denotes⟩
  refine ⟨t.text.toList, spelled, ?_⟩
  rw [String.ofList_toList, Token.numberValue, denotes]
  rfl

/-- The tokens of a source spell words and written numbers. -/
theorem spells_of_tokensOf {source : String} {ts : List Token} (scanned : tokensOf source = .ok ts) :
    ∀ t ∈ ts, t.Spells (fun text => IsWord text.toList) Number.IsWritten := by
  intro t member
  have wellSpelled := wellSpelled_of_tokensOf scanned t member
  refine ⟨fun kind => ?_, fun kind => ?_, fun negative => ?_⟩
  · have lexeme := Token.lexeme_of_tokensOf scanned member (by rw [kind]; nofun)
    rw [kind] at lexeme
    exact lexeme.isWord
  · exact Token.isWritten_numberValue (wellSpelled.number kind) (wellSpelled.hasValue kind).1
  · have magnitude := (wellSpelled.number negative.1).magnitude negative.2
    refine Token.isWritten_numberValue ?_ ((wellSpelled.hasValue negative.1).2 negative)
    rw [Token.dropFirst, String.toList_ofList]
    exact .inl magnitude

/-- Every name in a program that is read from a source is a word, and every number one that is written with
digits. -/
theorem Program.all_of_ofSource {source : String} {p : Program} (read : Program.ofSource source = .ok p) :
    Stmt.AllOf (fun text => IsWord text.toList) Number.IsWritten p := by
  rcases Program.ofSource_eq_ok_iff.1 read with ⟨ts, scanned, parsed⟩
  refine Grammar.Sequence.all p (Program.derivable_of_ofTokens parsed) fun t member => ?_
  exact spells_of_tokensOf scanned t (List.takeWhile_subset _ member)

end ToraCompiler
