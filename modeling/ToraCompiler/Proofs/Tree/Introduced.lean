import ToraCompiler.Proofs.Compilation.Batch
import ToraCompiler.Proofs.Token.Lexemes
import ToraCompiler.Proofs.Tree.Acceptance

/-!
# Names that a program introduces

A program introduces names by declaring variables, functions and parameters, by naming the item of a loop, and
by assigning.  Each such name is spelled by an identifier in the source (`Grammar.Statement.spell`), so no
program introduces a keyword (`Program.introduced_ne_keyword`).
-/

namespace ToraCompiler

mutual

/-- The names that a statement introduces, in whatever scope. -/
def Stmt.introduced : Stmt → List String
  | .declare name _ _ => [name.text]
  | .function name params _ body =>
    name.text :: (params.map (·.name.text) ++ Stmt.introducedAll body)
  | .branch _ yes no => Stmt.introducedAll yes ++ Stmt.introducedElse no
  | .loop _ body => Stmt.introducedAll body
  | .each item _ body => item.text :: Stmt.introducedAll body
  | .print _ _ => []
  | .eval _ => []
  | .assign target _ => [target.text]

/-- The names that statements introduce. -/
def Stmt.introducedAll : List Stmt → List String
  | [] => []
  | s :: rest => s.introduced ++ Stmt.introducedAll rest

/-- The names that the second block of a branch introduces. -/
def Stmt.introducedElse : Option (List Stmt) → List String
  | none => []
  | some body => Stmt.introducedAll body

end

/-! ## Introduced names are identifiers -/

/-- Some of the tokens is an identifier with this text. -/
def Token.Spell (us : List Token) (name : String) : Prop :=
  ∃ t ∈ us, t.kind = .identifier ∧ t.text = name

namespace Token.Spell

variable {us vs : List Token} {name : String}

theorem here {t : Token} (kind : t.kind = .identifier) : Spell (t :: us) t.toName.text :=
  ⟨t, List.mem_cons_self, kind, rfl⟩

theorem behind {t : Token} (h : Spell us name) : Spell (t :: us) name := by
  obtain ⟨u, member, kind, text⟩ := h
  exact ⟨u, List.mem_cons_of_mem t member, kind, text⟩

theorem left (h : Spell us name) : Spell (us ++ vs) name := by
  obtain ⟨u, member, kind, text⟩ := h
  exact ⟨u, List.mem_append_left vs member, kind, text⟩

theorem right (h : Spell vs name) : Spell (us ++ vs) name := by
  obtain ⟨u, member, kind, text⟩ := h
  exact ⟨u, List.mem_append_right us member, kind, text⟩

end Token.Spell

namespace Grammar

open Token (Spell)

theorem Parameter.spell {us : List Token} {param : Param} (h : Parameter us param) :
    Spell us param.name.text := by
  cases h with
  | intro kind annotation => exact .here kind

theorem MoreItems.spell {us : List Token} {params : List Param} (h : MoreItems Parameter us params) :
    ∀ param ∈ params, Spell us param.name.text := by
  induction h with
  | nil => nofun
  | cons _ first _ ih =>
    intro param member
    rcases List.mem_cons.1 member with rfl | later
    · exact first.spell.left.behind
    · exact (ih param later).right.behind

theorem Items.spell {us : List Token} {params : List Param} (h : Items Parameter us params) :
    ∀ param ∈ params, Spell us param.name.text := by
  cases h with
  | nil => nofun
  | cons first more =>
    intro param member
    rcases List.mem_cons.1 member with rfl | later
    · exact first.spell.left
    · exact (more.spell param later).right

/-- What the statements of a block spell is spelled in the block. -/
theorem Block.spell {us : List Token} {body : List Stmt} (h : Block us body) {name : String}
    (spells : ∀ vs, Sequence Statement vs body → Spell vs name) : Spell us name := by
  cases h with
  | intro _ sequence _ => exact (spells _ sequence).left.behind

mutual

/-- Every name that a statement introduces is spelled by an identifier of its tokens. -/
theorem Statement.spell : ∀ (s : Stmt) {us : List Token}, Statement us s →
    ∀ name ∈ s.introduced, Spell us name
  | .declare _ _ _, us, h, name, member => by
    obtain rfl := List.mem_singleton.1 member
    cases h with
    | declare _ kind => exact (Spell.here kind).behind
  | .function _ params _ body, us, h, name, member => by
    cases h with
    | function _ kind _ items _ _ block =>
      rcases List.mem_cons.1 member with rfl | inRest
      · exact (Spell.here kind).behind
      rcases List.mem_append.1 inRest with inParams | inBody
      · obtain ⟨param, isParam, rfl⟩ := List.mem_map.1 inParams
        exact (items.spell param isParam).left.behind.behind.behind
      · have inBlock := block.spell fun _ sequence => Sequence.spell body sequence name inBody
        exact inBlock.right.behind.right.behind.behind.behind
  | .branch _ yes none, us, h, name, member => by
    cases h with
    | branch _ _ _ _ block =>
      rcases List.mem_append.1 member with inYes | inNo
      · have inBlock := block.spell fun _ sequence => Sequence.spell yes sequence name inYes
        exact inBlock.behind.right.behind.behind
      · cases inNo
  | .branch _ yes (some no), us, h, name, member => by
    cases h with
    | branchElse _ _ _ _ block _ other =>
      rcases List.mem_append.1 member with inYes | inNo
      · have inBlock := block.spell fun _ sequence => Sequence.spell yes sequence name inYes
        exact inBlock.left.behind.right.behind.behind
      · have inOther := other.spell fun _ sequence => Sequence.spell no sequence name inNo
        exact inOther.behind.right.behind.right.behind.behind
  | .loop _ body, us, h, name, member => by
    have inBody : ∀ vs, Sequence Statement vs body → Spell vs name :=
      fun _ sequence => Sequence.spell body sequence name member
    cases h with
    | loopParens _ _ _ _ block => exact (block.spell inBody).behind.right.behind.behind
    | loop _ _ _ block => exact (block.spell inBody).right.behind
  | .each _ _ body, us, h, name, member => by
    cases h with
    | eachIn _ kind _ _ block =>
      rcases List.mem_cons.1 member with rfl | inBody
      · exact (Spell.here kind).behind
      · have inBlock := block.spell fun _ sequence => Sequence.spell body sequence name inBody
        exact inBlock.right.behind.behind.behind
    | each _ kind _ _ block =>
      rcases List.mem_cons.1 member with rfl | inBody
      · exact (Spell.here kind).behind
      · have inBlock := block.spell fun _ sequence => Sequence.spell body sequence name inBody
        exact inBlock.right.behind.behind
  | .print _ _, _, _, _, member => by cases member
  | .eval _, _, _, _, member => by cases member
  | .assign _ _, us, h, name, member => by
    obtain rfl := List.mem_singleton.1 member
    cases h with
    | assign kind => exact .here kind

theorem Sequence.spell : ∀ (p : List Stmt) {us : List Token}, Sequence Statement us p →
    ∀ name ∈ Stmt.introducedAll p, Spell us name
  | [], _, _, _, member => by cases member
  | s :: rest, us, h, name, member => by
    cases h with
    | cons first others =>
      rcases List.mem_append.1 member with inFirst | inRest
      · exact (Statement.spell s first name inFirst).left
      · exact (Sequence.spell rest others name inRest).right

end

end Grammar

/-- No program that is read from a source introduces a keyword. -/
theorem Program.introduced_ne_keyword {source : String} {p : Program} {name : String} {entry : String × Kind}
    (read : Program.ofSource source = .ok p) (member : name ∈ Stmt.introducedAll p)
    (keyword : entry ∈ keywords) : name ≠ entry.1 := by
  obtain ⟨ts, scanned, parsed⟩ := Program.ofSource_eq_ok_iff.1 read
  have derived := Program.derivable_of_ofTokens parsed
  obtain ⟨t, inRow, kind, rfl⟩ := Grammar.Sequence.spell p derived name member
  have inScan : t ∈ (Scan.ofText source).tokens := by
    rw [tokensOf_eq_ok_iff.1 scanned]
    exact List.takeWhile_subset _ inRow
  have stands : t.Stands := Scan.stands_of_mem_walk inScan (by rw [kind]; nofun)
  have found := stands.found [] nofun
  intro same
  have isKeyword := (Piece.kind_eq_keyword_iff found keyword).2 (congrArg String.toList same)
  have others : ∀ entry ∈ keywords, entry.2 ≠ .identifier := by decide
  exact others entry keyword (by rw [← kind]; exact (Option.some.inj isKeyword).symm)

end ToraCompiler
