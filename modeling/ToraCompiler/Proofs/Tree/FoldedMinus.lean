import ToraCompiler.Proofs.Compilation.Layout
import ToraCompiler.Proofs.Tree.FirstOffence
import ToraCompiler.Proofs.Tree.Resumption

/-!
# A number with a minus of its own is a subtraction

Where a sum may go on, a number with a minus of its own and a minus with a number behind it are read alike
(`Reader.moreTerms_folded`).  An expression in front of them is taken up again at that place, so the two rows
have the same outcome (`Reader.expression_folded`).  Rows that are spelled alike are read alike as well, so the
outcomes agree up to places when the rows are laid out differently (`Input.read_expression_folded_minus`).
-/

namespace ToraCompiler

/-- The first token is a number with a minus of its own, and the other two are the minus and the number. -/
structure Token.Folds (folded minus number : Token) : Prop where
  negative : folded.isNegativeNumber
  isMinus : minus.kind = .minus
  isNumber : number.kind = .number
  sameText : folded.dropFirst.text = number.text
  hasValue : ∃ value, Number.ofLiteral? number.text = some value

theorem Token.Folds.operator {folded minus number : Token} (folds : folded.Folds minus number) :
    minus.kind.sum? = some .sub := by
  rw [folds.isMinus]
  rfl

theorem Token.folds_of_spelling {folded minus number : Token} {m : String}
    (magnitude : IsMagnitude m.toList) (isFolded : folded.spelling = (.number, "-" ++ m))
    (isMinus : minus.kind = .minus) (isNumber : number.spelling = (.number, m)) :
    folded.Folds minus number := by
  obtain ⟨foldedKind, foldedText⟩ := Prod.mk.inj isFolded
  obtain ⟨numberKind, numberText⟩ := Prod.mk.inj isNumber
  refine ⟨⟨foldedKind, ?_⟩, isMinus, numberKind, ?_, ?_⟩
  · rw [foldedText, String.toList_append]
    rfl
  · rw [numberText, Token.dropFirst, foldedText, String.toList_append]
    exact String.ofList_toList
  · rw [numberText, ← String.ofList_toList (s := m)]
    exact Number.ofLiteral?_of_magnitude magnitude

namespace Reader

/-! ## The two ways to write a subtraction -/

/-- Behind a sum, a number with a minus of its own is taken in any case. -/
theorem moreTerms_takes_minus {t : Token} (negative : t.isNegativeNumber) (left : Expr)
    (ts : List Token) : (moreTerms expression left (t :: ts)).rest <:+ ts := by
  rw [moreTerms_cons_minus expression_shrinks negative]
  have factors := (literal_local 1 t.dropFirst).bind fun first =>
    operations_local (operand_local (expression_local 0)) Kind.product? first
  exact rest_bind_suffix (factors.shrinks ts) fun right =>
    (moreTerms_local (expression_local 0) _).shrinks

/-- Behind a sum, a number with a minus of its own is read like a minus and a number. -/
theorem moreTerms_folded {folded minus number : Token} (folds : folded.Folds minus number) (left : Expr)
    (ts : List Token) :
    moreTerms expression left (folded :: ts) = moreTerms expression left (minus :: number :: ts) := by
  obtain ⟨value, denotes⟩ := folds.hasValue
  have readOperand : literal folded.dropFirst ts = operand expression (number :: ts) := by
    unfold operand literal
    rw [peek_bind, List.head?_cons]
    simp only [folds.isNumber, skip_bind, List.tail_cons, folds.sameText, denotes]
  have readProduct : (literal folded.dropFirst >>= operations (operand expression) Kind.product?) ts =
      product expression (number :: ts) := bind_congr_left readOperand _
  rw [moreTerms_cons_minus expression_shrinks folds.negative,
    moreTerms_cons expression_shrinks folds.operator]
  exact bind_congr_left readProduct _

/-- Behind an expression, a number with a minus of its own is read like a minus and a number. -/
theorem expression_folded {before : List Token} {e : Expr} (accepted : expression before = .accept e [])
    {folded minus number : Token} (folds : folded.Folds minus number) (after : List Token) :
    expression (before ++ folded :: after) = expression (before ++ minus :: number :: after) := by
  obtain ⟨last, whole, resumes⟩ := expression_resumes accepted
  rw [resumes folded (Token.endsProduct_of_minus folds.negative) after,
    resumes minus (Token.endsProduct_of_sum folds.operator) (number :: after)]
  exact bind_congr_left (moreTerms_folded folds last after) _

/-- What an expression leaves stands behind the number that it goes on with. -/
theorem expression_folded_rest {before : List Token} {e : Expr}
    (accepted : expression before = .accept e []) {folded : Token} (negative : folded.isNegativeNumber)
    (after : List Token) : (expression (before ++ folded :: after)).rest <:+ after := by
  obtain ⟨last, whole, resumes⟩ := expression_resumes accepted
  rw [resumes folded (Token.endsProduct_of_minus negative) after]
  exact rest_bind_suffix (moreTerms_takes_minus negative last after) fun first =>
    (operations_local (sum_local (expression_local 0)) _ _).shrinks

/-! ## Rows that are laid out differently -/

/-- Two rows that are spelled alike are read as expressions that differ in places only and leave as many
tokens, or are refused in the same words. -/
theorem expression_spelling {ts us : List Token} (same : us.map Token.spelling = ts.map Token.spelling) :
    (∃ e e' rest rest', expression ts = .accept e rest ∧ expression us = .accept e' rest' ∧
      e'.moved placeless = e.moved placeless ∧ rest'.length = rest.length) ∨
    ∃ reason reason' rest rest', expression ts = .refuse reason rest ∧
      expression us = .refuse reason' rest' ∧ reason'.message = reason.message := by
  have left := expression_follows (f := placeless) ts
  have right := expression_follows (f := placeless) us
  rw [Token.map_placeless same] at right
  generalize expression (ts.map (Token.moved placeless)) = reply at left right
  generalize expression ts = first at left
  generalize expression us = second at right
  cases left with
  | accept e rest =>
    generalize restEq : rest.map (Token.moved placeless) = placed at right
    generalize treeEq : e.moved placeless = tree at right
    cases right with
    | accept e' rest' =>
      have lengths := congrArg List.length restEq
      simp only [List.length_map] at lengths
      exact .inl ⟨e, e', rest, rest', rfl, rfl, treeEq.symm, lengths.symm⟩
  | refuse rest sameWords =>
    generalize rest.map (Token.moved placeless) = placed at right
    cases right with
    | refuse rest' sameWords' =>
      exact .inr ⟨_, _, rest, rest', rfl, rfl, sameWords'.symm.trans sameWords⟩

end Reader

/-! ## Inputs -/

theorem tokensBeforeEnd_cons {t : Token} (notEnd : t.kind ≠ .endOfInput) (ts : List Token) :
    tokensBeforeEnd (t :: ts) = t :: tokensBeforeEnd ts :=
  List.takeWhile_cons_of_pos (by simpa using notEnd)

/-- Rows that are spelled alike end alike. -/
theorem tokensBeforeEnd_spelling {ts us : List Token}
    (same : us.map Token.spelling = ts.map Token.spelling) :
    (tokensBeforeEnd us).map Token.spelling = (tokensBeforeEnd ts).map Token.spelling := by
  have spelled : ∀ row : List Token, (tokensBeforeEnd row).map Token.spelling =
      (row.map Token.spelling).takeWhile (·.1 ≠ .endOfInput) := by
    intro row
    rw [List.takeWhile_map]
    rfl
  rw [spelled, spelled, same]

theorem notEnds_of_spelling {ts us : List Token} (same : us.map Token.spelling = ts.map Token.spelling)
    (notEnds : ∀ t ∈ ts, t.kind ≠ .endOfInput) : ∀ u ∈ us, u.kind ≠ .endOfInput := by
  intro u member
  have spelled : u.spelling ∈ ts.map Token.spelling := by
    rw [← same]
    exact List.mem_map_of_mem member
  obtain ⟨t, member, alike⟩ := List.mem_map.1 spelled
  have kinds : t.kind = u.kind := congrArg Prod.fst alike
  rw [← kinds]
  exact notEnds t member

/-- What is left behind a row is told by its length. -/
theorem eq_drop_of_suffix {ts us rest : List Token} (suffix : rest <:+ ts ++ us)
    (short : rest.length ≤ us.length) : rest = us.drop (us.length - rest.length) :=
  List.suffix_iff_eq_drop.1 (List.suffix_of_suffix_length_le suffix (List.suffix_append ts us) short)

theorem Input.read_of_accept {α : Type} {input : Input} {reader : Reader α} {a : α} {rest : List Token}
    (accepted : reader input.tokens = .accept a rest) :
    input.read reader = (.ok a, { input with tokens := rest }) := by
  unfold read
  rw [accepted]

theorem Input.read_of_refuse {α : Type} {input : Input} {reader : Reader α} {reason : Refusal}
    {rest : List Token} (refused : reader input.tokens = .refuse reason rest) :
    input.read reader = (.error (reason.diagnostic input.finish), { input with tokens := rest }) := by
  unfold read
  rw [refused]

theorem Input.accept_of_read {α : Type} {reader : Reader α} {ts rest : List Token} {a : α}
    {finish : Position} (notEnds : ∀ t ∈ ts, t.kind ≠ .endOfInput)
    (read : (Input.ofTokens ts).read reader = (.ok a, ⟨rest, finish⟩)) : reader ts = .accept a rest := by
  have tokens : (Input.ofTokens ts).tokens = ts := tokensBeforeEnd_eq_self notEnds
  cases reply : reader ts with
  | accept b left =>
    rw [Input.read_of_accept (by rw [tokens, reply])] at read
    simp only [Prod.mk.injEq, Except.ok.injEq, Input.mk.injEq] at read
    rw [read.1, read.2.1]
  | refuse reason left =>
    rw [Input.read_of_refuse (by rw [tokens, reply])] at read
    simp at read

/-- Behind a row that is an expression, a number with a minus of its own is a subtraction: with any tokens
behind, the row is read like the one that has a minus and the number without its sign.  Both are read as the
same tree, up to the places of names, and leave the same tokens, or both are refused in the same words.  This
holds also if the two rows are laid out differently. -/
theorem Input.read_expression_folded_minus {before before' after after' : List Token}
    {folded minus number : Token} {m : String} {e : Expr} {finish : Position}
    (notEnds : ∀ t ∈ before, t.kind ≠ .endOfInput)
    (consumed : (Input.ofTokens before).read .expression = (.ok e, ⟨[], finish⟩))
    (magnitude : IsMagnitude m.toList) (isFolded : folded.spelling = (.number, "-" ++ m))
    (isMinus : minus.kind = .minus) (isNumber : number.spelling = (.number, m))
    (alikeBefore : before'.map Token.spelling = before.map Token.spelling)
    (alikeAfter : after'.map Token.spelling = after.map Token.spelling) :
    (∃ (tree tree' : Expr) (taken : Nat) (left left' : Input),
      (Input.ofTokens (before ++ folded :: after)).read .expression = (.ok tree, left) ∧
      (Input.ofTokens (before' ++ minus :: number :: after')).read .expression = (.ok tree', left') ∧
      tree'.moved placeless = tree.moved placeless ∧
      left.tokens = (tokensBeforeEnd after).drop taken ∧
      left'.tokens = (tokensBeforeEnd after').drop taken) ∨
    ∃ (d d' : Diagnostic) (left left' : Input),
      (Input.ofTokens (before ++ folded :: after)).read .expression = (.error d, left) ∧
      (Input.ofTokens (before' ++ minus :: number :: after')).read .expression = (.error d', left') ∧
      d'.message = d.message := by
  have folds := Token.folds_of_spelling magnitude isFolded isMinus isNumber
  have accepted := Input.accept_of_read notEnds consumed
  have tokens : (Input.ofTokens (before ++ folded :: after)).tokens =
      before ++ folded :: tokensBeforeEnd after := by
    show tokensBeforeEnd _ = _
    rw [tokensBeforeEnd_append_of_notEnds notEnds,
      tokensBeforeEnd_cons (by rw [folds.negative.1]; decide)]
  have tokens' : (Input.ofTokens (before' ++ minus :: number :: after')).tokens =
      (before' ++ [minus, number]) ++ tokensBeforeEnd after' := by
    show tokensBeforeEnd _ = _
    rw [tokensBeforeEnd_append_of_notEnds (notEnds_of_spelling alikeBefore notEnds),
      tokensBeforeEnd_cons (by rw [folds.isMinus]; decide),
      tokensBeforeEnd_cons (by rw [folds.isNumber]; decide)]
    simp only [List.append_assoc, List.cons_append, List.nil_append]
  have alike : ((before' ++ [minus, number]) ++ tokensBeforeEnd after').map Token.spelling =
      (before ++ minus :: number :: tokensBeforeEnd after).map Token.spelling := by
    simp only [List.map_append, List.map_cons, alikeBefore, tokensBeforeEnd_spelling alikeAfter,
      List.append_assoc, List.cons_append, List.nil_append]
  have lengths : (tokensBeforeEnd after').length = (tokensBeforeEnd after).length := by
    simpa using congrArg List.length (tokensBeforeEnd_spelling alikeAfter)
  have leaves := Reader.expression_folded_rest accepted folds.negative (tokensBeforeEnd after)
  have shrinks := Reader.expression_shrinks ((before' ++ [minus, number]) ++ tokensBeforeEnd after')
  have sameReply := Reader.expression_folded accepted folds (tokensBeforeEnd after)
  rcases Reader.expression_spelling alike with
    ⟨tree, tree', rest, rest', read, read', sameTree, sameLength⟩ |
    ⟨reason, reason', rest, rest', refused, refused', sameWords⟩
  · left
    rw [sameReply, read, Reply.rest_accept] at leaves
    rw [read', Reply.rest_accept] at shrinks
    have short := leaves.length_le
    refine ⟨tree, tree', (tokensBeforeEnd after).length - rest.length, _, _,
      Input.read_of_accept (by rw [tokens, sameReply, read]), Input.read_of_accept (by rw [tokens', read']),
      sameTree, List.suffix_iff_eq_drop.1 leaves, ?_⟩
    have dropped := eq_drop_of_suffix shrinks (by omega)
    rw [sameLength, lengths] at dropped
    exact dropped
  · right
    exact ⟨_, _, _, _, Input.read_of_refuse (by rw [tokens, sameReply, refused]),
      Input.read_of_refuse (by rw [tokens', refused']), sameWords⟩

/-- A magnitude that fits into 64 bits only with its sign, behind a comparison and in front of a factor. -/
theorem Input.read_expression_folded_minus_least :
    let before : List Token := [⟨.identifier, "a", ⟨1, 1⟩⟩, ⟨.less, "<", ⟨1, 2⟩⟩, ⟨.number, "2", ⟨1, 3⟩⟩]
    let before' : List Token := [⟨.identifier, "a", ⟨1, 1⟩⟩, ⟨.less, "<", ⟨1, 3⟩⟩, ⟨.number, "2", ⟨1, 5⟩⟩]
    let after : List Token := [⟨.star, "*", ⟨1, 24⟩⟩, ⟨.identifier, "b", ⟨1, 25⟩⟩]
    let after' : List Token := [⟨.star, "*", ⟨2, 1⟩⟩, ⟨.identifier, "b", ⟨2, 3⟩⟩]
    let folded : Token := ⟨.number, "-9223372036854775808", ⟨1, 4⟩⟩
    let minus : Token := ⟨.minus, "-", ⟨1, 7⟩⟩
    let number : Token := ⟨.number, "9223372036854775808", ⟨1, 9⟩⟩
    (Input.ofTokens before).read .expression =
        (.ok (.binary .lt (.name ⟨"a", ⟨1, 1⟩⟩) (.number (.int 2))), ⟨[], ⟨1, 0⟩⟩) ∧
      ((∃ (tree tree' : Expr) (taken : Nat) (left left' : Input),
        (Input.ofTokens (before ++ folded :: after)).read .expression = (.ok tree, left) ∧
        (Input.ofTokens (before' ++ minus :: number :: after')).read .expression = (.ok tree', left') ∧
        tree'.moved placeless = tree.moved placeless ∧
        left.tokens = (tokensBeforeEnd after).drop taken ∧
        left'.tokens = (tokensBeforeEnd after').drop taken) ∨
      ∃ (d d' : Diagnostic) (left left' : Input),
        (Input.ofTokens (before ++ folded :: after)).read .expression = (.error d, left) ∧
        (Input.ofTokens (before' ++ minus :: number :: after')).read .expression = (.error d', left') ∧
        d'.message = d.message) := by
  intro before before' after after' folded minus number
  have consumed : (Input.ofTokens before).read .expression =
      (.ok (.binary .lt (.name ⟨"a", ⟨1, 1⟩⟩) (.number (.int 2))), ⟨[], ⟨1, 0⟩⟩) := rfl
  have allDigits : "9223372036854775808".toList.all (·.isDigit) := by decide
  have magnitude : IsMagnitude "9223372036854775808".toList := .inl ⟨by decide, List.all_eq_true.1 allDigits⟩
  exact ⟨consumed, Input.read_expression_folded_minus (by decide) consumed magnitude (by decide) rfl rfl
    (by decide) (by decide)⟩

end ToraCompiler
