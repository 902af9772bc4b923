import ToraCompiler.Proofs.Binary64.Overflow
import ToraCompiler.Proofs.Host.Hygiene
import ToraCompiler.Proofs.Host.Integers
import ToraCompiler.Proofs.Host.NumberText
import ToraCompiler.Proofs.Tree.Numbers

/-!
# Numbers as literals of the host language

What is written for a number token is a literal of the host, behind a minus or not, in all cases but two
(`Host.number_literals`).  An integer that does not fit 64 bits is written as it stands in the source, with the
zeros in front of it if there are any, and the host allows none there.  And a number with a point that is too
great for a binary64 value is written as the name `inf`.
-/

namespace ToraCompiler

/-! ## Numerals -/

namespace Host

/-- An integer that does not fit 64 signed bits, with a zero in front of its digits. -/
structure IsPadded (cs : List Char) : Prop where
  isInteger : IsInteger cs
  wide : ¬(-2 ^ 63 ≤ Numeral.integer cs ∧ Numeral.integer cs ≤ 2 ^ 63 - 1)
  zero : (Numeral.splitSign cs).2.head? = some '0'

/-- Digits with a fraction, of a magnitude that is rounded to infinity. -/
def IsOverflowing (cs : List Char) : Prop :=
  ∃ whole fraction, IsDigits whole ∧ IsDigits fraction ∧
    (Numeral.splitSign cs).2 = whole ++ '.' :: fraction ∧
    Binary64.overflow * 10 ^ fraction.length ≤ Numeral.decimal (whole ++ fraction)

/-- An integer that stands as it is is a literal unless there is a zero in front, as it is not zero itself. -/
theorem isSignedLiteral_wide_iff {cs : List Char} (h : IsInteger cs)
    (wide : ¬(-2 ^ 63 ≤ Numeral.integer cs ∧ Numeral.integer cs ≤ 2 ^ 63 - 1)) :
    IsSignedLiteral cs ↔ (Numeral.splitSign cs).2.head? ≠ some '0' := by
  obtain ⟨isDigits, sign, magnitude⟩ := h.unsigned
  constructor
  · intro literal zero
    rcases literal.magnitude with integer | float
    · rw [Numeral.decimal_zeros (integer.2 zero), Nat.cast_zero, abs_eq_zero] at magnitude
      rw [magnitude] at wide
      exact wide ⟨by decide, by decide⟩
    · obtain ⟨c, member, notDigit⟩ := float.exists_notDigit
      rw [isDigits.2 c member] at notDigit
      cases notDigit
  · intro front
    exact ⟨_, .inl ⟨isDigits, fun zero => absurd zero front⟩, sign⟩

theorem isOverflowing_iff {cs whole fraction : List Char} (wholeDigits : IsDigits whole)
    (fractionDigits : IsDigits fraction) (behind : (Numeral.splitSign cs).2 = whole ++ '.' :: fraction) :
    IsOverflowing cs ↔ Binary64.overflow * 10 ^ fraction.length ≤ Numeral.decimal (whole ++ fraction) := by
  constructor
  · rintro ⟨other, otherFraction, -, -, row, exceeds⟩
    obtain ⟨rfl, -, rfl⟩ := (List.append_cons_inj_of_notMem wholeDigits.point_notMem
      fractionDigits.point_notMem).1 (behind.symm.trans row)
    exact exceeds
  · exact fun exceeds => ⟨whole, fraction, wholeDigits, fractionDigits, behind, exceeds⟩

theorem isSignedLiteral_text_of_integer {cs : List Char} (h : IsInteger cs) {value : Number}
    (denotes : Number.ofLiteral? (String.ofList cs) = some value) :
    IsSignedLiteral value.text.toList ↔ ¬IsPadded cs := by
  rw [Number.ofLiteral?_of_isInteger h] at denotes
  obtain rfl := Option.some.inj denotes
  split
  · next fits => exact iff_of_true (isSignedLiteral_toString _) fun padded => padded.wide fits
  · next wide =>
    rw [Number.text, String.toList_ofList, isSignedLiteral_wide_iff h wide]
    exact ⟨fun front padded => front padded.zero, fun notPadded zero => notPadded ⟨h, wide, zero⟩⟩

theorem isSignedLiteral_text_of_fraction {cs whole fraction : List Char} {negative : Bool}
    (wholeDigits : IsDigits whole) (fractionDigits : IsDigits fraction) (point : '.' ∈ cs)
    (sign : Numeral.splitSign cs = (negative, whole ++ '.' :: fraction)) {value : Number}
    (denotes : Number.ofLiteral? (String.ofList cs) = some value) :
    IsSignedLiteral value.text.toList ↔ ¬IsOverflowing cs := by
  rw [Number.ofLiteral?_of_fraction wholeDigits fractionDigits sign point] at denotes
  obtain rfl := Option.some.inj denotes
  have infinite : Binary64.ofScientific negative (Numeral.value (whole ++ fraction)) (0 - fraction.length) =
      .infinite negative ↔ IsOverflowing cs := by
    have positive : (0 - (fraction.length : Int)).toNat = 0 := by omega
    have negated : (-(0 - (fraction.length : Int))).toNat = fraction.length := by omega
    rw [isOverflowing_iff wholeDigits fractionDigits (congrArg Prod.snd sign),
      Binary64.ofScientific_eq_infinite_iff, positive, negated, Nat.pow_zero, Nat.mul_one,
      Numeral.value_eq_decimal]
  rw [← infinite, Number.text]
  rcases Binary64.ofScientific_finite_or_infinite negative (Numeral.value (whole ++ fraction))
    (0 - fraction.length) with ⟨significand, shift, finite⟩ | isInfinite
  · have notInfinite : Binary64.finite negative significand shift ≠ .infinite negative := by simp
    rw [finite]
    exact iff_of_true (Binary64.isSignedLiteral_finite negative significand shift) notInfinite
  · rw [isInfinite]
    exact iff_of_false (Binary64.not_isSignedLiteral_infinite negative) fun finite => finite rfl

/-- What is written for a numeral is a literal, unless it is the zeros in front of an integer or an infinity. -/
theorem isSignedLiteral_text_iff {cs : List Char} (numeral : IsNumeral cs) {value : Number}
    (denotes : Number.ofLiteral? (String.ofList cs) = some value) :
    IsSignedLiteral value.text.toList ↔ ¬IsPadded cs ∧ ¬IsOverflowing cs := by
  rcases numeral.integer_or_fraction with h | ⟨whole, fraction, wholeDigits, fractionDigits, point, negative, sign⟩
  · have noPoint : ¬IsOverflowing cs := by
      rintro ⟨whole, fraction, -, -, behind, -⟩
      refine h.unsigned.1.point_notMem ?_
      rw [behind]
      exact List.mem_append_right whole List.mem_cons_self
    rw [isSignedLiteral_text_of_integer h denotes, and_iff_left noPoint]
  · have notInteger : ¬IsPadded cs := fun padded => padded.isInteger.point_notMem point
    rw [isSignedLiteral_text_of_fraction wholeDigits fractionDigits point sign denotes, and_iff_right notInteger]

end Host

/-! ## Sources -/

/-- What is read of a number token: all of it or, where its minus is an operator, what follows the minus. -/
inductive Token.Reads (t : Token) : List Char → Prop
  | whole : Reads t t.text.toList
  | magnitude : t.isNegativeNumber → Reads t t.text.toList.tail

/-- The number that a token gives is the one that the text read of it denotes. -/
theorem Token.Gives.reads {t : Token} {value : Number} (gives : t.Gives value) (kind : t.kind = .number)
    (spelled : t.WellSpelled) :
    ∃ cs, t.Reads cs ∧ IsNumeral cs ∧ Number.ofLiteral? (String.ofList cs) = some value := by
  obtain ⟨⟨whole, denotesWhole⟩, negated⟩ := spelled.hasValue kind
  cases gives with
  | whole =>
    refine ⟨t.text.toList, .whole, spelled.number kind, ?_⟩
    rw [Token.numberValue, String.ofList_toList, denotesWhole]
    rfl
  | magnitude negative =>
    obtain ⟨magnitude, denotes⟩ := negated negative
    refine ⟨t.text.toList.tail, .magnitude negative, .inl ((spelled.number kind).magnitude negative.2), ?_⟩
    have behind : t.dropFirst.text = String.ofList t.text.toList.tail := rfl
    rw [Token.numberValue, ← behind, denotes]
    rfl

namespace Host

/-- Each number token of a source that is compiled gives one number of the program, and the text that is written
for it is a literal of the host behind a minus or not, unless the token has zeros in front of an integer that does
not fit 64 bits, or is too great for a binary64 value.  In these two cases no literal is written. -/
theorem number_literals {source : String} {artifact : Artifact}
    (compiled : Artifact.ofSource source = .ok artifact) :
    ∃ ts, tokensOf source = .ok ts ∧
      List.Forall₂
        (fun t value => ∃ cs, t.Reads cs ∧ Number.ofLiteral? (String.ofList cs) = some value ∧
          ∀ names, IsSignedLiteral (exprText names (.number value)).toList ↔
            ¬IsPadded cs ∧ ¬IsOverflowing cs)
        (Token.numberTokens ts) (Stmt.numbersAll artifact.program) := by
  obtain ⟨read, -⟩ := Artifact.ofSource_eq_ok compiled
  obtain ⟨ts, scanned, gives⟩ := Program.numbers_of_ofSource read
  have spelled : ∀ t ∈ Token.numberTokens ts, t.kind = .number ∧ t.WellSpelled := by
    intro t member
    obtain ⟨inRow, kind⟩ := List.mem_filter.1 member
    exact ⟨of_decide_eq_true kind, wellSpelled_of_tokensOf scanned t inRow⟩
  refine ⟨ts, scanned, ?_⟩
  refine ((List.forall₂_and_left _ _).2 ⟨spelled, gives⟩).imp ?_
  rintro t value ⟨⟨kind, wellSpelled⟩, given⟩
  obtain ⟨cs, reads, numeral, denotes⟩ := given.reads kind wellSpelled
  exact ⟨cs, reads, denotes, fun names => isSignedLiteral_text_iff numeral denotes⟩

/-- The zeros in front of a wide integer are written, and what is written is no literal. -/
theorem number_literals_padded :
    ∃ artifact, Artifact.ofSource "let x = 0099999999999999999999;" = .ok artifact ∧
      (programDrafts artifact.program).map Draft.line = [⟨0, "x = 0099999999999999999999"⟩] ∧
      Stmt.numbersAll artifact.program = [.wide "0099999999999999999999"] ∧
      ∀ names, ¬IsSignedLiteral (exprText names (.number (.wide "0099999999999999999999"))).toList := by
  have compiles : Artifact.compilesTo "let x = 0099999999999999999999;" fun artifact =>
      (programDrafts artifact.program).map Draft.line = [⟨0, "x = 0099999999999999999999"⟩] ∧
      Stmt.numbersAll artifact.program = [.wide "0099999999999999999999"] := by decide +kernel
  obtain ⟨artifact, compiled, facts⟩ := Artifact.exists_of_compilesTo compiles
  obtain ⟨lines, numbers⟩ := of_decide_eq_true facts
  refine ⟨artifact, compiled, lines, numbers, fun names literal => ?_⟩
  obtain ⟨ts, scanned, gives⟩ := number_literals compiled
  have tokens : tokensOf "let x = 0099999999999999999999;" = .ok
      [⟨.letKeyword, "let", ⟨1, 1⟩⟩, ⟨.identifier, "x", ⟨1, 5⟩⟩, ⟨.assign, "=", ⟨1, 7⟩⟩,
        ⟨.number, "0099999999999999999999", ⟨1, 9⟩⟩, ⟨.semicolon, ";", ⟨1, 31⟩⟩, ⟨.endOfInput, "", ⟨1, 0⟩⟩] := by
    decide +kernel
  obtain rfl := Except.ok.inj (tokens.symm.trans scanned)
  rw [numbers] at gives
  obtain ⟨cs, reads, -, legal⟩ := (List.forall₂_cons.1 gives).1
  obtain rfl : cs = "0099999999999999999999".toList := by
    cases reads with
    | whole => rfl
    | magnitude negative => cases negative.2
  have allDigits : "0099999999999999999999".toList.all Char.isDigit = true := by decide
  have padded : IsPadded "0099999999999999999999".toList :=
    ⟨.inl ⟨by decide, List.all_eq_true.1 allDigits⟩, by decide +kernel, rfl⟩
  exact ((legal names).1 literal).1 padded

end Host

end ToraCompiler
