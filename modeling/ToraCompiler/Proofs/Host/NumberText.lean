import ToraCompiler.Proofs.Host.ReadBack

/-!
# What is written for a number

The host has decimal integers, in which no zero stands in front of other digits, and floating point literals,
with a fraction or an exponent.  Integers of 64 bits and finite binary64 values are written as such literals,
behind a minus or not (`isSignedLiteral_toString`, `Binary64.isSignedLiteral_finite`).  An infinity is not: it is
written as a name.

The fewest digits that read back as a value are never zeros alone, so something is left of them when the zeros at
their end are taken away.
-/

namespace ToraCompiler

theorem isDigits_singleton {c : Char} (digit : c.isDigit) : IsDigits [c] :=
  ⟨List.cons_ne_nil c [], List.forall_mem_singleton.2 digit⟩

/-! ## Literals of the host -/

namespace Host

/-- A decimal integer: digits, with no zero in front unless all of them are zeros. -/
def IsIntegerLiteral (cs : List Char) : Prop :=
  IsDigits cs ∧ (cs.head? = some '0' → ∀ c ∈ cs, c = '0')

/-- A fraction: a point and digits. -/
def IsFraction (cs : List Char) : Prop :=
  ∃ digits, IsDigits digits ∧ cs = '.' :: digits

/-- An exponent: the letter `e` and digits, with a minus between them or not. -/
def IsExponent (cs : List Char) : Prop :=
  ∃ power, IsInteger power ∧ cs = 'e' :: power

/-- A floating point literal: digits with a fraction, with an exponent, or with both. -/
def IsFloatLiteral (cs : List Char) : Prop :=
  ∃ whole fraction exponent, IsDigits whole ∧ (fraction = [] ∨ IsFraction fraction) ∧
    (exponent = [] ∨ IsExponent exponent) ∧ ¬(fraction = [] ∧ exponent = []) ∧
    cs = whole ++ fraction ++ exponent

/-- A numeric literal, behind a minus or not. -/
def IsSignedLiteral (cs : List Char) : Prop :=
  ∃ magnitude, (IsIntegerLiteral magnitude ∨ IsFloatLiteral magnitude) ∧ (cs = magnitude ∨ cs = '-' :: magnitude)

theorem IsFloatLiteral.exists_notDigit {cs : List Char} (h : IsFloatLiteral cs) : ∃ c ∈ cs, c.isDigit = false := by
  obtain ⟨whole, fraction, exponent, -, isFraction, isExponent, some, rfl⟩ := h
  rcases isFraction with rfl | ⟨digits, -, rfl⟩
  · rcases isExponent with rfl | ⟨power, -, rfl⟩
    · exact absurd ⟨rfl, rfl⟩ some
    · exact ⟨'e', by simp, by decide⟩
  · exact ⟨'.', by simp, by decide⟩

/-- An unsigned literal has a digit in front. -/
theorem exists_digit_of_literal {cs : List Char} (h : IsIntegerLiteral cs ∨ IsFloatLiteral cs) :
    ∃ c rest, cs = c :: rest ∧ c.isDigit := by
  rcases h with ⟨digits, -⟩ | ⟨whole, fraction, exponent, digits, -, -, -, rfl⟩
  · exact IsMagnitude.starts (.inl digits)
  · obtain ⟨c, rest, rfl, digit⟩ := IsMagnitude.starts (.inl digits)
    exact ⟨c, rest ++ fraction ++ exponent, rfl, digit⟩

/-- What stands behind the sign of a literal is the literal without its minus. -/
theorem splitSign_of_digit {cs magnitude : List Char} (starts : ∃ c rest, magnitude = c :: rest ∧ c.isDigit)
    (sign : cs = magnitude ∨ cs = '-' :: magnitude) : (Numeral.splitSign cs).2 = magnitude := by
  obtain ⟨c, rest, rfl, digit⟩ := starts
  rcases sign with rfl | rfl
  · unfold Numeral.splitSign
    split
    · next minus =>
      obtain ⟨rfl, -⟩ := List.cons.inj minus
      cases digit
    · next plus =>
      obtain ⟨rfl, -⟩ := List.cons.inj plus
      cases digit
    · rfl
  · rfl

theorem IsSignedLiteral.magnitude {cs : List Char} (h : IsSignedLiteral cs) :
    IsIntegerLiteral (Numeral.splitSign cs).2 ∨ IsFloatLiteral (Numeral.splitSign cs).2 := by
  obtain ⟨magnitude, literal, sign⟩ := h
  rwa [splitSign_of_digit (exists_digit_of_literal literal) sign]

end Host

open Host

/-! ## Integers -/

/-- The digits of a positive number have no zero in front. -/
theorem toDigits_head_ne_zero {n : Nat} (positive : n ≠ 0) : (Nat.toDigits 10 n).head? ≠ some '0' := by
  induction n using Nat.strong_induction_on with
  | _ n ih =>
    rcases Nat.lt_or_ge n 10 with single | more
    · have notZero : ∀ m < 10, m ≠ 0 → Nat.digitChar m ≠ '0' := by decide
      rw [Nat.toDigits_of_lt_base single]
      exact fun same => notZero n single positive (Option.some.inj same)
    · have front := ih (n / 10) (by omega) (by omega)
      rw [Nat.toDigits_of_base_le (by decide) more]
      rwa [List.head?_append_of_ne_nil _ Nat.toDigits_ne_nil]

theorem isIntegerLiteral_toString (n : Nat) : IsIntegerLiteral (toString n).toList := by
  refine ⟨isDigits_toString n, fun zero => ?_⟩
  have digits : (toString n).toList = Nat.toDigits 10 n := Nat.toList_repr
  have isZero : n = 0 := by
    by_contra positive
    rw [digits] at zero
    exact toDigits_head_ne_zero positive zero
  rw [digits, isZero]
  exact List.forall_mem_singleton.2 rfl

theorem isSignedLiteral_toString (v : Int) : IsSignedLiteral (toString v).toList := by
  rcases Numeral.toList_toString_int v with ⟨-, written⟩ | ⟨-, written⟩
  · exact ⟨_, .inl (isIntegerLiteral_toString _), .inl written⟩
  · exact ⟨_, .inl (isIntegerLiteral_toString _), .inr written⟩

/-! ## Decimals -/

namespace Decimal

theorem isDigit_scientificDigits (d : Decimal) : ∀ c ∈ d.scientificDigits.1, c.isDigit := by
  intro c member
  have inDigits : c ∈ Nat.toDigits 10 d.digits := by
    have reversed := List.mem_reverse.1 member
    exact List.mem_reverse.1 (List.dropWhile_subset _ reversed)
  exact Nat.isDigit_of_mem_toDigits (by decide) (by decide) inDigits

theorem isDigits_scientificDigits {d : Decimal} (positive : d.digits ≠ 0) : IsDigits d.scientificDigits.1 := by
  refine ⟨fun none => ?_, d.isDigit_scientificDigits⟩
  have allZeros : ∀ c ∈ Nat.toDigits 10 d.digits, c = '0' := by
    have dropped := List.dropWhile_eq_nil_iff.1 (List.reverse_eq_nil_iff.1 none)
    simpa using dropped
  have front := toDigits_head_ne_zero positive
  cases row : Nat.toDigits 10 d.digits with
  | nil => exact Nat.toDigits_ne_nil row
  | cons c rest =>
    rw [row] at front allZeros
    exact front (congrArg some (allZeros c List.mem_cons_self))

theorem isFloatLiteral_positional {digits : List Char} (isDigits : IsDigits digits) (power : Int) :
    IsFloatLiteral (positional digits power) := by
  have zeros : ∀ n : Nat, ∀ c ∈ List.replicate n '0', c.isDigit := by
    intro n c member
    rw [List.eq_of_mem_replicate member]
    decide
  unfold positional
  split
  · have fraction : IsDigits (List.replicate (-power - 1).toNat '0' ++ digits) :=
      ⟨List.append_ne_nil_of_right_ne_nil _ isDigits.1, List.forall_mem_append.2 ⟨zeros _, isDigits.2⟩⟩
    exact ⟨['0'], _, [], isDigits_singleton (by decide), .inr ⟨_, fraction, rfl⟩, .inl rfl, by simp, by simp⟩
  · have whole : IsDigits (digits.take (power.toNat + 1) ++
        List.replicate (power.toNat + 1 - digits.length) '0') := by
      refine ⟨List.append_ne_nil_of_left_ne_nil ?_ _, List.forall_mem_append.2 ⟨?_, zeros _⟩⟩
      · simpa using isDigits.1
      · exact fun c member => isDigits.2 c (List.mem_of_mem_take member)
    have fraction : IsDigits
        (if digits.drop (power.toNat + 1) = [] then ['0'] else digits.drop (power.toNat + 1)) := by
      split
      · exact isDigits_singleton (by decide)
      · next some => exact ⟨some, fun c member => isDigits.2 c (List.mem_of_mem_drop member)⟩
    exact ⟨_, _, [], whole, .inr ⟨_, fraction, rfl⟩, .inl rfl, by simp, by simp⟩

theorem isFloatLiteral_scientific {digits : List Char} (isDigits : IsDigits digits) (power : Int) :
    IsFloatLiteral (scientific digits power) := by
  have exponent : IsExponent ('e' :: (toString power).toList) := ⟨_, isInteger_toString power, rfl⟩
  unfold scientific
  split
  · next first second rest =>
    obtain ⟨isDigit, others⟩ := List.forall_mem_cons.1 isDigits.2
    have fraction : IsDigits (second :: rest) := ⟨List.cons_ne_nil _ _, others⟩
    exact ⟨[first], _, _, isDigits_singleton isDigit, .inr ⟨_, fraction, rfl⟩, .inr exponent, by simp, by simp⟩
  · exact ⟨digits, [], _, isDigits, .inl rfl, .inr exponent, by simp, by simp⟩

/-- A decimal number other than zero is written as a floating point literal. -/
theorem isFloatLiteral_text {d : Decimal} (positive : d.digits ≠ 0) : IsFloatLiteral d.text := by
  have digits := isDigits_scientificDigits positive
  unfold text
  generalize d.scientificDigits = parts at digits
  obtain ⟨significant, power⟩ := parts
  dsimp only
  split
  · exact isFloatLiteral_positional digits power
  · exact isFloatLiteral_scientific digits power

/-- Zero does not read back as any other value. -/
theorem digits_ne_zero_of_readsBack {d : Decimal} {significand shift : Nat} (positive : significand ≠ 0)
    (readsBack : d.readsBack significand shift) : d.digits ≠ 0 := by
  intro zero
  have low (below : Nat) (small : below ≤ 2) :
      d.compareTo ((4 * significand - below) * Nat.pow 2 shift) (4 * Binary64.unitsPerOne) = .lt := by
    have left : 0 < (4 * significand - below) * Nat.pow 2 shift := Nat.mul_pos (by omega) (Nat.two_pow_pos shift)
    have right : 0 < Nat.pow 10 (-d.exponent).toNat := Nat.pow_pos (by decide)
    unfold compareTo
    rw [zero, Nat.zero_mul, Nat.zero_mul, Nat.compare_eq_lt]
    exact Nat.mul_pos left right
  have small : (if significand = Nat.pow 2 52 ∧ 0 < shift then 1 else 2) ≤ 2 := by split <;> decide
  unfold Decimal.readsBack at readsBack
  simp only [low _ small] at readsBack
  split at readsBack
  · cases readsBack
  · cases readsBack

theorem isFloatLiteral_zero : IsFloatLiteral ['0', '.', '0'] :=
  ⟨['0'], ['.', '0'], [], isDigits_singleton (by decide), .inr ⟨['0'], isDigits_singleton (by decide), rfl⟩,
    .inl rfl, by simp, rfl⟩

theorem isFloatLiteral_shortest {significand : Nat} (positive : significand ≠ 0) (shift : Nat) :
    IsFloatLiteral (shortest significand shift).text := by
  unfold shortest
  dsimp only
  generalize (List.range 17).flatMap _ = candidates
  cases found : candidates.find? (·.readsBack significand shift) with
  | none =>
    have written : (⟨0, 0⟩ : Decimal).text = ['0', '.', '0'] := by decide
    rw [Option.getD_none, written]
    exact isFloatLiteral_zero
  | some d =>
    have readsBack : d.readsBack significand shift := by simpa using List.find?_some found
    exact isFloatLiteral_text (digits_ne_zero_of_readsBack positive readsBack)

end Decimal

theorem Binary64.isSignedLiteral_finite (negative : Bool) (significand shift : Nat) :
    IsSignedLiteral (Binary64.finite negative significand shift).text.toList := by
  have magnitude : IsFloatLiteral
      (if significand = 0 then ['0', '.', '0'] else (Decimal.shortest significand shift).text) := by
    split
    · exact Decimal.isFloatLiteral_zero
    · next positive => exact Decimal.isFloatLiteral_shortest positive shift
  simp only [text, String.toList_ofList]
  cases negative with
  | false => exact ⟨_, .inr magnitude, .inl rfl⟩
  | true => exact ⟨_, .inr magnitude, .inr rfl⟩

/-- An infinity is written as a name. -/
theorem Binary64.not_isSignedLiteral_infinite (negative : Bool) :
    ¬IsSignedLiteral (Binary64.infinite negative).text.toList := by
  intro literal
  obtain ⟨c, rest, row, digit⟩ := exists_digit_of_literal literal.magnitude
  have name : (Numeral.splitSign (Binary64.infinite negative).text.toList).2 = ['i', 'n', 'f'] := by
    cases negative <;> rfl
  rw [name] at row
  obtain ⟨rfl, -⟩ := List.cons.inj row
  cases digit

end ToraCompiler
