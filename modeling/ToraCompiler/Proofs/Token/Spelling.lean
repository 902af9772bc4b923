import Mathlib.Data.List.TakeWhile
import ToraCompiler.Number
import ToraCompiler.Token.Literal
import ToraCompiler.Token.Scan

/-!
# How literals are spelled

The texts that the scan allows for numbers and strings: digits with an optional sign and fraction, and
any text between quotes.  Every such number text denotes a number, with its minus and without
(`Token.WellSpelled.hasValue`), so a row of well spelled tokens is never refused for a literal.
-/

namespace ToraCompiler

/-- One digit or more. -/
def IsDigits (cs : List Char) : Prop :=
  cs ≠ [] ∧ ∀ c ∈ cs, c.isDigit

/-- Digits, with or without a fraction. -/
def IsMagnitude (cs : List Char) : Prop :=
  IsDigits cs ∨ ∃ whole fraction, IsDigits whole ∧ IsDigits fraction ∧ cs = whole ++ '.' :: fraction

/-- A magnitude, with or without a minus. -/
def IsNumeral (cs : List Char) : Prop :=
  IsMagnitude cs ∨ ∃ magnitude, IsMagnitude magnitude ∧ cs = '-' :: magnitude

/-- A text between quotes. -/
def IsQuoted (cs : List Char) : Prop :=
  ∃ body, cs = '"' :: (body ++ ['"'])

/-- The text of a literal token is one that its kind allows. -/
structure Token.WellSpelled (t : Token) : Prop where
  number : t.kind = .number → IsNumeral t.text.toList
  string : t.kind = .string → IsQuoted t.text.toList

/-- The text of a number token denotes a number, and so does what follows its minus. -/
def Token.HasValue (t : Token) : Prop :=
  t.kind = .number →
    (∃ value, Number.ofLiteral? t.text = some value) ∧
    (t.isNegativeNumber → ∃ value, Number.ofLiteral? t.dropFirst.text = some value)

/-! ## Spelled numbers have a value -/

theorem IsDigits.head_ne {c d : Char} {cs : List Char} (digits : IsDigits (c :: cs))
    (other : d.isDigit = false) : c ≠ d := by
  rintro rfl
  have isDigit := digits.2 c List.mem_cons_self
  rw [other] at isDigit
  cases isDigit

theorem IsMagnitude.head_ne {c d : Char} {cs : List Char} (magnitude : IsMagnitude (c :: cs))
    (other : d.isDigit = false) : c ≠ d := by
  rcases magnitude with digits | ⟨whole, fraction, digits, -, split⟩
  · exact digits.head_ne other
  · cases whole with
    | nil => exact (digits.1 rfl).elim
    | cons b whole =>
      obtain ⟨rfl, -⟩ := List.cons.inj split
      exact digits.head_ne other

/-- A magnitude has no sign to split off. -/
theorem IsMagnitude.splitSign_eq {cs : List Char} (magnitude : IsMagnitude cs) :
    Numeral.splitSign cs = (false, cs) := by
  cases cs with
  | nil => rfl
  | cons c cs =>
    have notMinus : c ≠ '-' := magnitude.head_ne (by decide)
    have notPlus : c ≠ '+' := magnitude.head_ne (by decide)
    unfold Numeral.splitSign
    split
    · next h => exact (notMinus (List.cons.inj h).1).elim
    · next h => exact (notPlus (List.cons.inj h).1).elim
    · rfl

theorem IsDigits.point_notMem {cs : List Char} (digits : IsDigits cs) : '.' ∉ cs := by
  intro member
  exact absurd (digits.2 _ member) (by decide)

/-- Digits with a fraction are read to the end, whatever the sign. -/
theorem Binary64.ofDigits?_of_fraction {whole fraction : List Char} (wholeDigits : IsDigits whole)
    (fractionDigits : IsDigits fraction) (negative : Bool) :
    ofDigits? negative (whole ++ '.' :: fraction) =
      some (ofScientific negative (Numeral.value (whole ++ fraction)) (0 - fraction.length)) := by
  have takeWhole : (whole ++ '.' :: fraction).takeWhile Char.isDigit = whole := by
    rw [List.takeWhile_append_of_pos wholeDigits.2]
    simp
  have dropWhole : (whole ++ '.' :: fraction).dropWhile Char.isDigit = '.' :: fraction := by
    rw [List.dropWhile_append_of_pos wholeDigits.2]
    rfl
  have takeFraction : fraction.takeWhile Char.isDigit = fraction :=
    List.takeWhile_eq_self_iff.2 fractionDigits.2
  have dropFraction : fraction.dropWhile Char.isDigit = [] :=
    List.dropWhile_eq_nil_iff.2 fractionDigits.2
  have nonempty : whole ++ fraction ≠ [] := fun empty =>
    wholeDigits.1 (List.append_eq_nil_iff.1 empty).1
  simp only [ofDigits?, takeWhole, dropWhole, splitFraction, takeFraction, dropFraction, nonempty,
    if_false, exponent?, Option.map_some]

/-- No name of a value has a point in it. -/
theorem Binary64.ofName?_of_point {cs : List Char} (point : '.' ∈ cs) (negative : Bool) :
    ofName? negative cs = none := by
  have kept : '.' ∈ (String.ofList (cs.map Char.toLower)).toList := by
    rw [String.toList_ofList]
    exact List.mem_map.2 ⟨'.', point, by decide⟩
  have notName : ∀ name ∈ ["inf", "infinity", "nan"], '.' ∉ name.toList := by decide
  have other : ∀ name ∈ ["inf", "infinity", "nan"], String.ofList (cs.map Char.toLower) ≠ name := by
    rintro name member rfl
    exact notName _ member kept
  simp only [List.forall_mem_cons] at other
  obtain ⟨notInf, notInfinity, notNan, -⟩ := other
  simp only [ofName?, notInf, notInfinity, notNan, or_self, if_false]

/-- A text with digits on either side of a point denotes the nearest binary64 value. -/
theorem Number.ofLiteral?_of_fraction {cs whole fraction : List Char} {negative : Bool}
    (wholeDigits : IsDigits whole) (fractionDigits : IsDigits fraction)
    (sign : Numeral.splitSign cs = (negative, whole ++ '.' :: fraction)) (point : '.' ∈ cs) :
    ofLiteral? (String.ofList cs) =
      some (.float (Binary64.ofScientific negative (Numeral.value (whole ++ fraction)) (0 - fraction.length))) := by
  unfold ofLiteral? Binary64.ofText?
  rw [String.toList_ofList, if_pos point]
  simp only [sign, Binary64.ofName?_of_point (List.mem_append_right whole List.mem_cons_self),
    Binary64.ofDigits?_of_fraction wholeDigits fractionDigits, Option.none_or, Option.map_some]

/-- A magnitude denotes a number behind any sign that can be split off. -/
theorem Number.ofLiteral?_of_splitSign {cs magnitude : List Char} (negative : Bool)
    (spelled : IsMagnitude magnitude) (sign : Numeral.splitSign cs = (negative, magnitude))
    (point : '.' ∈ cs → '.' ∈ magnitude) :
    ∃ value, ofLiteral? (String.ofList cs) = some value := by
  by_cases pointed : '.' ∈ cs
  · rcases spelled with digits | ⟨whole, fraction, wholeDigits, fractionDigits, rfl⟩
    · exact (digits.point_notMem (point pointed)).elim
    · exact ⟨_, ofLiteral?_of_fraction wholeDigits fractionDigits sign pointed⟩
  · unfold ofLiteral?
    rw [String.toList_ofList, if_neg pointed]
    split
    · exact ⟨_, rfl⟩
    · exact ⟨_, rfl⟩

theorem Number.ofLiteral?_of_magnitude {cs : List Char} (spelled : IsMagnitude cs) :
    ∃ value, ofLiteral? (String.ofList cs) = some value :=
  ofLiteral?_of_splitSign false spelled spelled.splitSign_eq id

theorem Number.ofLiteral?_of_negative {cs : List Char} (spelled : IsMagnitude cs) :
    ∃ value, ofLiteral? (String.ofList ('-' :: cs)) = some value :=
  ofLiteral?_of_splitSign true spelled rfl (by simp)

/-- A well spelled number denotes something, with and without its minus. -/
theorem Token.WellSpelled.hasValue {t : Token} (spelled : t.WellSpelled) : t.HasValue := by
  intro isNumber
  rcases spelled.number isNumber with magnitude | ⟨digits, magnitude, text⟩
  · refine ⟨?_, ?_⟩
    · have value := Number.ofLiteral?_of_magnitude magnitude
      rwa [String.ofList_toList] at value
    · rintro ⟨-, minus⟩
      cases split : t.text.toList with
      | nil => rw [split] at minus; cases minus
      | cons c cs =>
        rw [split] at minus magnitude
        exact (magnitude.head_ne (by decide) (Option.some.inj minus)).elim
  · refine ⟨?_, fun _ => ?_⟩
    · have value := Number.ofLiteral?_of_negative magnitude
      rwa [← text, String.ofList_toList] at value
    · have value := Number.ofLiteral?_of_magnitude magnitude
      unfold Token.dropFirst
      rwa [text]

end ToraCompiler
