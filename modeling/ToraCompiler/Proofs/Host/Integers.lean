import Mathlib.Data.List.Induction
import Mathlib.Data.Nat.Digits.Defs
import ToraCompiler.Proofs.Host.ReadBack
import ToraCompiler.Proofs.Tree.Resumption

/-!
# Integers keep their value

An integer literal may be as long as it likes.  Whether it is read into 64 bits or kept as it is written, what
the writer puts down for it denotes the same integer (`Host.integer_literal`).

The range of 64 signed bits is not symmetric, and a literal with a minus of its own is read in two ways: with
the minus where an operand is due, and without it where an operator is due.  So the least integer fits where
its magnitude does not, and the value is compared with positional notation (`Numeral.integer`) on both ways.
-/

namespace ToraCompiler

/-! ## Positional notation -/

namespace Numeral

/-- The number that a row of digits denotes: of the digits from the right, each counts ten times as much as the
one before. -/
def decimal (digits : List Char) : Nat :=
  Nat.ofDigits 10 (digits.reverse.map fun c => c.toNat - '0'.toNat)

/-- The integer that digits denote, behind a minus or not. -/
def integer : List Char → Int
  | '-' :: digits => -(decimal digits : Int)
  | digits => decimal digits

theorem value_eq_decimal (digits : List Char) : value digits = decimal digits := by
  induction digits using List.reverseRecOn with
  | nil => rfl
  | append_singleton digits c ih =>
    have step : value (digits ++ [c]) = 10 * value digits + (c.toNat - '0'.toNat) := by
      simp only [value, List.foldl_append, List.foldl_cons, List.foldl_nil]
    rw [step, ih]
    simp only [decimal, List.reverse_append, List.reverse_singleton, List.singleton_append, List.map_cons,
      Nat.ofDigits_cons]
    exact Nat.add_comm _ _

theorem decimal_zeros {digits : List Char} (zeros : ∀ c ∈ digits, c = '0') : decimal digits = 0 := by
  have row : digits = List.replicate digits.length '0' := List.eq_replicate_iff.2 ⟨rfl, zeros⟩
  have value : '0'.toNat - '0'.toNat = 0 := rfl
  rw [row, decimal, List.reverse_replicate, List.map_replicate, value]
  exact Nat.ofDigits_replicate_zero

theorem integer_of_digits {cs : List Char} (digits : IsDigits cs) : integer cs = decimal cs := by
  unfold integer
  split
  · next rest => exact absurd rfl (digits.head_ne (by decide : '-'.isDigit = false))
  · rfl

/-- An integer text is read if what it denotes fits 64 signed bits. -/
theorem int64?_of_isInteger {cs : List Char} (h : IsInteger cs) :
    int64? cs = if -2 ^ 63 ≤ integer cs ∧ integer cs ≤ 2 ^ 63 - 1 then some (integer cs) else none := by
  have power : Nat.pow 2 63 = 9223372036854775808 := rfl
  unfold int64?
  rcases h with digits | ⟨magnitude, digits, rfl⟩
  · have sign : splitSign cs = (false, cs) := IsMagnitude.splitSign_eq (.inl digits)
    simp only [sign, digits.natural?_eq, integer_of_digits digits, value_eq_decimal, Bool.false_eq_true, if_false]
    exact if_congr (by omega) rfl rfl
  · simp only [splitSign, digits.natural?_eq, integer, value_eq_decimal, if_true]
    exact if_congr (by omega) rfl rfl

theorem decimal_toString (n : Nat) : decimal (toString n).toList = n := by
  rw [← value_eq_decimal]
  exact Option.some.inj ((isDigits_toString n).natural?_eq.symm.trans (natural?_toString n))

theorem integer_toString (v : Int) : integer (toString v).toList = v := by
  rcases toList_toString_int v with ⟨nonneg, written⟩ | ⟨negative, written⟩
  · rw [written, integer_of_digits (isDigits_toString _), decimal_toString, Int.toNat_of_nonneg nonneg]
  · rw [written, integer, decimal_toString]
    omega

end Numeral

/-- What stands behind the sign of an integer are its digits, and they denote its magnitude. -/
theorem IsInteger.unsigned {cs : List Char} (h : IsInteger cs) :
    IsDigits (Numeral.splitSign cs).2 ∧
      (cs = (Numeral.splitSign cs).2 ∨ cs = '-' :: (Numeral.splitSign cs).2) ∧
      |Numeral.integer cs| = Numeral.decimal (Numeral.splitSign cs).2 := by
  rcases h with digits | ⟨digits, isDigits, rfl⟩
  · rw [IsMagnitude.splitSign_eq (.inl digits), Numeral.integer_of_digits digits, Nat.abs_cast]
    exact ⟨digits, .inl rfl, rfl⟩
  · rw [Numeral.splitSign, Numeral.integer, abs_neg, Nat.abs_cast]
    exact ⟨isDigits, .inr rfl, rfl⟩

/-- A numeral is an integer, or it has a point between digits. -/
theorem IsNumeral.integer_or_fraction {cs : List Char} (h : IsNumeral cs) :
    IsInteger cs ∨ ∃ whole fraction, IsDigits whole ∧ IsDigits fraction ∧ '.' ∈ cs ∧
      ∃ negative, Numeral.splitSign cs = (negative, whole ++ '.' :: fraction) := by
  rcases h with magnitude | ⟨magnitude, isMagnitude, rfl⟩
  · rcases magnitude with digits | ⟨whole, fraction, wholeDigits, fractionDigits, rfl⟩
    · exact .inl (.inl digits)
    · have sign := IsMagnitude.splitSign_eq (.inr ⟨whole, fraction, wholeDigits, fractionDigits, rfl⟩)
      exact .inr ⟨whole, fraction, wholeDigits, fractionDigits, by simp, false, sign⟩
  · rcases isMagnitude with digits | ⟨whole, fraction, wholeDigits, fractionDigits, rfl⟩
    · exact .inl (.inr ⟨magnitude, digits, rfl⟩)
    · exact .inr ⟨whole, fraction, wholeDigits, fractionDigits, by simp, true, rfl⟩

/-! ## Literals -/

/-- The text is an integer in decimal digits, and the integer is `v`. -/
structure Host.DenotesInteger (text : String) (v : Int) : Prop where
  isInteger : IsInteger text.toList
  value : Numeral.integer text.toList = v

/-- An integer text is read into 64 bits if what it denotes fits, and kept otherwise. -/
theorem Number.ofLiteral?_of_isInteger {cs : List Char} (h : IsInteger cs) :
    ofLiteral? (String.ofList cs) =
      some (if -2 ^ 63 ≤ Numeral.integer cs ∧ Numeral.integer cs ≤ 2 ^ 63 - 1 then .int (Numeral.integer cs)
        else .wide (String.ofList cs)) := by
  unfold ofLiteral?
  rw [String.toList_ofList, if_neg h.point_notMem, Numeral.int64?_of_isInteger h]
  by_cases fits : -2 ^ 63 ≤ Numeral.integer cs ∧ Numeral.integer cs ≤ 2 ^ 63 - 1
  · rw [if_pos fits, if_pos fits]
  · rw [if_neg fits, if_neg fits]

/-- Read or kept, the integer is written with digits that denote it. -/
theorem Number.denotesInteger_text {cs : List Char} (h : IsInteger cs) {value : Number}
    (denotes : ofLiteral? (String.ofList cs) = some value) :
    Host.DenotesInteger value.text (Numeral.integer cs) := by
  rw [ofLiteral?_of_isInteger h] at denotes
  obtain rfl := Option.some.inj denotes
  split
  · exact ⟨isInteger_toString _, Numeral.integer_toString _⟩
  · refine ⟨?_, ?_⟩
    · rwa [text, String.toList_ofList]
    · rw [text, String.toList_ofList]

/-- An operand may be a number token. -/
theorem Reader.operand_number {t : Token} (kind : t.kind = .number) {value : Number}
    (denotes : Number.ofLiteral? t.text = some value) (rest : List Token) :
    operand expression (t :: rest) = .accept (.number value) rest := by
  unfold operand literal
  simp only [peek_bind, List.head?_cons, kind, skip_bind, List.tail_cons, denotes, pure_apply]

/-- Behind a sum, a number with a minus of its own starts the product that is subtracted, without the minus. -/
theorem Reader.sum_takes_minus {ts : List Token} {left : Expr} (accepted : sum expression ts = .accept left [])
    {t : Token} (negative : t.isNegativeNumber) {value : Number}
    (denotes : Number.ofLiteral? t.dropFirst.text = some value) (rest : List Token) :
    sum expression (ts ++ t :: rest) =
      (operations (operand expression) Kind.product? (.number value) >>= fun right =>
        moreTerms expression (.binary .sub left right)) rest := by
  have readNumber : literal t.dropFirst rest = .accept (.number value) rest := by
    unfold literal
    rw [denotes]
    rfl
  rw [sum_resumes accepted (Token.endsProduct_of_minus negative), moreTerms_cons_minus expression_shrinks negative,
    bind_assoc, bind_of_accept readNumber]

namespace Host

theorem exprText_sub (names : NameScopes) (left right : Expr) :
    exprText names (.binary .sub left right) =
      "(" ++ exprText names left ++ " - " ++ exprText names right ++ ")" := by
  have symbol : " " ++ (BinaryOp.sub.symbol ++ " ") = " - " := by decide
  have notAdd : BinaryOp.sub ≠ .add := by decide
  rw [exprText, binaryText, if_neg fun isAdd => notAdd isAdd.1, ← symbol]
  simp only [String.append_assoc]

/-- An integer literal of any length is read as the integer that it denotes if that fits 64 signed bits, and kept
as it stands otherwise.  As an operand it is written with digits that denote that integer.  Behind a sum, a
literal with a minus starts what is subtracted, and there it is written with digits that denote its absolute
value. -/
theorem integer_literal {cs : List Char} (h : IsInteger cs) :
    ∃ value, Number.ofLiteral? (String.ofList cs) = some value ∧
      value = (if -2 ^ 63 ≤ Numeral.integer cs ∧ Numeral.integer cs ≤ 2 ^ 63 - 1 then .int (Numeral.integer cs)
        else .wide (String.ofList cs)) ∧
      ∀ t : Token, t.kind = .number → t.text = String.ofList cs →
        (∀ rest, Reader.operand Reader.expression (t :: rest) = .accept (.number value) rest) ∧
        (∀ names, DenotesInteger (exprText names (.number value)) (Numeral.integer cs)) ∧
        (cs.head? = some '-' → ∃ magnitude,
          (∀ ts left, Reader.sum Reader.expression ts = .accept left [] → ∀ rest,
            Reader.sum Reader.expression (ts ++ t :: rest) =
              (Reader.operations (Reader.operand Reader.expression) Kind.product? (.number magnitude) >>=
                fun right => Reader.moreTerms Reader.expression (.binary .sub left right)) rest) ∧
          ∀ names left, ∃ digits, DenotesInteger digits |Numeral.integer cs| ∧
            exprText names (.binary .sub left (.number magnitude)) =
              "(" ++ exprText names left ++ " - " ++ digits ++ ")") := by
  have read := Number.ofLiteral?_of_isInteger h
  obtain ⟨value, isValue⟩ : ∃ value, value = (if -2 ^ 63 ≤ Numeral.integer cs ∧ Numeral.integer cs ≤ 2 ^ 63 - 1
      then .int (Numeral.integer cs) else Number.wide (String.ofList cs)) := ⟨_, rfl⟩
  rw [← isValue] at read
  refine ⟨value, read, isValue, fun t kind text => ⟨fun rest => ?_, fun names => ?_, fun minus => ?_⟩⟩
  · rw [← text] at read
    exact Reader.operand_number kind read rest
  · exact Number.denotesInteger_text h read
  · obtain ⟨digits, isDigits, rfl⟩ : ∃ digits, IsDigits digits ∧ cs = '-' :: digits := by
      rcases h with unsigned | signed
      · cases cs with
        | nil => cases minus
        | cons c cs => exact absurd (Option.some.inj minus) (unsigned.head_ne (by decide))
      · exact signed
    have negative : t.isNegativeNumber := ⟨kind, by rw [text, String.toList_ofList]; exact minus⟩
    have behind : t.dropFirst.text = String.ofList digits := by
      rw [Token.dropFirst, text, String.toList_ofList, List.tail_cons]
    obtain ⟨magnitude, readMagnitude⟩ : ∃ magnitude, Number.ofLiteral? (String.ofList digits) = some magnitude :=
      ⟨_, Number.ofLiteral?_of_isInteger (.inl isDigits)⟩
    have absolute : Numeral.integer digits = |Numeral.integer ('-' :: digits)| := by
      rw [Numeral.integer_of_digits isDigits, Numeral.integer, abs_neg, Nat.abs_cast]
    refine ⟨magnitude, fun ts left accepted rest => ?_, fun names left => ?_⟩
    · rw [← behind] at readMagnitude
      exact Reader.sum_takes_minus accepted negative readMagnitude rest
    · have denotes := Number.denotesInteger_text (.inl isDigits) readMagnitude
      rw [absolute] at denotes
      exact ⟨_, denotes, exprText_sub names left (.number magnitude)⟩

/-- The least integer of 64 bits with zeros in front: it is read with its minus, and its magnitude is kept. -/
theorem integer_literal_least :
    IsInteger "-009223372036854775808".toList ∧ Numeral.integer "-009223372036854775808".toList = -2 ^ 63 ∧
      Number.ofLiteral? "009223372036854775808" = some (.wide "009223372036854775808") ∧
      ∃ value, Number.ofLiteral? (String.ofList "-009223372036854775808".toList) = some value ∧
        value = .int (-2 ^ 63) ∧ ∃ magnitude,
          (∀ ts left, Reader.sum Reader.expression ts = .accept left [] → ∀ rest,
            Reader.sum Reader.expression (ts ++ ⟨.number, "-009223372036854775808", ⟨1, 3⟩⟩ :: rest) =
              (Reader.operations (Reader.operand Reader.expression) Kind.product? (.number magnitude) >>=
                fun right => Reader.moreTerms Reader.expression (.binary .sub left right)) rest) ∧
          ∀ names left, ∃ digits, DenotesInteger digits (2 ^ 63) ∧
            exprText names (.binary .sub left (.number magnitude)) =
              "(" ++ exprText names left ++ " - " ++ digits ++ ")" := by
  have allDigits : "009223372036854775808".toList.all Char.isDigit = true := by decide
  have digits : IsDigits "009223372036854775808".toList := ⟨by decide, List.all_eq_true.1 allDigits⟩
  have isInteger : IsInteger "-009223372036854775808".toList := .inr ⟨_, digits, rfl⟩
  have denotes : Numeral.integer "-009223372036854775808".toList = -2 ^ 63 := by decide +kernel
  obtain ⟨value, read, isValue, behaves⟩ := integer_literal isInteger
  obtain ⟨-, -, subtracted⟩ :=
    behaves ⟨.number, "-009223372036854775808", ⟨1, 3⟩⟩ rfl String.ofList_toList.symm
  rw [denotes] at isValue subtracted
  exact ⟨isInteger, denotes, by decide +kernel, value, read, isValue, subtracted rfl⟩

end Host

end ToraCompiler
