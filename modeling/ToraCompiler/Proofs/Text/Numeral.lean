import Mathlib.Algebra.Group.Int.Defs
import Mathlib.Algebra.Group.Nat.Defs
import ToraCompiler.Text.Numeral

/-!
# Written numbers are read

The decimal digits of a number denote it (`Numeral.natural?_toString`), so a number that fits a machine word is
read into that word, and an integer with its sign as well.
-/

namespace ToraCompiler

theorem isDigit_of_mem_toString {n : Nat} {c : Char} (member : c ∈ (toString n).toList) : c.isDigit := by
  have digits : (toString n).toList = Nat.toDigits 10 n := Nat.toList_repr
  rw [digits] at member
  exact Nat.isDigit_of_mem_toDigits (by decide) (by decide) member

theorem toString_ne_nil (n : Nat) : (toString n).toList ≠ [] := by
  have digits : (toString n).toList = Nat.toDigits 10 n := Nat.toList_repr
  rw [digits]
  exact Nat.toDigits_ne_nil

/-- No number is written with a sign. -/
theorem toString_ne_cons {c : Char} (sign : c.isDigit = false) (n : Nat) (rest : List Char) :
    (toString n).toList ≠ c :: rest := by
  intro same
  have digit : c.isDigit := isDigit_of_mem_toString (by rw [same]; exact List.mem_cons_self)
  rw [sign] at digit
  cases digit

namespace Numeral

/-- The digits of a number denote it. -/
theorem natural?_toString (n : Nat) : natural? (toString n).toList = some n := by
  have digits : (toString n).toList = Nat.toDigits 10 n := Nat.toList_repr
  have allDigits : (toString n).toList.all Char.isDigit = true :=
    List.all_eq_true.2 fun c member => isDigit_of_mem_toString member
  unfold natural?
  rw [if_pos ⟨toString_ne_nil n, allDigits⟩, digits]
  exact congrArg some Nat.ofDigitChars_ten_toDigits

theorem word64?_toString {n : Nat} (small : n < Nat.pow 2 64) : word64? (toString n).toList = some n := by
  unfold word64?
  split
  · next rest same => exact absurd same (toString_ne_cons (by decide) n rest)
  · simp only [natural?_toString, if_pos small]

theorem splitSign_toString (n : Nat) : splitSign (toString n).toList = (false, (toString n).toList) := by
  unfold splitSign
  split
  · next rest same => exact absurd same (toString_ne_cons (by decide) n rest)
  · next rest same => exact absurd same (toString_ne_cons (by decide) n rest)
  · rfl

/-- How an integer is written: its digits, behind a minus if it is negative. -/
theorem toList_toString_int (v : Int) :
    (0 ≤ v ∧ (toString v).toList = (toString v.toNat).toList) ∨
      (v < 0 ∧ (toString v).toList = '-' :: (toString v.natAbs).toList) := by
  cases v with
  | ofNat n => exact .inl ⟨Int.natCast_nonneg n, rfl⟩
  | negSucc n =>
    refine .inr ⟨Int.negSucc_lt_zero n, ?_⟩
    have written : toString (Int.negSucc n) = "-" ++ toString (n + 1) := rfl
    rw [written, String.toList_append]
    rfl

/-- An integer of 64 signed bits is read as itself, both ends of the range included. -/
theorem int64?_toString {v : Int} (least : -2 ^ 63 ≤ v) (greatest : v < 2 ^ 63) :
    int64? (toString v).toList = some v := by
  unfold int64?
  rcases toList_toString_int v with ⟨nonneg, written⟩ | ⟨negative, written⟩
  · have small : v.toNat < Nat.pow 2 63 := by
      have power : Nat.pow 2 63 = 9223372036854775808 := rfl
      omega
    rw [written, splitSign_toString]
    simp only [natural?_toString, if_pos small, Bool.false_eq_true, if_false]
    rw [Int.toNat_of_nonneg nonneg]
  · have small : v.natAbs ≤ Nat.pow 2 63 := by
      have power : Nat.pow 2 63 = 9223372036854775808 := rfl
      omega
    have value : -((v.natAbs : Nat) : Int) = v := by omega
    rw [written]
    simp only [splitSign, natural?_toString, if_pos small, if_true, value]

end Numeral

end ToraCompiler
