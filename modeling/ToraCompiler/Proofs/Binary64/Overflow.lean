import Mathlib.Algebra.Group.Nat.Defs
import ToraCompiler.Binary64.Decimal

/-!
# Decimals beyond the binary64 range

A decimal number is read as infinity exactly from `Binary64.overflow` on, which lies halfway between the greatest
finite value and the power of two above it (`Binary64.ofScientific_eq_infinite_iff`).  At the half itself the
rounding goes up, because the significand of the greatest finite value is odd.  Every smaller number has a finite
value.
-/

namespace ToraCompiler.Binary64

/-- The least number that is rounded to infinity. -/
def overflow : Nat :=
  (2 ^ 54 - 1) * 2 ^ 970

/-! ## Rounding -/

theorem roundDiv_bounds (num den : Nat) : num / den ≤ roundDiv num den ∧ roundDiv num den ≤ num / den + 1 := by
  unfold roundDiv
  dsimp only
  split
  · omega
  · split
    · omega
    · split <;> omega

/-- The rounding gets above an odd number from the half on. -/
theorem lt_roundDiv_iff {num den n : Nat} (positive : 0 < den) (odd : n % 2 = 1) :
    n < roundDiv num den ↔ (2 * n + 1) * den ≤ 2 * num := by
  have bounds := roundDiv_bounds num den
  have split : num = num / den * den + num % den := (Nat.div_add_mod' num den).symm
  have small : num % den < den := Nat.mod_lt _ positive
  rcases Nat.lt_trichotomy n (num / den) with below | same | above
  · have rows : (n + 1) * den ≤ num / den * den := Nat.mul_le_mul_right den below
    rw [Nat.add_mul] at rows ⊢
    refine iff_of_true (by omega) ?_
    rw [Nat.mul_assoc]
    omega
  · have up : n < roundDiv num den ↔ den ≤ 2 * (num % den) := by
      subst same
      unfold roundDiv
      dsimp only
      split
      · omega
      · split
        · omega
        · rw [if_neg (by omega)]
          omega
    rw [up, Nat.add_mul, Nat.mul_assoc, same]
    omega
  · have rows : (num / den + 1) * den ≤ n * den := Nat.mul_le_mul_right den above
    rw [Nat.add_mul] at rows ⊢
    refine iff_of_false (by omega) ?_
    rw [Nat.mul_assoc]
    omega

/-- A number of less than `2 ^ 54` halves is rounded to `2 ^ 53` exactly if it has `2 ^ 54 - 1` of them. -/
theorem carries_iff {units half : Nat} (positive : 0 < half) (below : units < 2 ^ 54 * half) :
    roundDiv units (2 * half) = 2 ^ 53 ↔ (2 ^ 54 - 1) * half ≤ units := by
  have quotient : units / (2 * half) < 2 ^ 53 := (Nat.div_lt_iff_lt_mul (by omega)).2 (by omega)
  have bounds := roundDiv_bounds units (2 * half)
  have roundsUp : 2 ^ 53 - 1 < roundDiv units (2 * half) ↔
      (2 * (2 ^ 53 - 1) + 1) * (2 * half) ≤ 2 * units := lt_roundDiv_iff (by omega) (by decide)
  calc roundDiv units (2 * half) = 2 ^ 53
      ↔ 2 ^ 53 - 1 < roundDiv units (2 * half) := by omega
    _ ↔ (2 * (2 ^ 53 - 1) + 1) * (2 * half) ≤ 2 * units := roundsUp
    _ ↔ (2 ^ 54 - 1) * half ≤ units := by omega

theorem ofRounded_eq_infinite_iff {negative : Bool} {significand shift : Nat} :
    ofRounded negative significand shift = .infinite negative ↔
      2045 < shift ∨ (shift = 2045 ∧ significand = 2 ^ 53) := by
  have power : Nat.pow 2 53 = 2 ^ 53 := rfl
  unfold ofRounded
  rw [power]
  by_cases carry : significand = 2 ^ 53
  · simp only [carry, if_true, and_true]
    split
    · exact iff_of_true rfl (by omega)
    · exact iff_of_false nofun (by omega)
  · simp only [carry, if_false, and_false, or_false]
    split
    · next large => exact iff_of_true rfl large
    · next small => exact iff_of_false nofun small

theorem ofRounded_finite_or_infinite (negative : Bool) (significand shift : Nat) :
    (∃ m s, ofRounded negative significand shift = .finite negative m s) ∨
      ofRounded negative significand shift = .infinite negative := by
  unfold ofRounded
  split
  split
  · exact .inr rfl
  · exact .inl ⟨_, _, rfl⟩

/-! ## Quotients -/

/-- A quotient that is shifted to 53 bits gets past the shift `half + 1` exactly from `2 ^ 54 - 1` times
`2 ^ half` on: either its shift is greater, or it is rounded up to 54 bits. -/
theorem shift_exceeds_iff {units den shift : Nat} (positive : 0 < den)
    (isShift : shift = (units / den).log2 - 52) (half : Nat) :
    half + 1 < shift ∨ (shift = half + 1 ∧ roundDiv units (den * 2 ^ shift) = 2 ^ 53) ↔
      (2 ^ 54 - 1) * (den * 2 ^ half) ≤ units := by
  have below : units < 2 ^ ((units / den).log2 + 1) * den := (Nat.div_lt_iff_lt_mul positive).1 Nat.lt_log2_self
  have above : 0 < shift → 2 ^ (units / den).log2 * den ≤ units := by
    intro shifted
    have nonzero : units / den ≠ 0 := by
      intro none
      rw [none] at isShift
      have : Nat.log2 0 = 0 := by decide
      omega
    exact (Nat.le_div_iff_mul_le positive).1 (Nat.log2_self_le nonzero)
  generalize (units / den).log2 = log at *
  have step (n : Nat) : 2 ^ (n + half) * den = 2 ^ n * (den * 2 ^ half) := by
    rw [Nat.pow_add, Nat.mul_assoc, Nat.mul_comm (2 ^ half)]
  have positiveHalf : 0 < den * 2 ^ half := Nat.mul_pos positive (Nat.two_pow_pos half)
  rcases Nat.lt_trichotomy shift (half + 1) with small | same | large
  · -- The quotient has too few bits.
    have bits : 2 ^ (log + 1) * den ≤ 2 ^ (53 + half) * den :=
      Nat.mul_le_mul_right den (Nat.pow_le_pow_right (by decide) (by omega))
    rw [step] at bits
    exact iff_of_false (by omega) (by omega)
  · -- It has as many bits as the greatest finite value, so the rounding decides.
    have isLog : log + 1 = 54 + half := by omega
    have denominator : den * 2 ^ shift = 2 * (den * 2 ^ half) := by
      rw [same, Nat.pow_succ, ← Nat.mul_assoc, Nat.mul_comm]
    rw [isLog, step] at below
    rw [denominator, ← carries_iff positiveHalf below, same]
    exact ⟨fun h => (h.resolve_left (Nat.lt_irrefl _)).2, fun carries => .inr ⟨rfl, carries⟩⟩
  · -- It has more bits than any finite value.
    have bits : 2 ^ (54 + half) * den ≤ 2 ^ log * den :=
      Nat.mul_le_mul_right den (Nat.pow_le_pow_right (by decide) (by omega))
    rw [step] at bits
    have enough := above (by omega)
    exact iff_of_true (.inl large) (by omega)

theorem ofRatio_eq_infinite_iff {negative : Bool} {num den : Nat} (positive : 0 < den) :
    ofRatio negative num den = .infinite negative ↔ overflow * den ≤ num := by
  have units (a b : Nat) : (2 ^ 54 - 1) * 2 ^ a * den ≤ num ↔
      (2 ^ 54 - 1) * (den * 2 ^ (a + b)) ≤ num * 2 ^ b := by
    rw [Nat.pow_add, ← Nat.mul_assoc, ← Nat.mul_assoc, Nat.mul_right_comm _ den]
    exact (Nat.mul_le_mul_right_iff (Nat.two_pow_pos b)).symm
  -- As variables the exponents are not evaluated.
  obtain ⟨a, isA⟩ : ∃ a, a = 970 := ⟨970, rfl⟩
  obtain ⟨b, isB⟩ : ∃ b, b = 1074 := ⟨1074, rfl⟩
  have bound : overflow = (2 ^ 54 - 1) * 2 ^ a := by rw [overflow, ← isA]
  have one : unitsPerOne = 2 ^ b := by
    subst isB
    decide +kernel
  have top : 2045 = a + b + 1 := by omega
  unfold ofRatio
  dsimp only
  rw [ofRounded_eq_infinite_iff, bound, units a b, one, top]
  exact shift_exceeds_iff positive rfl (a + b)

/-! ## Decimals -/

/-- The power of ten above a number, by the number of its digits. -/
theorem lt_pow_length (n : Nat) : n < 10 ^ (Nat.toDigits 10 n).length :=
  (Nat.length_toDigits_le_iff (by decide) (List.length_pos_iff.2 Nat.toDigits_ne_nil)).1 (Nat.le_refl _)

theorem pow_length_le {n : Nat} (positive : n ≠ 0) : 10 ^ ((Nat.toDigits 10 n).length - 1) ≤ n := by
  rcases Nat.eq_zero_or_pos ((Nat.toDigits 10 n).length - 1) with one | more
  · rw [one]
    exact Nat.pos_of_ne_zero positive
  · refine Nat.le_of_not_lt fun below => ?_
    have shorter := (Nat.length_toDigits_le_iff (by decide) more).2 below
    omega

theorem overflow_pos : 0 < overflow := by
  decide +kernel

theorem overflow_le : ∃ e ≤ 330, overflow ≤ 10 ^ e :=
  ⟨330, Nat.le_refl 330, by decide +kernel⟩

/-- A decimal number is read as infinity exactly from the overflow on. -/
theorem ofScientific_eq_infinite_iff {negative : Bool} {digits : Nat} {exponent : Int} :
    ofScientific negative digits exponent = .infinite negative ↔
      overflow * 10 ^ (-exponent).toNat ≤ digits * 10 ^ exponent.toNat := by
  have positive : 0 < 10 ^ (-exponent).toNat := Nat.pow_pos (by decide)
  have least : 10 ^ (-exponent).toNat ≤ overflow * 10 ^ (-exponent).toNat :=
    Nat.le_mul_of_pos_left _ overflow_pos
  have above := lt_pow_length digits
  unfold ofScientific
  dsimp only
  split
  · next small =>
    refine iff_of_false nofun (Nat.not_le.2 ?_)
    rcases small with rfl | small
    · rw [Nat.zero_mul]
      exact Nat.lt_of_lt_of_le positive least
    · calc digits * 10 ^ exponent.toNat
          < 10 ^ (Nat.toDigits 10 digits).length * 10 ^ exponent.toNat :=
            Nat.mul_lt_mul_of_pos_right above (Nat.pow_pos (by decide))
        _ = 10 ^ ((Nat.toDigits 10 digits).length + exponent.toNat) := (Nat.pow_add ..).symm
        _ ≤ 10 ^ (-exponent).toNat := Nat.pow_le_pow_right (by decide) (by omega)
        _ ≤ overflow * 10 ^ (-exponent).toNat := least
  · next notSmall =>
    obtain ⟨nonzero, -⟩ := not_or.1 notSmall
    split
    · next large =>
      refine iff_of_true rfl ?_
      obtain ⟨e, isSmall, enough⟩ := overflow_le
      calc overflow * 10 ^ (-exponent).toNat
          ≤ 10 ^ e * 10 ^ (-exponent).toNat := Nat.mul_le_mul_right _ enough
        _ = 10 ^ (e + (-exponent).toNat) := (Nat.pow_add ..).symm
        _ ≤ 10 ^ ((Nat.toDigits 10 digits).length - 1 + exponent.toNat) :=
          Nat.pow_le_pow_right (by decide) (by omega)
        _ = 10 ^ ((Nat.toDigits 10 digits).length - 1) * 10 ^ exponent.toNat := Nat.pow_add ..
        _ ≤ digits * 10 ^ exponent.toNat := Nat.mul_le_mul_right _ (pow_length_le nonzero)
    · exact ofRatio_eq_infinite_iff positive

/-- Otherwise its value is finite. -/
theorem ofScientific_finite_or_infinite (negative : Bool) (digits : Nat) (exponent : Int) :
    (∃ m s, ofScientific negative digits exponent = .finite negative m s) ∨
      ofScientific negative digits exponent = .infinite negative := by
  unfold ofScientific
  dsimp only
  split
  · exact .inl ⟨_, _, rfl⟩
  · split
    · exact .inr rfl
    · exact ofRounded_finite_or_infinite ..

end ToraCompiler.Binary64
