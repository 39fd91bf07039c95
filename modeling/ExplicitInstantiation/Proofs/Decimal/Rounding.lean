import Mathlib.Algebra.Order.Field.Basic
import Mathlib.Algebra.Order.Ring.Rat
import Mathlib.Tactic.FieldSimp
import Mathlib.Tactic.Linarith
import Mathlib.Tactic.Positivity
import ExplicitInstantiation.Decimal.Layout

/-!
# Rounding to the nearest double

`Binary.RoundsTo x r` says, by the bounds with which the shortest decimal of `x` is looked for, that
`x` is the double nearest to the rational number `r`. This module proves that the arithmetic of
doubles agrees with it: a quotient of two doubles that rounds to `x` is `x` (`div_of_roundsTo`).

A quotient is computed as a mantissa with two bits for what is cut off. `Represents` says which
number such a mantissa stands for; it holds of the quotient (`represents_div`) and is kept when bits
are shifted out (`Represents.shiftRight`), and rounding by the two bits then gives the nearest
mantissa (`Represents.roundedMantissa_eq`). What remains is where the mantissa is cut. That is the
last place of `x`, except just below a power of two, where it is one place further and rounding
carries over (`targetExponent_of_roundsTo`, `roundWithAccuracy_of_roundsTo`).
-/

namespace ExplicitInstantiation

open Float.Model Float.Model.UnpackedFloat

/-! ### Mantissas with a remainder -/

/-- A mantissa with its two bits stands for `y`: it is the whole part of `y`, the round bit says
whether the rest is at least a half, and the sticky bit whether the rest is neither zero nor a
half. -/
structure Represents (em : ExtendedMantissa) (y : ℚ) : Prop where
  /-- The mantissa is not above the number. -/
  le : em.mantissa ≤ y
  /-- The number lies less than one above it. -/
  lt : y < em.mantissa + 1
  /-- The round bit tells whether the rest is at least a half. -/
  round_iff : em.roundBit = true ↔ em.mantissa + 1 / 2 ≤ y
  /-- The sticky bit tells whether the rest is neither zero nor a half. -/
  sticky_iff : em.stickyBit = true ↔ y ≠ em.mantissa ∧ y ≠ em.mantissa + 1 / 2

namespace Represents

variable {em : ExtendedMantissa} {y : ℚ}

/-- Something is left behind the mantissa exactly when one of the bits is set. -/
theorem ne_iff (h : Represents em y) :
    y ≠ em.mantissa ↔ (em.roundBit || em.stickyBit) = true := by
  rw [Bool.or_eq_true, h.round_iff, h.sticky_iff]
  constructor
  · intro hne
    by_cases hhalf : y = em.mantissa + 1 / 2
    · exact .inl hhalf.ge
    · exact .inr ⟨hne, hhalf⟩
  · rintro (hround | hsticky)
    · linarith
    · exact hsticky.1

/-- Halving drops the last bit into the round bit. -/
theorem shiftRightOne (h : Represents em y) : Represents em.shiftRightOne (y / 2) := by
  have hle := h.le
  have hlt := h.lt
  have hne := h.ne_iff
  obtain ⟨half, hhalf⟩ : ∃ half : ℕ, half = em.mantissa / 2 := ⟨_, rfl⟩
  have hmantissa : em.shiftRightOne.mantissa = half := hhalf.symm
  have hround : em.shiftRightOne.roundBit = (em.mantissa % 2 != 0) := rfl
  have hsticky : em.shiftRightOne.stickyBit = (em.roundBit || em.stickyBit) := rfl
  rcases Nat.mod_two_eq_zero_or_one em.mantissa with hmod | hmod
  · have hsplit : (em.mantissa : ℚ) = 2 * half := by
      exact_mod_cast (by omega : em.mantissa = 2 * half)
    rw [hsplit] at hle hlt hne
    constructor
    · rw [hmantissa]
      linarith
    · rw [hmantissa]
      linarith
    · rw [hmantissa, hround, hmod]
      constructor
      · intro hfalse
        cases hfalse
      · intro hge
        linarith
    · rw [hmantissa, hsticky, ← hne]
      constructor
      · intro hrest
        exact ⟨fun heq => hrest (by linarith), by linarith⟩
      · rintro ⟨hrest, -⟩ heq
        exact hrest (by linarith)
  · have hsplit : (em.mantissa : ℚ) = 2 * half + 1 := by
      exact_mod_cast (by omega : em.mantissa = 2 * half + 1)
    rw [hsplit] at hle hlt hne
    constructor
    · rw [hmantissa]
      linarith
    · rw [hmantissa]
      linarith
    · rw [hmantissa, hround, hmod]
      exact ⟨fun _ => by linarith, fun _ => rfl⟩
    · rw [hmantissa, hsticky, ← hne]
      constructor
      · intro hrest
        exact ⟨by linarith, fun heq => hrest (by linarith)⟩
      · rintro ⟨-, hrest⟩ heq
        exact hrest (by linarith)

/-- To shift a mantissa with its two bits to the right is to divide by a power of two. -/
theorem shiftRight (h : Represents em y) (n : ℕ) : Represents (em >>> n) (y / 2 ^ n) := by
  show Represents (n.repeat ExtendedMantissa.shiftRightOne em) _
  induction n with
  | zero =>
    rw [pow_zero, div_one]
    exact h
  | succ n ih =>
    have hstep := ih.shiftRightOne
    rwa [div_div, ← pow_succ] at hstep

/-- The rounded mantissa is the nearest whole number, the even one if two are equally near. -/
theorem roundedMantissa_eq (h : Represents em y) {m : ℕ} (hlow : m - 1 / 2 ≤ y)
    (hhigh : y ≤ m + 1 / 2) (htie : m % 2 = 1 → m - 1 / 2 < y ∧ y < m + 1 / 2) :
    em.roundedMantissa = m := by
  obtain ⟨k, round, sticky⟩ := em
  obtain ⟨hle, hlt, hround, hsticky⟩ := h
  have hupper : m < k + 2 := by
    have : (m : ℚ) < k + 2 := by linarith
    exact_mod_cast this
  have hlower : k < m + 1 := by
    have : (k : ℚ) < m + 1 := by linarith
    exact_mod_cast this
  -- so `m` is `k` or its successor, and the two bits tell which of them
  have hhalf (hr : round = true) (hs : sticky = false) : y = k + 1 / 2 := by
    have hge := hround.mp hr
    by_contra hne
    have hset := hsticky.mpr ⟨by show y ≠ k; linarith, hne⟩
    rw [hs] at hset
    cases hset
  obtain rfl | rfl : m = k ∨ m = k + 1 := by omega
  · cases round with
    | false => cases sticky <;> rfl
    | true =>
      cases sticky with
      | true =>
        have hge := hround.mp rfl
        have hne := (hsticky.mp rfl).2
        exact absurd (le_antisymm hhigh hge) hne
      | false =>
        have hy := hhalf rfl rfl
        show m + m % 2 = m
        have heven : m % 2 ≠ 1 := by
          intro hodd
          linarith [(htie hodd).2]
        omega
  · push_cast at hlow hhigh htie
    have hset : round = true := hround.mpr (by show (k : ℚ) + 1 / 2 ≤ y; linarith)
    subst hset
    cases sticky with
    | true => rfl
    | false =>
      have hy := hhalf rfl rfl
      show k + k % 2 = k + 1
      have hodd : (k + 1) % 2 ≠ 1 := by
        intro hodd
        linarith [(htie hodd).1]
      omega

end Represents

/-- A mantissa and its accuracy, given by what is left behind the mantissa. -/
theorem represents_add (k : ℕ) {rest : ℚ} (hzero : 0 ≤ rest) (hone : rest < 1)
    {accuracy : Accuracy} (haccuracy : ExtendedMantissa.ofMantissaAndAccuracy k accuracy =
      ⟨k, decide (1 / 2 ≤ rest), decide (rest ≠ 0 ∧ rest ≠ 1 / 2)⟩) :
    Represents (ExtendedMantissa.ofMantissaAndAccuracy k accuracy) (k + rest) := by
  rw [haccuracy]
  constructor
  · show (k : ℚ) ≤ k + rest
    linarith
  · show (k : ℚ) + rest < k + 1
    linarith
  · simp
  · simp

/-- The quotient of two numbers with the accuracy that its remainder gives. -/
theorem represents_div (num : ℕ) {den : ℕ} (hden : 0 < den) :
    Represents (ExtendedMantissa.ofMantissaAndAccuracy (num / den)
      (accuracyOfFraction (num % den) den)) (num / den) := by
  have hdenQ : (0 : ℚ) < den := by exact_mod_cast hden
  have hsplit : (num : ℚ) / den = (num / den : ℕ) + (num % den : ℕ) / den := by
    field_simp
    exact_mod_cast (Nat.div_add_mod num den).symm
  have hmod : num % den < den := Nat.mod_lt num hden
  rw [hsplit]
  generalize num / den = k
  generalize num % den = rest at hmod ⊢
  have hhalf_le : (1 : ℚ) / 2 ≤ rest / den ↔ den ≤ 2 * rest := by
    rw [div_le_div_iff₀ two_pos hdenQ, one_mul, mul_comm]
    exact_mod_cast Iff.rfl
  have hhalf_eq : (rest : ℚ) / den = 1 / 2 ↔ 2 * rest = den := by
    rw [div_eq_div_iff hdenQ.ne' two_ne_zero, one_mul, mul_comm]
    exact_mod_cast Iff.rfl
  have hzero : (rest : ℚ) / den = 0 ↔ rest = 0 := by
    rw [div_eq_zero_iff, or_iff_left hdenQ.ne']
    exact_mod_cast Iff.rfl
  refine represents_add k (div_nonneg rest.cast_nonneg hdenQ.le) ?_ ?_
  · rw [div_lt_one hdenQ]
    exact_mod_cast hmod
  · simp only [hhalf_le, hhalf_eq, hzero, ne_eq]
    unfold accuracyOfFraction
    rcases lt_trichotomy (2 * rest) den with hcmp | hcmp | hcmp
    · rw [Nat.compare_eq_lt.mpr hcmp]
      split <;> simp [ExtendedMantissa.ofMantissaAndAccuracy] <;> omega
    · rw [Nat.compare_eq_eq.mpr hcmp]
      split <;> simp [ExtendedMantissa.ofMantissaAndAccuracy] <;> omega
    · rw [Nat.compare_eq_gt.mpr hcmp]
      split <;> simp [ExtendedMantissa.ofMantissaAndAccuracy] <;> omega

/-! ### Doubles and what rounds to them -/

/-- Powers of two multiply when the exponents are added. -/
theorem two_zpow_add (k : ℤ) (n : ℕ) : (2 : ℚ) ^ (k + n) = 2 ^ n * 2 ^ k := by
  rw [zpow_add₀ two_ne_zero, zpow_natCast, mul_comm]

namespace Binary

/-- Whether some finite double has this magnitude: the mantissa has 53 bits, unless the exponent is
the smallest one. -/
structure Canonical (x : Binary) : Prop where
  /-- The mantissa has 53 bits at most. -/
  mantissa_lt : x.mantissa < 2 ^ 53
  /-- The exponent is not below the smallest one. -/
  le_exponent : -1074 ≤ x.exponent
  /-- The exponent is not above the largest one. -/
  exponent_le : x.exponent ≤ 971
  /-- The mantissa has all its bits, unless the exponent is the smallest one. -/
  full : x.exponent = -1074 ∨ 2 ^ 52 ≤ x.mantissa

/-- Zero has one magnitude. -/
theorem Canonical.eq_zero {x : Binary} (hx : x.Canonical) (h : ¬ 0 < x.mantissa) :
    x = ⟨0, -1074⟩ := by
  have hmantissa : x.mantissa = 0 := Nat.eq_zero_of_not_pos h
  have hexponent : x.exponent = -1074 := hx.full.resolve_right (by omega)
  rw [Binary.mk.injEq]
  exact ⟨hmantissa, hexponent⟩

/-- Whether the double nearest to `r` is `x`. The bounds belong to `x` if its mantissa is even. -/
def RoundsTo (x : Binary) (r : ℚ) : Prop :=
  if x.mantissa % 2 = 0 then
    x.lowerBound ≤ 4 * (r / 2 ^ x.exponent) ∧ 4 * (r / 2 ^ x.exponent) ≤ x.upperBound
  else x.lowerBound < 4 * (r / 2 ^ x.exponent) ∧ 4 * (r / 2 ^ x.exponent) < x.upperBound

variable {x : Binary} {r : ℚ}

/-- The upper bound is half a place above the mantissa, counted in quarters. -/
theorem cast_upperBound (x : Binary) : (x.upperBound : ℚ) = 4 * x.mantissa + 2 := by
  simp [upperBound]

/-- The lower bound is at most half a place below the mantissa. -/
theorem le_cast_lowerBound (hpos : 0 < x.mantissa) :
    (4 * x.mantissa - 2 : ℚ) ≤ x.lowerBound := by
  unfold lowerBound
  split
  · rw [Nat.cast_sub (by omega)]
    push_cast
    linarith
  · rw [Nat.cast_sub (by omega)]
    push_cast
    exact le_rfl

namespace RoundsTo

variable (h : x.RoundsTo r)
include h

/-- What rounds to a double lies at or above its lower bound. -/
theorem le : x.lowerBound ≤ 4 * (r / 2 ^ x.exponent) := by
  unfold RoundsTo at h
  split at h
  · exact h.1
  · exact h.1.le

/-- What rounds to a double lies at or below its upper bound. -/
theorem ge : 4 * (r / 2 ^ x.exponent) ≤ x.upperBound := by
  unfold RoundsTo at h
  split at h
  · exact h.2
  · exact h.2.le

/-- The bounds do not belong to a double with an odd mantissa. -/
theorem strict (hodd : x.mantissa % 2 = 1) :
    x.lowerBound < 4 * (r / 2 ^ x.exponent) ∧ 4 * (r / 2 ^ x.exponent) < x.upperBound := by
  rwa [RoundsTo, if_neg (by omega)] at h

/-- In units of its last place, `r` is at most a half away from the mantissa. -/
theorem near (hpos : 0 < x.mantissa) :
    x.mantissa - 1 / 2 ≤ r / 2 ^ x.exponent ∧ r / 2 ^ x.exponent ≤ x.mantissa + 1 / 2 ∧
      (x.mantissa % 2 = 1 →
        x.mantissa - 1 / 2 < r / 2 ^ x.exponent ∧ r / 2 ^ x.exponent < x.mantissa + 1 / 2) := by
  have hlow := le_cast_lowerBound hpos
  have hhigh := x.cast_upperBound
  refine ⟨?_, ?_, ?_⟩
  · linarith [h.le]
  · linarith [h.ge]
  · intro hodd
    obtain ⟨hl, hu⟩ := h.strict hodd
    constructor <;> linarith

/-- Below a power of two it is at most a quarter away. -/
theorem near_power (hpower : x.mantissa = 2 ^ 52) (hexponent : x.exponent ≠ -1074) :
    (2 ^ 52 : ℚ) - 1 / 4 ≤ r / 2 ^ x.exponent := by
  have hlow := h.le
  rw [lowerBound, if_pos ⟨hpower, hexponent⟩, hpower, Nat.cast_sub (by norm_num)] at hlow
  push_cast at hlow
  linarith

/-- What rounds to a double lies within half a place of it. -/
theorem between (hpos : 0 < x.mantissa) :
    (x.mantissa - 1 / 2) * 2 ^ x.exponent ≤ r ∧ r ≤ (x.mantissa + 1 / 2) * 2 ^ x.exponent := by
  have hlast : (0 : ℚ) < 2 ^ x.exponent := zpow_pos two_pos _
  obtain ⟨hlow, hhigh, -⟩ := h.near hpos
  exact ⟨(le_div_iff₀ hlast).mp hlow, (div_le_iff₀ hlast).mp hhigh⟩

/-- It lies below the power of two behind the last mantissa. -/
theorem lt_zpow (hx : x.Canonical) (hpos : 0 < x.mantissa) : r < 2 ^ (x.exponent + 53) := by
  have hlast : (0 : ℚ) < 2 ^ x.exponent := zpow_pos two_pos _
  have hmantissa : (x.mantissa : ℚ) + 1 ≤ 2 ^ 53 := by exact_mod_cast hx.mantissa_lt
  calc r ≤ (x.mantissa + 1 / 2) * 2 ^ x.exponent := (h.between hpos).2
    _ < 2 ^ 53 * 2 ^ x.exponent := mul_lt_mul_of_pos_right (by linarith) hlast
    _ = 2 ^ (x.exponent + 53) := (two_zpow_add x.exponent 53).symm

/-- For a mantissa of 53 bits, it lies at least in the binade below. -/
theorem zpow_le (hfull : 2 ^ 52 ≤ x.mantissa) : 2 ^ (x.exponent + 51) ≤ r := by
  have hlast : (0 : ℚ) < 2 ^ x.exponent := zpow_pos two_pos _
  have hfullQ : (2 : ℚ) ^ 52 ≤ x.mantissa := by exact_mod_cast hfull
  calc (2 : ℚ) ^ (x.exponent + 51) = 2 ^ 51 * 2 ^ x.exponent := two_zpow_add x.exponent 51
    _ ≤ (x.mantissa - 1 / 2) * 2 ^ x.exponent := mul_le_mul_of_nonneg_right (by linarith) hlast.le
    _ ≤ r := (h.between (by omega)).1

/-- There it lies only if the mantissa is the least one of 53 bits. -/
theorem mantissa_eq_of_lt (hfull : 2 ^ 52 ≤ x.mantissa) (hlt : r < 2 ^ (x.exponent + 52)) :
    x.mantissa = 2 ^ 52 := by
  have hlast : (0 : ℚ) < 2 ^ x.exponent := zpow_pos two_pos _
  have hplace : (2 : ℚ) ^ (x.exponent + 52) = 2 ^ 52 * 2 ^ x.exponent :=
    two_zpow_add x.exponent 52
  rw [hplace] at hlt
  have hbelow := lt_of_mul_lt_mul_right ((h.between (by omega)).1.trans_lt hlt) hlast.le
  have hmantissa : (x.mantissa : ℚ) < (2 ^ 52 + 1 : ℕ) := by
    push_cast
    linarith
  have : x.mantissa < 2 ^ 52 + 1 := by exact_mod_cast hmantissa
  omega

end RoundsTo

end Binary

/-! ### Rounding -/

/-- A double keeps 53 bits, and no place below the last one of the smallest double. -/
theorem targetExponent_binary64 (total : ℤ) :
    Format.binary64.targetExponent total = max (total - 53) (-1074) := rfl

/-- The powers of two around a number whose whole part is known. -/
theorem zpow_le_of_log2 {mantissa : ℕ} (hne : mantissa ≠ 0) {y : ℚ} (hle : mantissa ≤ y)
    (hlt : y < mantissa + 1) (exponent : ℤ) :
    (2 : ℚ) ^ (mantissa.log2 + exponent) ≤ y * 2 ^ exponent ∧
      y * 2 ^ exponent < (2 : ℚ) ^ (mantissa.log2 + 1 + exponent) := by
  have hplace : (0 : ℚ) < 2 ^ exponent := zpow_pos two_pos _
  have hlow : ((2 ^ mantissa.log2 : ℕ) : ℚ) ≤ mantissa := by exact_mod_cast Nat.log2_self_le hne
  have hhigh : ((mantissa + 1 : ℕ) : ℚ) ≤ ((2 ^ (mantissa.log2 + 1) : ℕ) : ℚ) := by
    exact_mod_cast Nat.lt_log2_self
  push_cast at hlow hhigh
  constructor
  · rw [zpow_add₀ two_ne_zero, zpow_natCast]
    exact mul_le_mul_of_nonneg_right (hlow.trans hle) hplace.le
  · rw [zpow_add₀ two_ne_zero]
    refine mul_lt_mul_of_pos_right ?_ hplace
    have hcast : (2 : ℚ) ^ ((mantissa.log2 : ℤ) + 1) = 2 ^ (mantissa.log2 + 1) := by
      rw [← zpow_natCast]
      norm_cast
    rw [hcast]
    linarith

section Rounding

variable {x : Binary} (hx : x.Canonical) (hpos : 0 < x.mantissa) {mantissa : ℕ} {exponent : ℤ}
  {y : ℚ} (hle : mantissa ≤ y) (hlt : y < mantissa + 1)
  (hexponent : exponent ≤ Format.binary64.targetExponent (totalExponent mantissa exponent))
  (hr : x.RoundsTo (y * 2 ^ exponent))
include hx hpos hle hlt hexponent hr

/-- A number is cut at the last place of the double to which it rounds, or one place later if it
lies below the power of two that the double is. -/
theorem targetExponent_of_roundsTo :
    Format.binary64.targetExponent (totalExponent mantissa exponent) = x.exponent ∨
      (Format.binary64.targetExponent (totalExponent mantissa exponent) = x.exponent - 1 ∧
        x.mantissa = 2 ^ 52 ∧ x.exponent ≠ -1074 ∧ y * 2 ^ exponent < 2 ^ (x.exponent + 52)) := by
  have hpower {k : ℤ} {l : ℤ} (h : (2 : ℚ) ^ k < 2 ^ l) : k < l :=
    (zpow_lt_zpow_iff_right₀ one_lt_two).mp h
  have hle_exponent := hx.le_exponent
  rw [targetExponent_binary64] at hexponent ⊢
  by_cases hzero : mantissa = 0
  · subst hzero
    have htotal : totalExponent 0 exponent = 1 + exponent := rfl
    rw [htotal] at hexponent ⊢
    rcases hx.full with hsmall | hfull
    · left
      omega
    · have hsmall : y * 2 ^ exponent < 2 ^ exponent := by
        rw [Nat.cast_zero, zero_add] at hlt
        exact mul_lt_of_lt_one_left (zpow_pos two_pos _) hlt
      have := hpower ((hr.zpow_le hfull).trans_lt hsmall)
      omega
  · obtain ⟨hbelow, hnext⟩ := zpow_le_of_log2 hzero hle hlt exponent
    have hupper := hpower (hbelow.trans_lt (hr.lt_zpow hx hpos))
    unfold totalExponent
    by_cases hsmall : x.exponent = -1074
    · left
      omega
    have hfull := hx.full.resolve_left hsmall
    by_cases hbinade : 2 ^ (x.exponent + 52) ≤ y * 2 ^ exponent
    · left
      have := hpower (hbinade.trans_lt hnext)
      omega
    · right
      rw [not_le] at hbinade
      have hlast_binade := hpower ((hr.zpow_le hfull).trans_lt hnext)
      have hfirst_binade := hpower (hbelow.trans_lt hbinade)
      exact ⟨by omega, hr.mantissa_eq_of_lt hfull hbinade, hsmall, hbinade⟩

end Rounding

/-- A number that is known well enough is cut so that its last place is the target exponent. -/
theorem Represents.shiftToTargetExponent {mantissa : ℕ} {accuracy : Accuracy} {y : ℚ}
    (h : Represents (.ofMantissaAndAccuracy mantissa accuracy) y) {exponent target : ℤ}
    (htarget : Format.binary64.targetExponent (totalExponent mantissa exponent) = target)
    (hexponent : exponent ≤ target) :
    ∃ em, Float.Model.UnpackedFloat.shiftToTargetExponent Format.binary64 mantissa exponent
        accuracy = (em, target) ∧ Represents em (y * 2 ^ exponent / 2 ^ target) := by
  refine ⟨_, Prod.ext rfl ?_, ?_⟩
  · show exponent + ((Format.binary64.targetExponent _ - exponent).toNat : ℤ) = target
    rw [htarget]
    omega
  · have hshift := h.shiftRight (target - exponent).toNat
    have hplaces : y / 2 ^ (target - exponent).toNat = y * 2 ^ exponent / 2 ^ target := by
      have hpow : (2 : ℚ) ^ target = 2 ^ (target - exponent).toNat * 2 ^ exponent := by
        rw [← two_zpow_add]
        congr 1
        omega
      rw [hpow, mul_div_mul_right _ _ (zpow_pos two_pos exponent).ne']
    rw [← hplaces]
    show Represents (ExtendedMantissa.ofMantissaAndAccuracy mantissa accuracy >>>
      (Format.binary64.targetExponent _ - exponent).toNat) _
    rw [htarget]
    exact hshift

/-- The whole part of a whole number is that number. -/
theorem Represents.mantissa_eq {em : ExtendedMantissa} {m : ℕ} (h : Represents em m) :
    em.mantissa = m := by
  have hle : em.mantissa ≤ m := by exact_mod_cast h.le
  have hlt : m < em.mantissa + 1 := by exact_mod_cast h.lt
  omega

/-- A natural number stands for itself, with both bits clear. -/
theorem represents_exact (m : ℕ) : Represents (.ofMantissaAndAccuracy m .exact) m := by
  constructor <;> simp [ExtendedMantissa.ofMantissaAndAccuracy]

/-- The accuracy of a mantissa does not change it. -/
theorem mantissa_ofMantissaAndAccuracy (m : ℕ) (accuracy : Accuracy) :
    (ExtendedMantissa.ofMantissaAndAccuracy m accuracy).mantissa = m := by
  rcases accuracy with _ | (_ | _ | _) <;> rfl

/-- Rounding takes two cuts: the second one does something only if the mantissa overflowed. -/
theorem roundWithAccuracy_of_shifts {x : Binary} (hpos : 0 < x.mantissa) {mantissa : ℕ}
    {accuracy : Accuracy} {y : ℚ} (h : Represents (.ofMantissaAndAccuracy mantissa accuracy) y)
    {exponent first : ℤ} (hexponent : exponent ≤ first)
    (hfirst : Format.binary64.targetExponent (totalExponent mantissa exponent) = first)
    (rounded : ℕ)
    (hrounded : ∀ em, Represents em (y * 2 ^ exponent / 2 ^ first) → em.roundedMantissa = rounded)
    (hsecond : Format.binary64.targetExponent (totalExponent rounded first) = x.exponent)
    (hle : first ≤ x.exponent)
    (hvalue : (rounded * 2 ^ first / 2 ^ x.exponent : ℚ) = x.mantissa) (sign : Sign) :
    roundWithAccuracy Format.binary64 sign mantissa exponent accuracy =
      .finite sign x.mantissa x.exponent hpos := by
  obtain ⟨em, hshift, hem⟩ := h.shiftToTargetExponent hfirst hexponent
  obtain ⟨em', hshift', hem'⟩ := (represents_exact rounded).shiftToTargetExponent hsecond hle
  rw [hvalue] at hem'
  have hmantissa : em'.mantissa = x.mantissa := hem'.mantissa_eq
  rw [roundWithAccuracy, hshift]
  dsimp only
  rw [hrounded em hem, hshift']
  dsimp only
  rw [dif_neg (hmantissa ▸ hpos.ne'), UnpackedFloat.finite.injEq]
  exact ⟨rfl, hmantissa, rfl⟩

/-- The exponent of a double is the one at which it is cut. -/
theorem Binary.Canonical.targetExponent_eq {x : Binary} (hx : x.Canonical) (hpos : 0 < x.mantissa) :
    Format.binary64.targetExponent (totalExponent x.mantissa x.exponent) = x.exponent := by
  have hlog : x.mantissa.log2 < 53 := (Nat.log2_lt hpos.ne').mpr hx.mantissa_lt
  have hle := hx.le_exponent
  rw [targetExponent_binary64, totalExponent]
  rcases hx.full with hsmall | hfull
  · omega
  · have := (Nat.le_log2 hpos.ne').mpr hfull
    omega

/-- A number is rounded to the double to which it rounds, if it is known well enough. -/
theorem roundWithAccuracy_of_roundsTo {x : Binary} (hx : x.Canonical) (hpos : 0 < x.mantissa)
    {mantissa : ℕ} {accuracy : Accuracy} {y : ℚ}
    (h : Represents (.ofMantissaAndAccuracy mantissa accuracy) y) {exponent : ℤ}
    (hexponent : exponent ≤ Format.binary64.targetExponent (totalExponent mantissa exponent))
    (hr : x.RoundsTo (y * 2 ^ exponent)) (sign : Sign) :
    roundWithAccuracy Format.binary64 sign mantissa exponent accuracy =
      .finite sign x.mantissa x.exponent hpos := by
  have hle := h.le
  have hlt := h.lt
  rw [mantissa_ofMantissaAndAccuracy] at hle hlt
  have hlast : (0 : ℚ) < 2 ^ x.exponent := zpow_pos two_pos _
  rcases targetExponent_of_roundsTo hx hpos hle hlt hexponent hr with
    hfirst | ⟨hfirst, hpower, hnormal, hbinade⟩
  · refine roundWithAccuracy_of_shifts hpos h (hfirst ▸ hexponent) hfirst x.mantissa ?_
      (hx.targetExponent_eq hpos) le_rfl ?_ sign
    · intro em hem
      obtain ⟨hlow, hhigh, htie⟩ := hr.near hpos
      exact hem.roundedMantissa_eq hlow hhigh htie
    · rw [mul_div_assoc, div_self hlast.ne', mul_one]
  · have hplace : (2 : ℚ) ^ x.exponent = 2 * 2 ^ (x.exponent - 1) := by
      have := two_zpow_add (x.exponent - 1) 1
      rwa [Nat.cast_one, sub_add_cancel, pow_one] at this
    have hhalf : (0 : ℚ) < 2 ^ (x.exponent - 1) := zpow_pos two_pos _
    refine roundWithAccuracy_of_shifts hpos h (hfirst ▸ hexponent) hfirst (2 ^ 53) ?_ ?_
      (by omega) ?_ sign
    · intro em hem
      -- below the power of two, the mantissa overflows
      have hlow := hr.near_power hpower hnormal
      have hhigh : y * 2 ^ exponent / 2 ^ x.exponent < 2 ^ 52 := by
        rw [div_lt_iff₀ hlast]
        exact hbinade.trans_eq (two_zpow_add x.exponent 52)
      have hdouble : y * 2 ^ exponent / 2 ^ (x.exponent - 1) =
          2 * (y * 2 ^ exponent / 2 ^ x.exponent) := by
        rw [hplace]
        field_simp
      rw [hdouble] at hem
      refine hem.roundedMantissa_eq ?_ ?_ ?_
      · push_cast
        linarith
      · push_cast
        linarith
      · intro hodd
        exact absurd hodd (by decide)
    · have hle_exponent := hx.le_exponent
      rw [targetExponent_binary64, totalExponent, Nat.log2_two_pow]
      omega
    · rw [hplace, hpower]
      push_cast
      field_simp
      norm_num

/-! ### Division -/

/-- A quotient of mantissas is taken with enough places for a double. -/
theorem divCore_exponent_le {m₁ m₂ : ℕ} (h₁ : 0 < m₁) (h₂ : 0 < m₂) {e₁ e₂ t : ℤ} {s : ℕ}
    (ht : t = min (e₁ - e₂) (Format.binary64.targetExponent
      (totalExponent m₁ e₁ - totalExponent m₂ e₂)))
    (hs : s = (e₁ - e₂ - t).toNat) :
    t ≤ Format.binary64.targetExponent (totalExponent ((m₁ <<< s) / m₂) t) := by
  simp only [targetExponent_binary64, totalExponent] at ht ⊢
  by_cases hsmall : t ≤ -1074
  · omega
  · -- the quotient has at least as many bits as the mantissas tell, less one
    have hbits : m₁.log2 + s < ((m₁ <<< s) / m₂).log2 + 1 + (m₂.log2 + 1) := by
      rw [← Nat.pow_lt_pow_iff_right (Nat.one_lt_two)]
      calc 2 ^ (m₁.log2 + s) = 2 ^ m₁.log2 * 2 ^ s := pow_add ..
        _ ≤ m₁ <<< s := by
          rw [Nat.shiftLeft_eq]
          exact Nat.mul_le_mul_right _ (Nat.log2_self_le h₁.ne')
        _ < ((m₁ <<< s) / m₂ + 1) * m₂ := by
          rw [mul_comm]
          exact Nat.lt_mul_div_succ _ h₂
        _ ≤ 2 ^ (((m₁ <<< s) / m₂).log2 + 1) * 2 ^ (m₂.log2 + 1) :=
          Nat.mul_le_mul Nat.lt_log2_self Nat.lt_log2_self.le
        _ = 2 ^ (((m₁ <<< s) / m₂).log2 + 1 + (m₂.log2 + 1)) := (pow_add ..).symm
    omega

/-- The quotient of two positive numbers is the double to which it rounds. -/
theorem div_of_roundsTo {x : Binary} (hx : x.Canonical) (hpos : 0 < x.mantissa) {m₁ m₂ : ℕ}
    (h₁ : 0 < m₁) (h₂ : 0 < m₂) {e₁ e₂ : ℤ}
    (hr : x.RoundsTo (m₁ * 2 ^ e₁ / (m₂ * 2 ^ e₂))) :
    UnpackedFloat.div Format.binary64 (.finite .positive m₁ e₁ h₁) (.finite .positive m₂ e₂ h₂) =
      .finite .positive x.mantissa x.exponent hpos := by
  obtain ⟨t, ht⟩ : ∃ t, t = min (e₁ - e₂) (Format.binary64.targetExponent
      (totalExponent m₁ e₁ - totalExponent m₂ e₂)) := ⟨_, rfl⟩
  obtain ⟨s, hs⟩ : ∃ s, s = (e₁ - e₂ - t).toNat := ⟨_, rfl⟩
  show (let (m, e, accuracy) := divCore Format.binary64 m₁ e₁ m₂ e₂
    roundWithAccuracy Format.binary64 .positive m e accuracy) = _
  have hcore : divCore Format.binary64 m₁ e₁ m₂ e₂ =
      ((m₁ <<< s) / m₂, t, accuracyOfFraction ((m₁ <<< s) % m₂) m₂) := by
    rw [hs, ht]
    rfl
  rw [hcore]
  refine roundWithAccuracy_of_roundsTo hx hpos (represents_div (m₁ <<< s) h₂)
    (divCore_exponent_le h₁ h₂ ht hs) ?_ .positive
  have hvalue : ((m₁ <<< s : ℕ) : ℚ) / m₂ * 2 ^ t = m₁ * 2 ^ e₁ / (m₂ * 2 ^ e₂) := by
    have hplace : (2 : ℚ) ^ e₁ = 2 ^ s * 2 ^ t * 2 ^ e₂ := by
      rw [← two_zpow_add, ← zpow_add₀ two_ne_zero]
      congr 1
      omega
    have hm₂ : (m₂ : ℚ) ≠ 0 := by exact_mod_cast h₂.ne'
    rw [hplace, Nat.shiftLeft_eq]
    push_cast
    field_simp
  rwa [hvalue]

end ExplicitInstantiation
