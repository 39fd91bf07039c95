import ExplicitInstantiation.Proofs.Decimal.Packing

/-!
# Decimals and the doubles next to them

A decimal with places behind the point is read as the double to which it rounds
(`Binary.ofFloat?_nearestReal`). It is read by dividing its digits by a power of ten. If both are
small enough, they are doubles and are divided as such: the powers of ten that are kept and the
natural numbers of at most 53 bits are exact (`Binary.denotes_powerOfTen`,
`Binary.denotes_toFloat`), so that rounding happens once. Otherwise they are divided as natural
numbers. Both ways end in `div_of_roundsTo`.
-/

namespace ExplicitInstantiation

open Float.Model Float.Model.UnpackedFloat

namespace Binary

/-- The value of a magnitude. -/
def value (x : Binary) : ℚ :=
  x.mantissa * 2 ^ x.exponent

/-- A double without a sign bit is positive. -/
theorem signOf_eq_positive {f : Float} (h : signBit f = false) : signOf f = .positive := by
  simp [signOf, h]

/-! ### Exact doubles -/

/-- A positive double with the value `r`. -/
structure Denotes (f : Float) (x : Binary) (r : ℚ) : Prop where
  /-- The double has the magnitude. -/
  magnitude : ofFloat? f = some x
  /-- It has no sign. -/
  sign : signOf f = .positive
  /-- The magnitude has the value. -/
  value_eq : x.value = r

/-- The powers of ten that are kept as doubles are exact. -/
theorem denotes_powerOfTen (k : Fin Float.exactlyRepresentablePowersOfTen.size) :
    Denotes Float.exactlyRepresentablePowersOfTen[k]
      ⟨5 ^ k.val * 2 ^ (52 - (5 ^ k.val).log2), (k.val : ℤ) - (52 - (5 ^ k.val).log2 : ℕ)⟩
      (10 ^ k.val) := by
  have hbits : ∀ k : Fin Float.exactlyRepresentablePowersOfTen.size,
      ofFloat? Float.exactlyRepresentablePowersOfTen[k] = some
        ⟨5 ^ k.val * 2 ^ (52 - (5 ^ k.val).log2), (k.val : ℤ) - (52 - (5 ^ k.val).log2 : ℕ)⟩ ∧
      signBit Float.exactlyRepresentablePowersOfTen[k] = false := by
    decide +kernel
  obtain ⟨hmagnitude, hsign⟩ := hbits k
  refine ⟨hmagnitude, signOf_eq_positive hsign, ?_⟩
  unfold value
  rw [zpow_sub₀ two_ne_zero, zpow_natCast, zpow_natCast]
  push_cast
  rw [show (10 : ℚ) = 5 * 2 by norm_num, mul_pow]
  field_simp

/-- A magnitude rounds to itself. -/
theorem roundsTo_value {x : Binary} (hpos : 0 < x.mantissa) : x.RoundsTo x.value := by
  have hlow : x.lowerBound < 4 * x.mantissa := by
    unfold lowerBound
    split <;> omega
  have hlowQ : (x.lowerBound : ℚ) < 4 * x.mantissa := by exact_mod_cast hlow
  have hhigh := x.cast_upperBound
  have hplaces : x.value / 2 ^ x.exponent = x.mantissa :=
    mul_div_cancel_right₀ _ (zpow_pos two_pos _).ne'
  unfold RoundsTo
  rw [hplaces]
  split
  · constructor <;> linarith
  · constructor <;> linarith

/-- A natural number of at most 53 bits, as a magnitude in canonical form. -/
def ofNatExact (n : ℕ) : Binary :=
  ⟨n * 2 ^ (52 - n.log2), -(52 - n.log2 : ℕ)⟩

/-- The magnitude of a natural number has its value. -/
theorem value_ofNatExact (n : ℕ) : (ofNatExact n).value = n := by
  unfold value ofNatExact
  rw [zpow_neg, zpow_natCast]
  push_cast
  field_simp

section OfNat

variable {n : ℕ} (hpos : 0 < n) (hlt : n < 2 ^ 53)
include hpos hlt

/-- The magnitude of a natural number is canonical. -/
theorem canonical_ofNatExact : (ofNatExact n).Canonical := by
  have hlog : n.log2 < 53 := (Nat.log2_lt hpos.ne').mpr hlt
  have hshift : 2 ^ n.log2 * 2 ^ (52 - n.log2) = 2 ^ 52 := by
    rw [← pow_add]
    congr 1
    omega
  have hlow : 2 ^ n.log2 ≤ n := Nat.log2_self_le hpos.ne'
  have hhigh : n < 2 * 2 ^ n.log2 := by
    rw [← pow_succ']
    exact Nat.lt_log2_self
  refine ⟨?_, ?_, ?_, .inr ?_⟩
  · show n * 2 ^ (52 - n.log2) < 2 ^ 53
    calc n * 2 ^ (52 - n.log2) < 2 * 2 ^ n.log2 * 2 ^ (52 - n.log2) :=
          Nat.mul_lt_mul_of_pos_right hhigh (by positivity)
      _ = 2 ^ 53 := by rw [mul_assoc, hshift]; norm_num
  · show (-1074 : ℤ) ≤ -(52 - n.log2 : ℕ)
    omega
  · show (-(52 - n.log2 : ℕ) : ℤ) ≤ 971
    omega
  · show 2 ^ 52 ≤ n * 2 ^ (52 - n.log2)
    rw [← hshift]
    exact Nat.mul_le_mul_right _ hlow

/-- A natural number of at most 53 bits is rounded to itself. -/
theorem round_ofNatExact :
    UnpackedFloat.round Format.binary64 .positive n 0 =
      .finite .positive (ofNatExact n).mantissa (ofNatExact n).exponent
        (Nat.mul_pos hpos (Nat.two_pow_pos _)) := by
  have hlog : n.log2 < 53 := (Nat.log2_lt hpos.ne').mpr hlt
  have hx := canonical_ofNatExact hpos hlt
  have hpos' : 0 < (ofNatExact n).mantissa := Nat.mul_pos hpos (Nat.two_pow_pos _)
  have htarget : Format.binary64.targetExponent (totalExponent n 0) = -(52 - n.log2 : ℕ) := by
    rw [targetExponent_binary64, totalExponent]
    omega
  have hshift : (0 - (-(52 - n.log2 : ℕ) : ℤ)).toNat = 52 - n.log2 := by omega
  have hstart : decreaseExponent n 0 (-(52 - n.log2 : ℕ)) =
      ((ofNatExact n).mantissa, (ofNatExact n).exponent) := by
    unfold decreaseExponent ofNatExact
    simp only [hshift, Nat.shiftLeft_eq]
    rw [zero_sub]
  unfold UnpackedFloat.round
  dsimp only
  rw [htarget, hstart]
  exact roundWithAccuracy_of_roundsTo hx hpos' (represents_exact _)
    (hx.targetExponent_eq hpos').ge (roundsTo_value hpos') .positive

/-- A natural number of at most 53 bits is converted exactly. -/
theorem denotes_toFloat : Denotes n.toUInt64.toFloat (ofNatExact n) n := by
  have hx := canonical_ofNatExact hpos hlt
  have hpos' : 0 < (ofNatExact n).mantissa := Nat.mul_pos hpos (Nat.two_pow_pos _)
  have htoNat : n.toUInt64.toNat = n := Nat.mod_eq_of_lt (by omega)
  have hfloat : n.toUInt64.toFloat = .ofModel (.pack (.finite .positive (ofNatExact n).mantissa
      (ofNatExact n).exponent hpos')) := by
    show Float.ofModel (.pack (UnpackedFloat.normalize Format.binary64 (n.toUInt64.toNat : ℤ) 0
      .positive)) = _
    rw [htoNat, ← round_ofNatExact hpos hlt]
    unfold UnpackedFloat.normalize
    have hcompare : compare (n : ℤ) 0 = .gt := compare_gt_iff_gt.mpr (by exact_mod_cast hpos)
    rw [hcompare]
    rfl
  rw [hfloat]
  obtain ⟨hmagnitude, hsign⟩ := ofFloat?_pack hx hpos' .positive
  exact ⟨hmagnitude, hsign, value_ofNatExact n⟩

end OfNat

/-- The quotient of two doubles is the double to which the quotient of their values rounds. -/
theorem ofFloat?_div {f g : Float} {a b x : Binary} {r s : ℚ} (hf : Denotes f a r)
    (ha : 0 < a.mantissa) (hg : Denotes g b s) (hb : 0 < b.mantissa) (hx : x.Canonical)
    (hpos : 0 < x.mantissa) (hr : x.RoundsTo (r / s)) :
    ofFloat? (f / g) = some x ∧ signOf (f / g) = .positive := by
  have hdiv : f / g = .ofModel (.pack (.finite .positive x.mantissa x.exponent hpos)) := by
    show Float.ofModel (.pack (UnpackedFloat.div Format.binary64 f.toModel.unpack
      g.toModel.unpack)) = _
    rw [unpack_of_ofFloat? hf.magnitude, dif_pos ha, unpack_of_ofFloat? hg.magnitude, dif_pos hb,
      hf.sign, hg.sign]
    rw [← hf.value_eq, ← hg.value_eq] at hr
    rw [div_of_roundsTo hx hpos ha hb hr]
  rw [hdiv]
  exact ofFloat?_pack hx hpos .positive

/-! ### Reading decimals -/

/-- Dividing by a power of ten gives the double to which the quotient rounds. -/
theorem ofFloat?_ofScientific {x : Binary} (hx : x.Canonical) (hpos : 0 < x.mantissa)
    {digits places : ℕ} (hdigits : 0 < digits) (hfraction : 0 < places) (hplaces : places ≤ 2048)
    (hr : x.RoundsTo (digits / 10 ^ places)) :
    ofFloat? (Float.ofScientific digits true places) = some x ∧
      signOf (Float.ofScientific digits true places) = .positive := by
  unfold Float.ofScientific
  split
  · next hfast =>
    have hpower := denotes_powerOfTen ⟨places, Nat.lt_succ_of_le hfast.2⟩
    refine ofFloat?_div (denotes_toFloat hdigits hfast.1) ?_ hpower ?_ hx hpos hr
    · exact Nat.mul_pos hdigits (Nat.two_pow_pos _)
    · exact Nat.mul_pos (by positivity) (Nat.two_pow_pos _)
  · next hslow =>
    have hmodel : UnpackedFloat.ofScientific Format.binary64 digits (Int.negOfNat places) =
        .finite .positive x.mantissa x.exponent hpos := by
      have hexponent : Int.negOfNat places = -(places : ℤ) := Int.negOfNat_eq
      unfold UnpackedFloat.ofScientific
      rw [dif_neg hdigits.ne', hexponent, if_neg (by norm_num), if_neg, if_neg (by omega)]
      · refine div_of_roundsTo hx hpos hdigits _ ?_
        have htoNat : (-(-(places : ℤ))).toNat = places := by omega
        rw [htoNat, zpow_zero, mul_one, mul_one]
        exact_mod_cast hr
      · show ¬ (-(places : ℤ) < -((2 ^ 11 : ℤ) + digits.log2))
        omega
    have hfloat : Float.ofModel (Float.Model.ofScientific digits
        (if true = true then Int.negOfNat places else Int.ofNat places)) =
        .ofModel (.pack (.finite .positive x.mantissa x.exponent hpos)) := by
      rw [← hmodel]
      rfl
    rw [hfloat]
    exact ofFloat?_pack hx hpos .positive

/-- What rounds to a double has at most 309 digits before the point. -/
theorem lt_of_roundsTo {x : Binary} (hx : x.Canonical) (hpos : 0 < x.mantissa) {r : ℚ}
    (hr : x.RoundsTo r) : r < 10 ^ 309 := by
  have hexponent := hx.exponent_le
  calc r < 2 ^ (x.exponent + 53) := hr.lt_zpow hx hpos
    _ ≤ 2 ^ (1024 : ℤ) := zpow_le_zpow_right₀ one_le_two (by omega)
    _ < 10 ^ 309 := by
      have hnat : 2 ^ 1024 < 10 ^ 309 := by decide +kernel
      exact_mod_cast hnat

/-- A decimal with an exponent below zero is read as the double to which it rounds. -/
theorem ofFloat?_nearestReal {x : Binary} (hx : x.Canonical) (hpos : 0 < x.mantissa)
    {digits places : ℕ} (hdigits : 0 < digits) (hfraction : 0 < places) (hplaces : places ≤ 400)
    (hr : x.RoundsTo (digits / 10 ^ places)) :
    ofFloat? (nearestReal digits (-places)) = some x ∧
      signOf (nearestReal digits (-places)) = .positive := by
  have hlength : (Text.ofNat digits).length ≤ places + 309 := by
    refine (Nat.length_toDigits_le_iff (by norm_num) (by omega)).mpr ?_
    have hlt := lt_of_roundsTo hx hpos hr
    rw [div_lt_iff₀ (by positivity), ← pow_add, add_comm] at hlt
    exact_mod_cast hlt
  have hlength_pos : 0 < (Text.ofNat digits).length := Nat.length_toDigits_pos
  unfold nearestReal
  simp only
  rw [if_neg (by omega), if_neg (by omega)]
  have hsign : decide (-(places : ℤ) < 0) = true := by
    rw [decide_eq_true_iff]
    omega
  rw [hsign, Int.natAbs_neg, Int.natAbs_natCast]
  exact ofFloat?_ofScientific hx hpos hdigits hfraction (by omega) hr

end Binary

end ExplicitInstantiation
