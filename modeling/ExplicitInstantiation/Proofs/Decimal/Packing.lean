import Mathlib.Tactic.Ring
import ExplicitInstantiation.Proofs.Decimal.Rounding

/-!
# Doubles and their bits

A finite double is written by the magnitude that `Binary.ofFloat?` reads off its bits, while
arithmetic unpacks the double, computes and packs the result. The two views agree: a finite double
is unpacked to its sign and magnitude (`Binary.unpack_of_ofFloat?`), and these are found again in
what is packed from them (`Binary.ofFloat?_pack`). For negation, which needs no rounding, this says
that only the sign changes (`Binary.ofFloat?_neg`).
-/

namespace ExplicitInstantiation

open Float.Model Float.Model.UnpackedFloat

/-! ### Fields -/

/-- The exponent field is made of the eleven bits above the fraction. -/
theorem toNat_unpackExponent (b : BitVec Format.binary64.numBits) :
    (unpackExponent b).toNat = b.toNat / 2 ^ 52 % 2 ^ 11 := by
  show (b.toNat >>> 52) % 2 ^ 11 = _
  rw [Nat.shiftRight_eq_div_pow]

/-- The fraction field is made of the lowest 52 bits. -/
theorem toNat_unpackMantissa (b : BitVec Format.binary64.numBits) :
    (unpackMantissa b).toNat = b.toNat % 2 ^ 52 := by
  show (b.toNat >>> 0) % 2 ^ 52 = _
  rw [Nat.shiftRight_zero]

/-- The sign is the highest bit. -/
theorem toNat_unpackSign (b : BitVec Format.binary64.numBits) :
    (unpackSign b).toNat = b.toNat / 2 ^ 63 := by
  show (b.toNat >>> 63) % 2 = _
  have hlt : b.toNat < 2 ^ 64 := b.isLt
  rw [Nat.shiftRight_eq_div_pow]
  omega

/-- The three fields stand one above the other. -/
theorem toNat_packComponents (sign : Sign) (exponent : BitVec Format.binary64.exponentBits)
    (mantissa : BitVec Format.binary64.mantissaBitsWithoutImplicit) :
    (packComponents Format.binary64 sign exponent mantissa).toNat =
      sign.toBitVec.toNat * 2 ^ 63 + exponent.toNat * 2 ^ 52 + mantissa.toNat := by
  unfold packComponents
  rw [BitVec.toNat_append, ← Nat.shiftLeft_add_eq_or_of_lt mantissa.isLt, BitVec.toNat_append,
    ← Nat.shiftLeft_add_eq_or_of_lt exponent.isLt, Nat.shiftLeft_eq, Nat.shiftLeft_eq]
  ring

namespace Binary

/-- The bits of a double. -/
def bits (f : Float) : BitVec Format.binary64.numBits :=
  f.toBits.toBitVec

/-- The sign of a double. -/
def signOf (f : Float) : Sign :=
  if signBit f then .negative else .positive

/-- A negative double has its sign bit set. -/
theorem signBit_of_signOf {f : Float} (h : signOf f = .negative) : signBit f = true := by
  unfold signOf at h
  split at h
  · assumption
  · cases h

/-- The fields of a double that is finite. -/
theorem ofFloat?_eq_some_iff {f : Float} {x : Binary} :
    ofFloat? f = some x ↔
      f.toBits.toNat / 2 ^ 52 % 2 ^ 11 ≠ 2 ^ 11 - 1 ∧
        x = ofFields (f.toBits.toNat / 2 ^ 52 % 2 ^ 11) (f.toBits.toNat % 2 ^ 52) := by
  show (if f.toBits.toNat / 2 ^ 52 % 2 ^ 11 = 2 ^ 11 - 1 then none
    else some (ofFields (f.toBits.toNat / 2 ^ 52 % 2 ^ 11) (f.toBits.toNat % 2 ^ 52))) = some x ↔ _
  split
  · next h =>
    constructor
    · intro hnone
      cases hnone
    · intro hfields
      exact absurd h hfields.1
  · next h =>
    constructor
    · intro hsome
      exact ⟨h, (Option.some.inj hsome).symm⟩
    · intro hfields
      rw [hfields.2]

/-- With an exponent field of zero the fraction is the mantissa. -/
theorem ofFields_zero (fraction : ℕ) : ofFields 0 fraction = ⟨fraction, -1074⟩ := rfl

/-- Otherwise the mantissa has one more bit, which is not stored. -/
theorem ofFields_of_ne_zero {exponentField : ℕ} (h : exponentField ≠ 0) (fraction : ℕ) :
    ofFields exponentField fraction = ⟨2 ^ 52 + fraction, (exponentField : ℤ) - 1075⟩ := by
  rw [ofFields, if_neg h]
  rfl

/-- A finite double has a magnitude in canonical form. -/
theorem canonical_of_ofFloat? {f : Float} {x : Binary} (h : ofFloat? f = some x) :
    x.Canonical := by
  obtain ⟨hfinite, rfl⟩ := ofFloat?_eq_some_iff.mp h
  have hfraction : f.toBits.toNat % 2 ^ 52 < 2 ^ 52 := Nat.mod_lt _ (by norm_num)
  have hexponent : f.toBits.toNat / 2 ^ 52 % 2 ^ 11 < 2 ^ 11 := Nat.mod_lt _ (by norm_num)
  generalize f.toBits.toNat / 2 ^ 52 % 2 ^ 11 = e at *
  generalize f.toBits.toNat % 2 ^ 52 = m at *
  by_cases hzero : e = 0
  · subst hzero
    rw [ofFields_zero]
    exact ⟨by show m < 2 ^ 53; omega, le_rfl, by norm_num, .inl rfl⟩
  · rw [ofFields_of_ne_zero hzero]
    refine ⟨?_, ?_, ?_, .inr (Nat.le_add_right _ _)⟩
    · show 2 ^ 52 + m < 2 ^ 53
      omega
    · show -1074 ≤ (e : ℤ) - 1075
      omega
    · show (e : ℤ) - 1075 ≤ 971
      omega

/-- The sign is the highest bit. -/
theorem signOf_eq {f : Float} {sign : Sign} (h : f.toBits.toNat / 2 ^ 63 = sign.toBitVec.toNat) :
    signOf f = sign := by
  have hbit : signBit f = true ↔ f.toBits.toNat / 2 ^ 63 = 1 := decide_eq_true_iff
  unfold signOf
  cases sign with
  | negative => rw [if_pos (hbit.mpr h)]
  | positive =>
    rw [if_neg]
    rw [hbit, h]
    decide

/-- The sign of a double is the one in its bits. -/
theorem ofBitVec_unpackSign (f : Float) : Sign.ofBitVec (unpackSign (bits f)) = signOf f := by
  have hsign : (unpackSign (bits f)).toNat = f.toBits.toNat / 2 ^ 63 := toNat_unpackSign (bits f)
  have hread : ∀ b : BitVec 1, b.toNat = (Sign.ofBitVec b).toBitVec.toNat := by decide
  exact (signOf_eq (hsign.symm.trans (hread _))).symm

/-- A finite double is unpacked to its sign and magnitude; a zero keeps its sign. -/
theorem unpack_of_ofFloat? {f : Float} {x : Binary} (h : ofFloat? f = some x) :
    f.toModel.unpack =
      if hpos : 0 < x.mantissa then .finite (signOf f) x.mantissa x.exponent hpos
      else .zero (signOf f) := by
  obtain ⟨hfinite, hx⟩ := ofFloat?_eq_some_iff.mp h
  have hexponent : (unpackExponent (bits f)).toNat = f.toBits.toNat / 2 ^ 52 % 2 ^ 11 :=
    toNat_unpackExponent (bits f)
  have hmantissa : (unpackMantissa (bits f)).toNat = f.toBits.toNat % 2 ^ 52 :=
    toNat_unpackMantissa (bits f)
  rw [← hexponent, ← hmantissa] at hx
  rw [← hexponent] at hfinite
  have hnonfinite : unpackExponent (bits f) ≠ -1#_ := by
    intro heq
    rw [heq] at hfinite
    exact hfinite rfl
  show UnpackedFloat.unpack Format.binary64 (bits f) = _
  unfold UnpackedFloat.unpack
  dsimp only
  rw [if_neg hnonfinite, ofBitVec_unpackSign]
  by_cases hzero : unpackExponent (bits f) = 0#_
  · rw [hzero] at hx
    have hx' : x = ⟨(unpackMantissa (bits f)).toNat, -1074⟩ := hx
    subst hx'
    rw [if_pos hzero]
    by_cases hfraction : unpackMantissa (bits f) = 0#_
    · have hnot : ¬ 0 < (unpackMantissa (bits f)).toNat := by
        rw [hfraction]
        exact Nat.lt_irrefl 0
      rw [dif_pos hfraction, dif_neg hnot]
    · have hpos : 0 < (unpackMantissa (bits f)).toNat := by
        rw [Nat.pos_iff_ne_zero]
        intro heq
        exact hfraction (BitVec.toNat_inj.mp heq)
      rw [dif_neg hfraction, dif_pos hpos, hzero]
      rfl
  · have hne : (unpackExponent (bits f)).toNat ≠ 0 := by
      intro heq
      exact hzero (BitVec.toNat_inj.mp heq)
    rw [ofFields_of_ne_zero hne] at hx
    subst hx
    have hvalue : (1#1 ++ unpackMantissa (bits f)).toNat =
        2 ^ 52 + (unpackMantissa (bits f)).toNat := by
      rw [BitVec.toNat_append, ← Nat.shiftLeft_add_eq_or_of_lt (unpackMantissa (bits f)).isLt]
      rfl
    have hpos : 0 < 2 ^ 52 + (unpackMantissa (bits f)).toNat := by omega
    rw [if_neg hzero, dif_pos hpos, UnpackedFloat.finite.injEq]
    exact ⟨rfl, hvalue, rfl⟩

/-- The bits of a packed number are those that packing makes. -/
theorem toNat_toBits_ofModel_pack (u : UnpackedFloat) :
    (Float.ofModel (.pack u)).toBits.toNat = (UnpackedFloat.pack Format.binary64 u).toNat := rfl

/-- The bits of a magnitude in canonical form. -/
theorem toNat_pack {x : Binary} (hx : x.Canonical) (hpos : 0 < x.mantissa) (sign : Sign) :
    (UnpackedFloat.pack Format.binary64 (.finite sign x.mantissa x.exponent hpos)).toNat =
      sign.toBitVec.toNat * 2 ^ 63 +
        (if x.mantissa < 2 ^ 52 then x.mantissa
          else (x.exponent + 1075).toNat * 2 ^ 52 + (x.mantissa - 2 ^ 52)) := by
  obtain ⟨m, e⟩ := x
  obtain ⟨hlt, hle, hge, hfull⟩ := hx
  dsimp only at hpos hlt hle hge hfull ⊢
  obtain ⟨field, hfield⟩ : ∃ field : ℕ, field = (e + (1023 : ℕ) + (52 : ℕ)).toNat := ⟨_, rfl⟩
  have hlog : m.log2 + 1 = 53 ↔ ¬ m < 2 ^ 52 := by
    have := (Nat.log2_lt hpos.ne').mpr hlt
    have hle_log := Nat.le_log2 hpos.ne' (k := 52)
    omega
  show (if 2 ^ 11 ≤ (e + (1023 : ℕ) + (52 : ℕ)).toNat + 1 then packedInfinity Format.binary64 sign
    else if m.log2 + 1 = 53 then packComponents Format.binary64 sign
      (BitVec.ofNat _ (e + (1023 : ℕ) + (52 : ℕ)).toNat) (BitVec.ofNat _ m)
    else packComponents Format.binary64 sign 0#_ (BitVec.ofNat _ m)).toNat = _
  rw [← hfield, if_neg (by omega)]
  by_cases hsmall : m < 2 ^ 52
  · rw [if_neg (hlog.not.mpr (not_not.mpr hsmall)), if_pos hsmall, toNat_packComponents]
    show sign.toBitVec.toNat * 2 ^ 63 + 0 * 2 ^ 52 + m % 2 ^ 52 = _
    omega
  · rw [if_pos (hlog.mpr hsmall), if_neg hsmall, toNat_packComponents]
    show sign.toBitVec.toNat * 2 ^ 63 + field % 2 ^ 11 * 2 ^ 52 + m % 2 ^ 52 = _
    omega

/-- A sign and a magnitude are found again in the double that they are packed to. -/
theorem ofFloat?_pack {x : Binary} (hx : x.Canonical) (hpos : 0 < x.mantissa) (sign : Sign) :
    ofFloat? (.ofModel (.pack (.finite sign x.mantissa x.exponent hpos))) = some x ∧
      signOf (.ofModel (.pack (.finite sign x.mantissa x.exponent hpos))) = sign := by
  have hbits := toNat_pack hx hpos sign
  rw [← toNat_toBits_ofModel_pack] at hbits
  have hsign : sign.toBitVec.toNat < 2 := sign.toBitVec.isLt
  obtain ⟨m, e⟩ := x
  obtain ⟨hlt, hle, hge, hfull⟩ := hx
  dsimp only at hpos hlt hle hge hfull hbits ⊢
  generalize Float.ofModel (.pack (.finite sign m e hpos)) = f at hbits ⊢
  constructor
  · rw [ofFloat?_eq_some_iff]
    by_cases hsmall : m < 2 ^ 52
    · rw [if_pos hsmall] at hbits
      have hexponent : f.toBits.toNat / 2 ^ 52 % 2 ^ 11 = 0 := by omega
      have hmantissa : f.toBits.toNat % 2 ^ 52 = m := by omega
      rw [hexponent, hmantissa, ofFields_zero]
      refine ⟨by norm_num, ?_⟩
      rw [hfull.resolve_right (by omega)]
    · rw [if_neg hsmall] at hbits
      have hexponent : f.toBits.toNat / 2 ^ 52 % 2 ^ 11 = (e + 1075).toNat := by omega
      have hmantissa : f.toBits.toNat % 2 ^ 52 = m - 2 ^ 52 := by omega
      rw [hexponent, hmantissa, ofFields_of_ne_zero (by omega)]
      refine ⟨by omega, ?_⟩
      rw [Binary.mk.injEq]
      exact ⟨by omega, by omega⟩
  · apply signOf_eq
    split at hbits <;> omega

/-- The zeros are packed with their signs. -/
theorem ofFloat?_pack_zero (sign : Sign) :
    ofFloat? (.ofModel (.pack (.zero sign))) = some ⟨0, -1074⟩ ∧
      signOf (.ofModel (.pack (.zero sign))) = sign := by
  cases sign with
  | negative =>
    have hsign : signBit (.ofModel (.pack (.zero .negative))) = true := by decide +kernel
    exact ⟨by decide +kernel, by rw [signOf, if_pos hsign]⟩
  | positive =>
    have hsign : signBit (.ofModel (.pack (.zero .positive))) = false := by decide +kernel
    exact ⟨by decide +kernel, by rw [signOf, if_neg (by simp [hsign])]⟩

/-- A finite double differs from its opposite in the sign only. -/
theorem ofFloat?_neg {f : Float} {x : Binary} (h : ofFloat? f = some x) :
    ofFloat? (-f) = some x ∧ signOf (-f) = -signOf f := by
  have hx := canonical_of_ofFloat? h
  have hneg : -f = .ofModel (.pack f.toModel.unpack.neg) := rfl
  rw [hneg, unpack_of_ofFloat? h]
  by_cases hpos : 0 < x.mantissa
  · rw [dif_pos hpos]
    exact ofFloat?_pack hx hpos (-signOf f)
  · rw [dif_neg hpos, hx.eq_zero hpos]
    exact ofFloat?_pack_zero (-signOf f)

end Binary

end ExplicitInstantiation
