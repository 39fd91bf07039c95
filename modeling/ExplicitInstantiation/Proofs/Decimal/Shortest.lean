import ExplicitInstantiation.Proofs.Decimal.Nearest

/-!
# The shortest decimal rounds to the double

The shortest decimal of a double is the first multiple of a power of ten, from the largest power on,
that lies between the bounds of the double. Decimals and bounds are compared as natural numbers, in
a scale that clears all negative exponents; what lies between them is what rounds to the double
(`Binary.isInside_iff`). A multiple is found at last when the powers of ten lie closer than the
bounds (`Binary.isInside_next`, `Binary.unit_least_lt`). So the shortest decimal rounds to the
double (`Binary.shortest_spec`). That no shorter one does is not needed to read it back.
-/

namespace ExplicitInstantiation

namespace Binary

/-! ### Multiples of a power of ten -/

/-- A unit of the power of ten, in the scale in which decimals and doubles are compared. -/
def unit (x : Binary) (power : ℤ) : ℕ :=
  10 ^ power.toNat * 2 ^ (-(x.exponent - 2)).toNat

/-- A quarter of the last binary place, in the same scale. -/
def place (x : Binary) (power : ℤ) : ℕ :=
  2 ^ (x.exponent - 2).toNat * 10 ^ (-power).toNat

/-- Whether a multiple of the power of ten stands for `x`. -/
def isInside (x : Binary) (power : ℤ) (c : ℕ) : Bool :=
  if x.mantissa % 2 = 0 then
    x.lowerBound * x.place power ≤ c * x.unit power &&
      c * x.unit power ≤ x.upperBound * x.place power
  else
    x.lowerBound * x.place power < c * x.unit power &&
      c * x.unit power < x.upperBound * x.place power

/-- The multiple is the one below the value or the one above it, whichever rounds to the double and
lies closer. -/
theorem multiple?_eq (x : Binary) (power : ℤ) :
    x.multiple? power =
      let value := 4 * x.mantissa * x.place power
      let below := value / x.unit power
      if x.isInside power below then
        if x.isInside power (below + 1) &&
            (below + 1) * x.unit power - value ≤ value - below * x.unit power then
          some (below + 1)
        else some below
      else if x.isInside power (below + 1) then some (below + 1)
      else none := rfl

/-- What is taken for `x` stands for it. -/
theorem isInside_of_multiple? {x : Binary} {power : ℤ} {c : ℕ} (h : x.multiple? power = some c) :
    x.isInside power c = true := by
  rw [multiple?_eq] at h
  simp only at h
  split at h
  · next hbelow =>
    split at h
    · next habove =>
      obtain rfl := Option.some.inj h
      exact (Bool.and_eq_true_iff.mp habove).1
    · obtain rfl := Option.some.inj h
      exact hbelow
  · split at h
    · next habove =>
      obtain rfl := Option.some.inj h
      exact habove
    · cases h

/-- If the multiple above the value stands for `x`, one is taken. -/
theorem isSome_multiple? {x : Binary} {power : ℤ}
    (h : x.isInside power (4 * x.mantissa * x.place power / x.unit power + 1) = true) :
    (x.multiple? power).isSome = true := by
  rw [multiple?_eq]
  simp only [h]
  split
  · split <;> rfl
  · rfl

/-- A power with a natural exponent, which is that of an integer cut off at zero. -/
theorem pow_toNat {a : ℚ} (ha : a ≠ 0) (k : ℤ) : a ^ k.toNat = a ^ k * a ^ (-k).toNat := by
  rw [← zpow_natCast, ← zpow_natCast, ← zpow_add₀ ha]
  congr 1
  omega

/-- A multiple stands for `x` exactly when it rounds to it. -/
theorem isInside_iff {x : Binary} {power : ℤ} {c : ℕ} :
    x.isInside power c = true ↔ x.RoundsTo (c * 10 ^ power) := by
  obtain ⟨scale, hscale⟩ : ∃ scale : ℚ,
      scale = 2 ^ (-(x.exponent - 2)).toNat * 10 ^ (-power).toNat := ⟨_, rfl⟩
  have hpos : 0 < scale := by
    rw [hscale]
    positivity
  have hunit : (x.unit power : ℚ) = 10 ^ power * scale := by
    unfold unit
    push_cast
    rw [pow_toNat (by norm_num) power, hscale]
    ring
  have hplace : (x.place power : ℚ) = 2 ^ (x.exponent - 2) * scale := by
    unfold place
    push_cast
    rw [pow_toNat two_ne_zero (x.exponent - 2), hscale]
    ring
  have hquarter : 4 * (c * 10 ^ power / 2 ^ x.exponent : ℚ) =
      c * 10 ^ power / 2 ^ (x.exponent - 2) := by
    have hfour : (2 : ℚ) ^ (2 : ℤ) = 4 := by norm_num
    rw [zpow_sub₀ two_ne_zero, hfour]
    field_simp
  have hquarter_pos : (0 : ℚ) < 2 ^ (x.exponent - 2) := zpow_pos two_pos _
  have hle (b : ℕ) : b * x.place power ≤ c * x.unit power ↔
      (b : ℚ) ≤ 4 * (c * 10 ^ power / 2 ^ x.exponent) := by
    rw [hquarter, le_div_iff₀ hquarter_pos, ← mul_le_mul_iff_left₀ hpos, mul_assoc, ← hplace,
      mul_assoc, ← hunit]
    exact_mod_cast Iff.rfl
  have hge (b : ℕ) : c * x.unit power ≤ b * x.place power ↔
      4 * (c * 10 ^ power / 2 ^ x.exponent) ≤ (b : ℚ) := by
    rw [hquarter, div_le_iff₀ hquarter_pos, ← mul_le_mul_iff_left₀ hpos, mul_assoc, ← hunit,
      mul_assoc, ← hplace]
    exact_mod_cast Iff.rfl
  unfold isInside RoundsTo
  split
  · rw [Bool.and_eq_true_iff, decide_eq_true_iff, decide_eq_true_iff, hle, hge]
  · rw [Bool.and_eq_true_iff, decide_eq_true_iff, decide_eq_true_iff, ← not_le, ← not_le, hge, hle,
      not_le, not_le]

/-! ### One is found -/

/-- On a grid that is finer than the upper half of the interval, the next multiple above the value
stands for it. -/
theorem isInside_next {x : Binary} {power : ℤ} (hfine : x.unit power < 2 * x.place power) :
    x.isInside power (4 * x.mantissa * x.place power / x.unit power + 1) = true := by
  have hunit : 0 < x.unit power := by
    unfold unit
    positivity
  have hlow : x.lowerBound * x.place power ≤ 4 * x.mantissa * x.place power := by
    refine Nat.mul_le_mul_right _ ?_
    unfold lowerBound
    split <;> omega
  have habove : 4 * x.mantissa * x.place power <
      (4 * x.mantissa * x.place power / x.unit power + 1) * x.unit power := by
    rw [mul_comm _ (x.unit power)]
    exact Nat.lt_mul_div_succ _ hunit
  have hbelow : (4 * x.mantissa * x.place power / x.unit power + 1) * x.unit power <
      x.upperBound * x.place power := by
    have hquotient := Nat.div_mul_le_self (4 * x.mantissa * x.place power) (x.unit power)
    rw [upperBound, add_mul, add_mul, one_mul]
    omega
  unfold isInside
  split
  · rw [Bool.and_eq_true_iff, decide_eq_true_iff, decide_eq_true_iff]
    exact ⟨hlow.trans habove.le, hbelow.le⟩
  · rw [Bool.and_eq_true_iff, decide_eq_true_iff, decide_eq_true_iff]
    exact ⟨hlow.trans_lt habove, hbelow⟩

/-- The last of the powers of ten that are tried is finer than all doubles. -/
theorem unit_least_lt {x : Binary} (hx : x.Canonical) : x.unit (-350) < 2 * x.place (-350) := by
  have hexponent := hx.le_exponent
  obtain ⟨bound, hbound, hgrid⟩ : ∃ bound, (-(x.exponent - 2)).toNat ≤ bound ∧
      2 ^ bound < 2 * 10 ^ (-(-350 : ℤ)).toNat := ⟨1076, by omega, by decide +kernel⟩
  calc x.unit (-350) = 2 ^ (-(x.exponent - 2)).toNat := one_mul _
    _ ≤ 2 ^ bound := Nat.pow_le_pow_right two_pos hbound
    _ < 2 * 10 ^ (-(-350 : ℤ)).toNat := hgrid
    _ ≤ 2 * x.place (-350) :=
      Nat.mul_le_mul_left 2 (Nat.le_mul_of_pos_left _ (Nat.two_pow_pos _))

/-- Only a positive number rounds to a double that is not zero. -/
theorem pos_of_roundsTo {x : Binary} (hpos : 0 < x.mantissa) {r : ℚ} (hr : x.RoundsTo r) :
    0 < r := by
  have hmantissa : (1 : ℚ) ≤ x.mantissa := by exact_mod_cast hpos
  have hhalf : 0 < ((x.mantissa : ℚ) - 1 / 2) * 2 ^ x.exponent :=
    mul_pos (by linarith) (zpow_pos two_pos _)
  exact hhalf.trans_le (hr.between hpos).1

/-- The shortest decimal rounds to the double, is not zero, and has no more places than are
tried. -/
theorem shortest_spec {x : Binary} (hx : x.Canonical) (hpos : 0 < x.mantissa) :
    x.RoundsTo (x.shortest.digits * 10 ^ x.shortest.exponent) ∧ 0 < x.shortest.digits ∧
      -350 ≤ x.shortest.exponent := by
  obtain ⟨least, hleast⟩ := Option.isSome_iff_exists.mp
    (isSome_multiple? (isInside_next (unit_least_lt hx)))
  have hmem : (-350 : ℤ) ∈ powers := List.mem_map.mpr ⟨659, List.mem_range.mpr (by norm_num), rfl⟩
  have hfound : (powers.findSome? fun power =>
      (x.multiple? power).map fun digits => (⟨digits, power⟩ : Decimal)).isSome = true := by
    rw [List.findSome?_isSome_iff]
    exact ⟨-350, hmem, by rw [hleast]; rfl⟩
  obtain ⟨d, hd⟩ := Option.isSome_iff_exists.mp hfound
  obtain ⟨power, hpower, hmultiple⟩ := List.exists_of_findSome?_eq_some hd
  obtain ⟨digits, hdigits, rfl⟩ := Option.map_eq_some_iff.mp hmultiple
  have hshortest : x.shortest = ⟨digits, power⟩ := by
    rw [shortest, if_neg hpos.ne', hd]
    rfl
  have hr := isInside_iff.mp (isInside_of_multiple? hdigits)
  rw [hshortest]
  refine ⟨hr, ?_, ?_⟩
  · have hvalue := pos_of_roundsTo hpos hr
    have hscale : (0 : ℚ) < 10 ^ power := zpow_pos (by norm_num) _
    exact_mod_cast pos_of_mul_pos_left hvalue hscale.le
  · obtain ⟨i, hi, rfl⟩ := List.mem_map.mp hpower
    have := List.mem_range.mp hi
    show -350 ≤ 309 - (i : ℤ)
    omega

end Binary

end ExplicitInstantiation
