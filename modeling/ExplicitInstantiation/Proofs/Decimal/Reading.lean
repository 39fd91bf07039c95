import Mathlib.Data.List.TakeWhile
import ExplicitInstantiation.Proofs.Decimal.Shortest

/-!
# Reals are read back from their text

A finite double is written as its sign and the text of its magnitude (`Binary.valueText_eq`). There
are two forms of that text: digits around a point, which are read back as a double of the same
magnitude, and digits alone, which are not read as a real at all (`Binary.magnitudeText_cases`). The
second form is that of large whole numbers. A small whole number is written with a point and a zero
behind it, and a number with a fraction in its shortest decimal, which rounds to it.
-/

namespace ExplicitInstantiation

/-! ### Digits -/

/-- The digits of a natural number stand for it. -/
theorem digitsValue_ofNat (n : ℕ) : digitsValue (Text.ofNat n) = n :=
  Text.ofDigitChars_ofNat n

/-- A zero is a digit. -/
theorem isDigit_zero : ∀ c ∈ ['0'], c.isDigit = true :=
  List.all_eq_true.mp rfl

/-- Digits in front count for as many places more as there are digits behind them. -/
theorem digitsValue_append (s t : Text) :
    digitsValue (s ++ t) = 10 ^ t.length * digitsValue s + digitsValue t := by
  show Nat.ofDigitChars 10 (s ++ t) 0 = _
  rw [Nat.ofDigitChars_append, Nat.ofDigitChars_eq_ofDigitChars_zero]
  rfl

/-- Zeros in front do not change the number. -/
theorem digitsValue_zeros (n : ℕ) (t : Text) :
    digitsValue (List.replicate n '0' ++ t) = digitsValue t := by
  show Nat.ofDigitChars 10 _ 0 = _
  rw [Nat.ofDigitChars_append, Nat.ofDigitChars_replicate_zero, mul_zero]
  rfl

/-- Zeros behind a number multiply it. -/
theorem ofNat_append_zeros {n : ℕ} (hpos : 0 < n) (k : ℕ) :
    Text.ofNat n ++ List.replicate k '0' = Text.ofNat (n * 10 ^ k) := by
  induction k with
  | zero => simp
  | succ k ih =>
    have hstep := Nat.toDigits_append_toDigits (b := 10) (n := n * 10 ^ k) (d := 0) (by decide)
      (by positivity) (by decide)
    rw [Nat.toDigits_zero, add_zero, mul_left_comm, ← pow_succ'] at hstep
    rw [List.replicate_succ', ← List.append_assoc, ih]
    exact hstep

/-- Digits are taken as the number that they stand for. -/
theorem digits?_of_isDigit {t : Text} (hne : t ≠ []) (h : ∀ c ∈ t, c.isDigit = true) :
    digits? t = some (digitsValue t) := by
  unfold digits?
  rw [if_neg]
  simpa [hne] using h

/-- Digits around a point are read as the double next to them. -/
theorem readReal?_point {whole fraction : Text} (hwhole : ∀ c ∈ whole, c.isDigit = true)
    (hfraction : ∀ c ∈ fraction, c.isDigit = true) (hne : whole ≠ []) :
    readReal? (whole ++ '.' :: fraction) =
      some (nearestReal (digitsValue (whole ++ fraction)) (-fraction.length)) := by
  have htake : (whole ++ '.' :: fraction).takeWhile Char.isDigit = whole := by
    rw [List.takeWhile_append_of_pos hwhole, List.takeWhile_cons_of_neg (by decide),
      List.append_nil]
  have hdrop : (whole ++ '.' :: fraction).dropWhile Char.isDigit = '.' :: fraction := by
    rw [List.dropWhile_append_of_pos hwhole, List.dropWhile_cons_of_neg (by decide)]
  have hdigits : digits? (whole ++ fraction) = some (digitsValue (whole ++ fraction)) :=
    digits?_of_isDigit (by simp [hne]) (List.forall_mem_append.mpr ⟨hwhole, hfraction⟩)
  unfold readReal?
  simp only [htake, hdrop, List.takeWhile_eq_self_iff.mpr hfraction,
    List.dropWhile_eq_nil_iff.mpr hfraction, hdigits]
  show some (nearestReal _ (0 - (fraction.length : ℤ))) = _
  rw [zero_sub]

/-! ### The text of a magnitude -/

namespace Binary

/-- The text of a double without its sign. -/
def magnitudeText (x : Binary) : Text :=
  match x.toNat? with
  | some n => if n < 10 ^ 15 then Text.ofNat n ++ ['.', '0'] else x.shortest.positional
  | none => x.shortest.positional

/-- The text of a double is that of its magnitude, with its sign. -/
theorem valueText_eq {f : Float} {x : Binary} (h : ofFloat? f = some x) :
    valueText f = withSign (signBit f) x.magnitudeText := by
  unfold valueText
  rw [h]
  rfl

/-- A text in digits with a point among them is read as a double with the magnitude `x`. -/
inductive ReadsBack (x : Binary) : Text → Prop where
  /-- Digits, a point and digits, which are read as such a double. -/
  | intro {whole fraction : Text} {f : Float} (hne : whole ≠ [])
    (hwhole : ∀ c ∈ whole, c.isDigit = true) (hfraction : ∀ c ∈ fraction, c.isDigit = true)
    (hread : readReal? (whole ++ '.' :: fraction) = some f)
    (hmagnitude : ofFloat? f = some x) (hsign : signOf f = .positive) :
    ReadsBack x (whole ++ '.' :: fraction)

/-- A number with a fraction is written with a point. -/
theorem positional_of_neg {d : Decimal} {places : ℕ} (hpos : 0 < places)
    (h : d.exponent = -places) :
    ∃ whole fraction : Text, d.positional = whole ++ '.' :: fraction ∧ whole ≠ [] ∧
      (∀ c ∈ whole, c.isDigit = true) ∧ (∀ c ∈ fraction, c.isDigit = true) ∧
      digitsValue (whole ++ fraction) = d.digits ∧ fraction.length = places := by
  obtain ⟨e, rfl⟩ := Nat.exists_eq_add_of_lt hpos
  rw [zero_add] at h ⊢
  have hnegSucc : d.exponent = .negSucc e := by
    rw [h, Int.negSucc_eq]
    norm_cast
  have hdigits := Text.isDigit_ofNat d.digits
  unfold Decimal.positional
  rw [hnegSucc]
  simp only
  split
  · next hlong =>
    refine ⟨_, _, rfl, ?_, ?_, ?_, ?_, ?_⟩
    · exact List.ne_nil_of_length_pos (by rw [List.length_take]; omega)
    · exact fun c hc => hdigits c (List.mem_of_mem_take hc)
    · exact fun c hc => hdigits c (List.mem_of_mem_drop hc)
    · rw [List.take_append_drop, digitsValue_ofNat]
    · rw [List.length_drop]
      omega
  · next hshort =>
    refine ⟨['0'], List.replicate (e + 1 - (Text.ofNat d.digits).length) '0' ++ Text.ofNat d.digits,
      rfl, List.cons_ne_nil _ _, isDigit_zero, ?_, ?_, ?_⟩
    · intro c hc
      rcases List.mem_append.mp hc with hzero | hdigit
      · rw [List.eq_of_mem_replicate hzero]
        decide
      · exact hdigits c hdigit
    · show digitsValue (List.replicate (e + 1 - (Text.ofNat d.digits).length + 1) '0' ++
        Text.ofNat d.digits) = _
      rw [digitsValue_zeros, digitsValue_ofNat]
    · rw [List.length_append, List.length_replicate]
      omega

/-- A whole number is written in digits. -/
theorem positional_of_nonneg {d : Decimal} {k : ℕ} (hpos : 0 < d.digits) (h : d.exponent = k) :
    d.positional = Text.ofNat (d.digits * 10 ^ k) := by
  unfold Decimal.positional
  rw [h]
  exact ofNat_append_zeros hpos k

/-- A magnitude that is a natural number has its value. -/
theorem value_of_toNat? {x : Binary} {n : ℕ} (h : x.toNat? = some n) : x.value = n := by
  obtain ⟨m, e⟩ := x
  unfold toNat? at h
  unfold value
  cases e with
  | ofNat e =>
    obtain rfl : m * 2 ^ e = n := Option.some.inj h
    push_cast
    rfl
  | negSucc e =>
    have hmod : m % 2 ^ (e + 1) = 0 := by
      by_contra hmod
      exact absurd ((if_neg hmod).symm.trans h) (by simp)
    have hquotient : m / 2 ^ (e + 1) = n := Option.some.inj ((if_pos hmod).symm.trans h)
    have hm : m = 2 ^ (e + 1) * n := by
      rw [← hquotient]
      exact (Nat.mul_div_cancel' (Nat.dvd_of_mod_eq_zero hmod)).symm
    simp only [hm]
    rw [zpow_negSucc]
    push_cast
    field_simp

/-- A decimal with a point that rounds to `x` is read back. -/
theorem ReadsBack.of_roundsTo {x : Binary} (hx : x.Canonical) (hpos : 0 < x.mantissa)
    {whole fraction : Text} (hwhole_ne : whole ≠ []) (hfraction_ne : fraction ≠ [])
    (hwhole : ∀ c ∈ whole, c.isDigit = true) (hfraction : ∀ c ∈ fraction, c.isDigit = true)
    (hlength : fraction.length ≤ 400)
    (hr : x.RoundsTo (digitsValue (whole ++ fraction) / 10 ^ fraction.length)) :
    x.ReadsBack (whole ++ '.' :: fraction) := by
  have hdigits : 0 < digitsValue (whole ++ fraction) := by
    by_contra hzero
    have hvalue := pos_of_roundsTo hpos hr
    rw [Nat.eq_zero_of_not_pos hzero, Nat.cast_zero, zero_div] at hvalue
    exact lt_irrefl _ hvalue
  obtain ⟨hmagnitude, hsign⟩ := ofFloat?_nearestReal hx hpos hdigits
    (List.length_pos_of_ne_nil hfraction_ne) hlength hr
  exact .intro hwhole_ne hwhole hfraction
    (readReal?_point hwhole hfraction hwhole_ne) hmagnitude hsign

/-- The shortest decimal is read back, or it is a natural number without a point. -/
theorem shortest_cases {x : Binary} (hx : x.Canonical) (hpos : 0 < x.mantissa) :
    x.ReadsBack x.shortest.positional ∨ ∃ n, 0 < n ∧ x.shortest.positional = Text.ofNat n := by
  obtain ⟨hr, hdigits, hleast⟩ := shortest_spec hx hpos
  by_cases hsign : 0 ≤ x.shortest.exponent
  · obtain ⟨k, hk⟩ := Int.eq_ofNat_of_zero_le hsign
    exact .inr ⟨_, by positivity, positional_of_nonneg hdigits hk⟩
  · obtain ⟨places, hplaces⟩ := Int.eq_ofNat_of_zero_le (by omega : 0 ≤ -x.shortest.exponent)
    have hexponent : x.shortest.exponent = -places := by omega
    obtain ⟨whole, fraction, htext, hne, hwhole, hfraction, hvalue, hlength⟩ :=
      positional_of_neg (by omega) hexponent
    rw [hexponent, zpow_neg, zpow_natCast, ← div_eq_mul_inv, ← hvalue, ← hlength] at hr
    rw [htext]
    refine .inl (.of_roundsTo hx hpos hne ?_ hwhole hfraction (by omega) hr)
    exact List.ne_nil_of_length_pos (by omega)

/-- A whole number is read back if a point and a zero follow it. -/
theorem readsBack_of_toNat? {x : Binary} (hx : x.Canonical) (hpos : 0 < x.mantissa) {n : ℕ}
    (h : x.toNat? = some n) : x.ReadsBack (Text.ofNat n ++ ['.', '0']) := by
  have hdigits : digitsValue (Text.ofNat n ++ ['0']) = 10 * n := by
    rw [digitsValue_append, digitsValue_ofNat]
    rfl
  have hvalue : ((10 * n : ℕ) : ℚ) / 10 ^ 1 = x.value := by
    rw [value_of_toNat? h]
    push_cast
    field_simp
  have hr : x.RoundsTo (digitsValue (Text.ofNat n ++ ['0']) / 10 ^ ['0'].length) := by
    rw [hdigits]
    exact hvalue ▸ roundsTo_value hpos
  exact .of_roundsTo hx hpos (Text.ofNat_ne_nil n) (List.cons_ne_nil _ _) (Text.isDigit_ofNat n)
    isDigit_zero (by decide) hr

/-- Zero is read back. -/
theorem readsBack_zero : ReadsBack ⟨0, -1074⟩ ['0', '.', '0'] := by
  have hread : readReal? (['0'] ++ '.' :: ['0']) = some (Float.ofBits 0) :=
    readReal?_point isDigit_zero isDigit_zero (List.cons_ne_nil _ _)
  have hmagnitude : ofFloat? (Float.ofBits 0) = some ⟨0, -1074⟩ := by decide +kernel
  have hsign : signBit (Float.ofBits 0) = false := by decide +kernel
  exact .intro (List.cons_ne_nil _ _) isDigit_zero isDigit_zero hread
    hmagnitude (signOf_eq_positive hsign)

/-- The text of a double is read back, or it is a natural number without a point. -/
theorem magnitudeText_cases {x : Binary} (hx : x.Canonical) :
    x.ReadsBack x.magnitudeText ∨ ∃ n, 0 < n ∧ x.magnitudeText = Text.ofNat n := by
  by_cases hpos : 0 < x.mantissa
  · unfold magnitudeText
    split
    · next n hn =>
      split
      · exact .inl (readsBack_of_toNat? hx hpos hn)
      · exact shortest_cases hx hpos
    · exact shortest_cases hx hpos
  · left
    obtain rfl := hx.eq_zero hpos
    have htext : magnitudeText ⟨0, -1074⟩ = ['0', '.', '0'] := by decide +kernel
    rw [htext]
    exact readsBack_zero

end Binary

end ExplicitInstantiation
