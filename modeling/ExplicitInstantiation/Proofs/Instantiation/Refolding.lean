import ExplicitInstantiation.Instantiation.Resolve
import ExplicitInstantiation.Proofs.Arithmetic.Literal
import ExplicitInstantiation.Proofs.Decimal.Reading
import ExplicitInstantiation.Proofs.Instantiation.Written

/-!
# Folding what was folded

What an argument is folded to is the argument itself or the text of a number, and that text is an
argument again. A minus sign in it is not part of a number but an operator (`evaluate_minus`), so a
negative number is read as the opposite of its magnitude, and it is read only if the magnitude is.

The magnitude of an integer is read if it is in range, which that of the least integer is not
(`tokenize_ofNat`, `evaluate_minus_ofNat`). The magnitude of a real is read back if it is written
with a point (`Binary.ReadsBack.foldArgument_minus`); without one it is read as an integer. So a
number is folded to its own text unless that is one of the texts that `Unreadable` lists
(`foldArgument_toText`).
-/

namespace ExplicitInstantiation

/-! ### Values are in range -/

/-- The tokens of a text are in range. -/
theorem Token.inRange_of_tokenize {t : Text} {tokens : List Token} (h : tokenize t = .ok tokens) :
    ∀ token ∈ tokens, token.InRange := by
  fun_induction tokenize t generalizing tokens with
  | case1 =>
    cases h
    simp
  | case2 c rest hblank ih => exact ih h
  | case3 c rest hblank token hsymbol ih =>
    obtain ⟨after, hafter, htokens⟩ := bind_eq_ok.mp h
    cases htokens
    rw [List.forall_mem_cons]
    exact ⟨(symbol_cases hsymbol).2.2.2, ih hafter⟩
  | case4 => cases h
  | case5 c rest hblank hsymbol hstarts cut value hvalue =>
    rename_i ih
    obtain ⟨after, hafter, htokens⟩ := bind_eq_ok.mp h
    cases htokens
    rw [List.forall_mem_cons]
    refine ⟨?_, ih hafter⟩
    cases value with
    | real x => exact trivial
    | int n =>
      obtain ⟨-, -, rfl, hrange⟩ := ofLiteral?_eq_int_iff.mp hvalue
      exact Number.inRange_natCast.mpr hrange
  | case6 => cases h

/-- The result of an operator is in range. -/
theorem Operator.inRange_of_apply {op : Operator} {a b value : Number}
    (h : op.apply a b = .ok value) : Token.InRange (.number value) := by
  cases value with
  | real x => exact trivial
  | int v =>
    cases a with
    | real x => cases b <;> obtain ⟨y, -, hy⟩ := map_eq_ok.mp h <;> cases hy
    | int a =>
      cases b with
      | real x =>
        obtain ⟨y, -, hy⟩ := map_eq_ok.mp h
        cases hy
      | int b =>
        obtain ⟨n, hn, hv⟩ := map_eq_ok.mp h
        cases hv
        obtain ⟨rfl, -, hrange⟩ := onInts_eq_ok_iff.mp hn
        exact Number.inRange_iff_bounds.mpr hrange

/-- A signed operand that is in range has a result in range. -/
theorem Sign.inRange_of_apply {sign : Sign} {a value : Number} (ha : Token.InRange (.number a))
    (h : sign.apply a = .ok value) : Token.InRange (.number value) := by
  cases sign with
  | plus =>
    cases h
    exact ha
  | minus =>
    cases a with
    | real x =>
      cases h
      exact trivial
    | int n =>
      obtain ⟨m, hm, hv⟩ := map_eq_ok.mp h
      cases hv
      obtain ⟨rfl, hrange⟩ := Operator.checked_eq_ok_iff.mp hm
      exact Number.inRange_iff_bounds.mpr hrange

/-- If the numbers in a tree are in range, so is its value. -/
theorem Tree.inRange_of_value {k : Level} (t : Tree k) : ∀ {value : Number},
    (∀ token ∈ t.tokens, token.InRange) → t.value = .ok value → Token.InRange (.number value) := by
  induction t with
  | sum left sign right ihl ihr | product left scale right ihl ihr =>
    intro value _ h
    obtain ⟨a, ha, h⟩ := bind_eq_ok.mp h
    obtain ⟨b, hb, h⟩ := bind_eq_ok.mp h
    exact Operator.inRange_of_apply h
  | term inner ih | factor inner ih => exact ih
  | signed sign operand ih =>
    intro value htokens h
    obtain ⟨a, ha, h⟩ := bind_eq_ok.mp h
    have hoperand := fun token htoken => htokens token (List.mem_cons_of_mem _ htoken)
    exact Sign.inRange_of_apply (ih hoperand ha) h
  | number x =>
    intro value htokens h
    cases h
    exact htokens _ List.mem_cons_self
  | parens inner ih =>
    intro value htokens h
    refine ih (fun token htoken => htokens token ?_) h
    exact List.mem_cons_of_mem _ (List.mem_append_left _ htoken)

/-- The value of an expression is in range. -/
theorem inRange_of_evaluate {t : Text} {value : Number} (h : evaluate t = .ok value) :
    Token.InRange (.number value) := by
  obtain ⟨tokens, htokens, h⟩ := bind_eq_ok.mp h
  have hrange := Token.inRange_of_tokenize htokens
  obtain ⟨tree, htree, hvalue⟩ : StartsWith .sum tokens value [] :=
    (startsWith_of_expressionOf tokens (Nat.zero_le _) (evaluateTokens_eq_ok.mp h)).1
  rw [List.append_nil] at htree
  exact tree.inRange_of_value (htree ▸ hrange) hvalue

/-! ### Signed numbers -/

/-- A minus sign in front of a number. -/
theorem evaluate_minus {t : Text} {number : Number}
    (h : Token.tokenize t = .ok [.number number]) {value : Number} :
    evaluate ('-' :: t) = .ok value ↔ number.negate = .ok value := by
  have hminus : Token.ofSymbol? '-' = some .minus := rfl
  unfold evaluate
  rw [Token.tokenize_symbol hminus, h]
  exact evaluateTokens_tree (.term (.factor (.signed .minus (.number number))))

/-- Behind a minus sign, too, a text without tokens has no value, for the same reason. -/
theorem evaluate_minus_of_error {t : Text} {reason : Reason}
    (h : Token.tokenize t = .error reason) : evaluate ('-' :: t) = .error reason := by
  have hminus : Token.ofSymbol? '-' = some .minus := rfl
  unfold evaluate
  rw [Token.tokenize_symbol hminus, h]
  rfl

/-- With a minus sign a text without tokens cannot be folded. -/
theorem foldArgument_minus_of_error {t : Text} {reason : Reason}
    (h : Token.tokenize t = .error reason) :
    foldArgument ('-' :: t) = .error ⟨'-' :: t, reason⟩ := by
  have hoperator : ('-' :: t).any isOperatorChar = true := rfl
  unfold foldArgument valueOf
  rw [if_pos hoperator, evaluate_minus_of_error h]
  rfl

/-- An argument with a minus sign folds to the text of its value. -/
theorem foldArgument_minus_iff {t result : Text} :
    foldArgument ('-' :: t) = .ok result ↔
      ∃ number, evaluate ('-' :: t) = .ok number ∧ number.toText = result := by
  have hoperator : ('-' :: t).any isOperatorChar = true := rfl
  rw [foldArgument_eq_ok_iff, hoperator]
  simp

/-! ### Integers -/

/-- The digits of a natural number are one token if the number is in range, and no token otherwise.
-/
theorem tokenize_ofNat (n : ℕ) :
    Token.tokenize (Text.ofNat n) =
      if Number.inRange n then .ok [.number (.int n)]
      else .error (.invalidLiteral (Text.ofNat n)) := by
  have hends : ∀ c ∈ ([] : Text).head?, Token.EndsNumber c := by simp
  have hread := Token.tokenize_digits (Text.ofNat_ne_nil n) (Text.isDigit_ofNat n) hends
  rw [List.append_nil, Text.ofDigitChars_ofNat, Token.tokenize] at hread
  exact hread

/-- The decimal form of a negative number has a minus sign in front of the digits. -/
theorem ofInt_neg {n : ℕ} (hpos : 0 < n) : Text.ofInt (-n) = '-' :: Text.ofNat n := by
  obtain ⟨k, rfl⟩ := Nat.exists_eq_add_of_lt hpos
  rw [zero_add]
  rfl

/-- A negative whole number is read if its opposite is in range. -/
theorem evaluate_minus_ofNat {n : ℕ} {value : Number} :
    evaluate ('-' :: Text.ofNat n) = .ok value ↔ value = .int (-n) ∧ n ≤ Number.greatest := by
  have hread := tokenize_ofNat n
  by_cases hrange : Number.inRange n = true
  · rw [if_pos hrange] at hread
    have hle := Number.inRange_natCast.mp hrange
    have hneg : Number.inRange (-n) = true := by
      rw [Number.inRange_iff]
      unfold Number.least Number.greatest at *
      omega
    rw [evaluate_minus hread, Number.negate, Operator.checked, if_pos hneg]
    simp [Except.map, hle, eq_comm]
  · rw [if_neg hrange] at hread
    have hgt := Number.inRange_natCast.not.mp hrange
    simp [evaluate_minus_of_error hread, hgt]

/-- The decimal form of an integer in range is read as the integer, unless that is the least one. -/
theorem evaluate_ofInt {n : ℤ} (hrange : Number.inRange n = true) {value : Number} :
    evaluate (Text.ofInt n) = .ok value ↔ value = .int n ∧ n ≠ Number.least := by
  have hbounds := Number.inRange_iff.mp hrange
  unfold Number.least Number.greatest at *
  rcases lt_or_ge n 0 with hneg | hnonneg
  · obtain ⟨k, hk⟩ := Int.eq_ofNat_of_zero_le (by omega : 0 ≤ -n)
    obtain rfl : n = -k := by omega
    rw [ofInt_neg (by omega), evaluate_minus_ofNat]
    unfold Number.greatest
    refine and_congr_right fun _ => ?_
    omega
  · obtain ⟨k, rfl⟩ := Int.eq_ofNat_of_zero_le hnonneg
    have hread := tokenize_ofNat k
    rw [if_pos hrange] at hread
    show evaluate (Text.ofNat k) = .ok value ↔ _
    unfold evaluate
    rw [hread]
    show evaluateTokens [.number (.int k)] = .ok value ↔ _
    rw [evaluateTokens_number]
    constructor
    · rintro ⟨⟩
      exact ⟨rfl, by omega⟩
    · rintro ⟨rfl, -⟩
      rfl

/-! ### Reals -/

/-- A literal without a sign of an exponent is one token. -/
theorem tokenize_number {t : Text} (hfirst : t.head?.any Char.isDigit = true)
    (hword : ∀ c ∈ t, c.isAlphanum = true ∨ c = '.') {number : Number}
    (h : Number.ofLiteral? t = some number) : Token.tokenize t = .ok [.number number] := by
  have htoken : Token.tokenize (t ++ []) = _ := Token.tokenize_literal hfirst hword (by simp)
  rw [List.append_nil, h, Token.tokenize] at htoken
  exact htoken

/-- A real behind a minus sign folds to the text of its opposite. -/
theorem foldArgument_minus_real {t : Text} {f : Float}
    (h : Token.tokenize t = .ok [.number (.real f)]) {c : Text} :
    foldArgument ('-' :: t) = .ok c ↔ c = valueText (-f) := by
  rw [foldArgument_minus_iff]
  simp only [evaluate_minus h, Number.negate, Except.ok.injEq]
  constructor
  · rintro ⟨number, rfl, rfl⟩
    rfl
  · rintro rfl
    exact ⟨_, rfl, rfl⟩

/-- Digits with a point among them are a real literal without a suffix. -/
theorem ofLiteral?_point {t : Text} (hfirst : t.head?.any Char.isDigit = true)
    (hchars : ∀ c ∈ t, c.isDigit = true ∨ c = '.') (hpoint : '.' ∈ t) :
    Number.ofLiteral? t = (readReal? t).map .real := by
  have hhexadecimal : Number.isHexadecimal t = false := by
    refine Token.not_isHexadecimal fun c hc => ?_
    rcases hchars c hc with hdigit | rfl
    · exact ⟨Token.ne_of_isDigit hdigit rfl, Token.ne_of_isDigit hdigit rfl⟩
    · decide
  have hbody : t.dropEndWhile (fun c => Number.isIntegerSuffix c || Number.isRealSuffix c) = t := by
    refine Token.dropEndWhile_eq_self fun c hc => ?_
    rcases hchars c hc with hdigit | rfl
    · simp [Number.isIntegerSuffix, Number.isRealSuffix, Token.ne_of_isDigit hdigit]
    · rfl
  have hne : ¬ (t = [] ∨ t = ['.']) := by
    rintro (rfl | rfl) <;> cases hfirst
  have hreal : (t.getLast?.any Number.isRealSuffix ||
      t.any (fun c => c == '.' || c == 'e' || c == 'E')) = true := by
    rw [Bool.or_eq_true, List.any_eq_true]
    exact .inr ⟨'.', hpoint, rfl⟩
  unfold Number.ofLiteral? Number.ofDecimalLiteral?
  simp only [hhexadecimal, hbody, if_neg hne, if_pos hreal, Bool.false_eq_true, if_false]

namespace Binary.ReadsBack

variable {x : Binary} {t : Text} (h : x.ReadsBack t)
include h

/-- The text consists of digits and points. -/
theorem isDigit_or_point : ∀ c ∈ t, c.isDigit = true ∨ c = '.' := by
  obtain ⟨-, hwhole, hfraction, -, -, -⟩ := h
  intro c hc
  rw [List.mem_append, List.mem_cons] at hc
  rcases hc with hc | rfl | hc
  · exact .inl (hwhole c hc)
  · exact .inr rfl
  · exact .inl (hfraction c hc)

/-- It consists of letters, digits and points. -/
theorem isAlphanum_or_point : ∀ c ∈ t, c.isAlphanum = true ∨ c = '.' := fun c hc =>
  (h.isDigit_or_point c hc).imp_left Token.isAlphanum_of_isDigit

/-- It has a point. -/
theorem point_mem : '.' ∈ t := by
  cases h
  simp

/-- It starts with a digit. -/
theorem head : t.head?.any Char.isDigit = true := by
  obtain ⟨hne, hwhole, -, -, -, -⟩ := h
  obtain ⟨first, rest, rfl⟩ := List.exists_cons_of_ne_nil hne
  exact hwhole first List.mem_cons_self

/-- With a minus sign in front of it, the text is the one of the opposite double. -/
theorem foldArgument_minus (ht : x.magnitudeText = t) {c : Text} :
    foldArgument ('-' :: t) = .ok c ↔ c = '-' :: t := by
  have hliteral := ofLiteral?_point h.head h.isDigit_or_point h.point_mem
  have htoken {f : Float} (hread : readReal? t = some f) :
      Token.tokenize t = .ok [.number (.real f)] :=
    tokenize_number h.head h.isAlphanum_or_point (by rw [hliteral, hread]; rfl)
  obtain ⟨f, hread, hmagnitude, hsign⟩ :
      ∃ f, readReal? t = some f ∧ ofFloat? f = some x ∧ signOf f = .positive := by
    obtain ⟨-, -, -, hread, hmagnitude, hsign⟩ := h
    exact ⟨_, hread, hmagnitude, hsign⟩
  obtain ⟨hneg, hneg_sign⟩ := ofFloat?_neg hmagnitude
  have hbit : signBit (-f) = true := signBit_of_signOf (by rw [hneg_sign, hsign]; rfl)
  rw [foldArgument_minus_real (htoken hread), valueText_eq hneg, ht, hbit]
  rfl

end Binary.ReadsBack

/-! ### Folding again -/

/-- The texts of negative numbers that are not read: negative infinity, and whole numbers whose
magnitude is out of range. -/
def Unreadable (t : Text) : Prop :=
  t = "-inf".toList ∨ ∃ n : ℕ, Number.greatest < n ∧ t = '-' :: Text.ofNat n

/-- A text with a point is read. -/
theorem not_unreadable_of_point {t : Text} (h : '.' ∈ t) : ¬ Unreadable t := by
  rintro (rfl | ⟨n, -, rfl⟩)
  · exact absurd h (by decide)
  · have hdigit := Text.isDigit_ofNat n '.' (by simpa using h)
    cases hdigit

/-- A negative whole number is not read exactly if its magnitude is out of range. -/
theorem unreadable_minus_ofNat {n : ℕ} :
    Unreadable ('-' :: Text.ofNat n) ↔ Number.greatest < n := by
  constructor
  · rintro (hinf | ⟨k, hk, hn⟩)
    · have htext : Text.ofNat n = ['i', 'n', 'f'] := List.tail_eq_of_cons_eq hinf
      have hdigit := Text.isDigit_ofNat n 'i' (by simp [htext])
      cases hdigit
    · have htext : Text.ofNat n = Text.ofNat k := List.tail_eq_of_cons_eq hn
      have hvalue := congrArg (Nat.ofDigitChars 10 · 0) htext
      simp only [Text.ofDigitChars_ofNat] at hvalue
      exact hvalue ▸ hk
  · intro hn
    exact .inr ⟨n, hn, rfl⟩

/-- A text without an operator is read. -/
theorem not_unreadable_of_plain {t : Text} (h : t.any isOperatorChar = false) :
    ¬ Unreadable t := by
  rintro (rfl | ⟨n, -, rfl⟩) <;> cases h

/-- The digits of a natural number hold no operator. -/
theorem any_isOperatorChar_ofNat (n : ℕ) : (Text.ofNat n).any isOperatorChar = false :=
  any_isOperatorChar_eq_false fun c hc =>
    .inl (Token.isAlphanum_of_isDigit (Text.isDigit_ofNat n c hc))

/-- A text without an operator is folded to itself. -/
theorem foldArgument_plain {t : Text} (h : t.any isOperatorChar = false) {c : Text} :
    foldArgument t = .ok c ↔ c = t ∧ ¬ Unreadable t := by
  rw [foldArgument_eq_ok_iff, h]
  simp [not_unreadable_of_plain h, eq_comm]

/-- A negative whole number folds to itself, unless it is not read. -/
theorem foldArgument_minus_ofNat {n : ℕ} (hpos : 0 < n) {c : Text} :
    foldArgument ('-' :: Text.ofNat n) = .ok c ↔
      c = '-' :: Text.ofNat n ∧ ¬ Unreadable ('-' :: Text.ofNat n) := by
  rw [foldArgument_minus_iff, unreadable_minus_ofNat, not_lt, ← ofInt_neg hpos]
  simp only [ofInt_neg hpos, evaluate_minus_ofNat]
  constructor
  · rintro ⟨number, ⟨rfl, hrange⟩, rfl⟩
    exact ⟨ofInt_neg hpos, hrange⟩
  · rintro ⟨rfl, hrange⟩
    exact ⟨_, ⟨rfl, hrange⟩, ofInt_neg hpos⟩

/-- Infinity is not read. -/
theorem tokenize_inf : Token.tokenize "inf".toList = .error (.unsupported 'i') := by
  show Token.tokenize ('i' :: "nf".toList) = _
  rw [Token.tokenize]
  rfl

/-- Negative infinity is not read, so it does not fold. -/
theorem foldArgument_minus_inf {c : Text} :
    foldArgument "-inf".toList = .ok c ↔ c = "-inf".toList ∧ ¬ Unreadable "-inf".toList := by
  have hfault : foldArgument "-inf".toList = _ := foldArgument_minus_of_error tokenize_inf
  rw [hfault]
  simp [Unreadable]

/-- The decimal form of an integer folds to itself, unless it is not read. -/
theorem foldArgument_ofInt (n : ℤ) {c : Text} :
    foldArgument (Text.ofInt n) = .ok c ↔ c = Text.ofInt n ∧ ¬ Unreadable (Text.ofInt n) := by
  cases n with
  | ofNat n => exact foldArgument_plain (any_isOperatorChar_ofNat n)
  | negSucc n => exact foldArgument_minus_ofNat n.succ_pos

/-- A text without an operator folds to itself, and with a minus sign if it does so then. -/
theorem foldArgument_withSign {negative : Bool} {t : Text} (h : t.any isOperatorChar = false)
    (hminus : ∀ c, foldArgument ('-' :: t) = .ok c ↔ c = '-' :: t ∧ ¬ Unreadable ('-' :: t))
    {c : Text} :
    foldArgument (withSign negative t) = .ok c ↔
      c = withSign negative t ∧ ¬ Unreadable (withSign negative t) := by
  cases negative with
  | false => exact foldArgument_plain h
  | true => exact hminus c

/-- The text of a double folds to itself, unless it is not read. -/
theorem foldArgument_valueText (f : Float) {c : Text} :
    foldArgument (valueText f) = .ok c ↔ c = valueText f ∧ ¬ Unreadable (valueText f) := by
  rcases hx : Binary.ofFloat? f with _ | x
  · have htext : valueText f = nonFiniteText f := by
      unfold valueText
      rw [hx]
    rw [htext]
    unfold nonFiniteText
    split
    · exact foldArgument_plain rfl
    · exact foldArgument_withSign rfl fun c => foldArgument_minus_inf
  · rw [Binary.valueText_eq hx]
    rcases Binary.magnitudeText_cases (Binary.canonical_of_ofFloat? hx) with
      hreads | ⟨n, hpos, htext⟩
    · refine foldArgument_withSign (any_isOperatorChar_eq_false hreads.isAlphanum_or_point) ?_
      have hreadable : ¬ Unreadable ('-' :: x.magnitudeText) :=
        not_unreadable_of_point (List.mem_cons_of_mem _ hreads.point_mem)
      exact fun c => (hreads.foldArgument_minus rfl).trans (and_iff_left hreadable).symm
    · rw [htext]
      exact foldArgument_withSign (any_isOperatorChar_ofNat n) fun c =>
        foldArgument_minus_ofNat hpos

/-- The text of a number folds to itself, unless it is not read. -/
theorem foldArgument_toText (number : Number) {c : Text} :
    foldArgument number.toText = .ok c ↔ c = number.toText ∧ ¬ Unreadable number.toText := by
  cases number with
  | int n => exact foldArgument_ofInt n
  | real x => exact foldArgument_valueText x

/-- Of the integers in range only the least one is not read. -/
theorem unreadable_ofInt {n : ℤ} (hrange : Number.inRange n = true) :
    Unreadable (Text.ofInt n) ↔ n = Number.least := by
  obtain ⟨hleast, hgreatest⟩ := Number.inRange_iff.mp hrange
  unfold Number.least at *
  cases n with
  | ofNat n =>
    have hreadable : ¬ Unreadable (Text.ofInt (.ofNat n)) :=
      not_unreadable_of_plain (any_isOperatorChar_ofNat n)
    have hnonneg : 0 ≤ Int.ofNat n := Int.natCast_nonneg n
    have hne : Int.ofNat n ≠ -9223372036854775808 := by omega
    simp only [hreadable, hne]
  | negSucc n =>
    show Unreadable ('-' :: Text.ofNat (n + 1)) ↔ _
    rw [unreadable_minus_ofNat, Number.greatest]
    omega

/-- What an argument is folded to is folded to itself, unless it is not read at all. For an integer,
only the least one is not. -/
theorem refold_eq_ok_iff (a : Text) :
    (∀ b, foldArgument a = .ok b →
      ∀ c, foldArgument b = .ok c ↔ c = b ∧ ¬ Unreadable b) ∧
    (∀ n, evaluate a = .ok (.int n) →
      (∀ value, evaluate (Text.ofInt n) = .ok value ↔ value = .int n ∧ n ≠ Number.least) ∧
      ∀ c, foldArgument (Text.ofInt n) = .ok c ↔ c = Text.ofInt n ∧ n ≠ Number.least) := by
  refine ⟨?_, ?_⟩
  · intro b h c
    rcases foldArgument_eq_ok_iff.mp h with ⟨hoperator, rfl⟩ | ⟨-, number, -, rfl⟩
    · exact foldArgument_plain hoperator
    · exact foldArgument_toText number
  · intro n h
    have hrange : Number.inRange n = true := inRange_of_evaluate h
    refine ⟨fun value => evaluate_ofInt hrange, fun c => ?_⟩
    rw [foldArgument_ofInt, unreadable_ofInt hrange]

/-- A real literal behind a minus sign is folded to the text of the opposite double. -/
theorem foldArgument_minus_literal {t text : Text} (hfirst : t.head?.any Char.isDigit = true)
    (hword : t.all (fun c => c.isAlphanum || c == '.') = true)
    (hliteral : Number.ofLiteral? t = (readReal? t).map .real)
    (hread : (readReal? t).map (fun f => valueText (-f)) = some text) :
    foldArgument ('-' :: t) = .ok text := by
  obtain ⟨f, hf, htext⟩ := Option.map_eq_some_iff.mp hread
  have hchars : ∀ c ∈ t, c.isAlphanum = true ∨ c = '.' := by
    simpa only [List.all_eq_true, Bool.or_eq_true, beq_iff_eq] using hword
  have htoken := tokenize_number hfirst hchars (by rw [hliteral, hf]; rfl)
  exact (foldArgument_minus_real htoken).mpr htext.symm

/-- A real is folded without its last zero, and again to itself. A difference is folded to a
negative integer, which is read. -/
theorem refold_samples :
    (foldArgument "-2.50".toList = .ok "-2.5".toList ∧
      foldArgument "-2.5".toList = .ok "-2.5".toList) ∧
    (evaluate "3-10".toList = .ok (.int (-7)) ∧ evaluate "-7".toList = .ok (.int (-7)) ∧
      foldArgument "-7".toList = .ok "-7".toList) := by
  obtain ⟨htext, -⟩ := refold_eq_ok_iff "-2.50".toList
  obtain ⟨-, hint⟩ := refold_eq_ok_iff "3-10".toList
  have hreal : foldArgument "-2.50".toList = .ok "-2.5".toList :=
    foldArgument_minus_literal (by decide) (by decide) rfl (by decide +kernel)
  have hreadable : ¬ Unreadable "-2.5".toList := not_unreadable_of_point (by decide)
  have hwrites : Token.Writes (Expression.binary .sub (.literal 3) (.literal 10)).tokens
      "3-10".toList :=
    .cons [] nofun (.ofNat 3) <| .cons [] nofun .minus <| .cons [] nofun (.ofNat 10) <|
      .nil [] nofun
  have hdifference : evaluate "3-10".toList = .ok (.int (-7)) :=
    Expression.Exact.evaluate_eq (by decide) hwrites
  have hgreater : (-7 : Int) ≠ Number.least := by decide
  obtain ⟨hevaluate, hfold⟩ := hint _ hdifference
  exact ⟨⟨hreal, (htext _ hreal _).mpr ⟨rfl, hreadable⟩⟩,
    hdifference, (hevaluate _).mpr ⟨rfl, hgreater⟩, (hfold _).mpr ⟨rfl, hgreater⟩⟩

/-- The least integer is the result of a difference, and its text is not read; neither are the texts
of a large whole real and of a real that is not finite. -/
theorem refold_unreadable :
    (foldArgument "-9223372036854775807-1".toList = .ok "-9223372036854775808".toList ∧
      foldArgument "-9223372036854775808".toList =
        .error ⟨"-9223372036854775808".toList, .invalidLiteral "9223372036854775808".toList⟩) ∧
    (foldArgument "-1e19".toList = .ok "-10000000000000000000".toList ∧
      foldArgument "-10000000000000000000".toList =
        .error ⟨"-10000000000000000000".toList, .invalidLiteral "10000000000000000000".toList⟩) ∧
    (foldArgument "-1e400".toList = .ok "-inf".toList ∧
      foldArgument "-inf".toList = .error ⟨"-inf".toList, .unsupported 'i'⟩) := by
  have hwrites : Token.Writes
      (Expression.binary .sub (.signed .minus (.literal 9223372036854775807)) (.literal 1)).tokens
      "-9223372036854775807-1".toList :=
    .cons [] nofun .minus <| .cons [] nofun (.ofNat 9223372036854775807) <|
      .cons [] nofun .minus <| .cons [] nofun (.ofNat 1) <| .nil [] nofun
  have hleast := Expression.Exact.evaluate_eq (by decide) hwrites
  refine ⟨⟨foldArgument_of_int hleast, ?_⟩, ⟨?_, ?_⟩, ?_,
    foldArgument_minus_of_error tokenize_inf⟩
  · exact foldArgument_minus_of_error ((tokenize_ofNat 9223372036854775808).trans rfl)
  · exact foldArgument_minus_literal (by decide) (by decide) rfl (by decide +kernel)
  · exact foldArgument_minus_of_error ((tokenize_ofNat 10000000000000000000).trans rfl)
  · exact foldArgument_minus_literal (by decide) (by decide) rfl (by decide +kernel)

end ExplicitInstantiation
