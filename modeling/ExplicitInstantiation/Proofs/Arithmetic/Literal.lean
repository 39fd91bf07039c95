import Mathlib.Data.List.Induction
import Mathlib.Data.List.TakeWhile
import ExplicitInstantiation.Instantiation.Resolve
import ExplicitInstantiation.Proofs.Arithmetic.Exact
import ExplicitInstantiation.Proofs.Text.Blank

/-!
# Integer literals

`IntegerLiteral t n` says that `t` is an integer literal of C++ and `n` its value. A literal that
starts with `0x` is hexadecimal, any other that starts with `0` is octal, and all others are
decimal; behind the digits there may be one suffix for an unsigned type and one for a long type.

The evaluator knows no octal literals and does not look at the suffix as a whole. It reads digits
behind a leading zero as decimal ones, and it takes any run of suffix letters
(`ofLiteral?_eq_int_iff`). So what it accepts is a literal with the value that it finds, provided
that the suffix is one of C++ and that an octal literal has a value below eight; and every such
literal is accepted if its value is in range. An expression made of such literals is evaluated as
if they were written in decimal (`InDecimal`).
-/

namespace ExplicitInstantiation

/-! ### The literals of C++ -/

/-- The value of a digit of a base up to sixteen. Any other character has the value sixteen. -/
def digitValue (c : Char) : Nat :=
  "0123456789abcdef".toList.idxOf c.toLower

/-- The number that digits stand for in a base. -/
def positionalValue (base : Nat) (digits : Text) : Nat :=
  digits.foldl (fun n c => base * n + digitValue c) 0

/-- Whether a literal is octal, by the way it starts. -/
def isOctal (literal : Text) : Bool :=
  literal.head? == some '0' && !Number.isHexadecimal literal

/-- The base of a literal. -/
def literalBase (literal : Text) : Nat :=
  if Number.isHexadecimal literal then 16 else if isOctal literal then 8 else 10

/-- The digits of a literal. They go on as far as digits of any base written without letters, even
in an octal literal. -/
def literalDigits (literal : Text) : Text :=
  if Number.isHexadecimal literal then (literal.drop 2).takeWhile (digitValue · < 16)
  else literal.takeWhile Char.isDigit

/-- What follows the digits of a literal. -/
def literalSuffix (literal : Text) : Text :=
  if Number.isHexadecimal literal then (literal.drop 2).dropWhile (digitValue · < 16)
  else literal.dropWhile Char.isDigit

/-- The suffixes for unsigned types. -/
def unsignedSuffixes : List Text := [['u'], ['U']]

/-- The suffixes for long types. -/
def longSuffixes : List Text := [['l'], ['L'], ['l', 'l'], ['L', 'L']]

/-- The suffixes of integer literals: none, one of either kind, or both in either order. -/
def integerSuffixes : List Text :=
  [] :: unsignedSuffixes ++ longSuffixes ++
    unsignedSuffixes.flatMap fun u => longSuffixes.flatMap fun l => [u ++ l, l ++ u]

/-- A text is an integer literal of C++ with the value `n`. -/
structure IntegerLiteral (literal : Text) (n : Nat) : Prop where
  /-- There are digits. -/
  digits_ne_nil : literalDigits literal ≠ []
  /-- They are digits of the base. -/
  digits_lt : ∀ c ∈ literalDigits literal, digitValue c < literalBase literal
  /-- The suffix is one of those that there are. -/
  suffix_mem : literalSuffix literal ∈ integerSuffixes
  /-- The value is that of the digits in the base. -/
  value_eq : n = positionalValue (literalBase literal) (literalDigits literal)

instance (literal : Text) (n : Nat) : Decidable (IntegerLiteral literal n) :=
  decidable_of_iff (literalDigits literal ≠ [] ∧
      (literalDigits literal).all (digitValue · < literalBase literal) = true ∧
      integerSuffixes.contains (literalSuffix literal) = true ∧
      n = positionalValue (literalBase literal) (literalDigits literal)) <| by
    simp only [List.all_eq_true, decide_eq_true_eq, List.contains_iff_mem]
    exact ⟨fun ⟨hne, hlt, hsuffix, hvalue⟩ => ⟨hne, hlt, hsuffix, hvalue⟩,
      fun h => ⟨h.digits_ne_nil, h.digits_lt, h.suffix_mem, h.value_eq⟩⟩

/-! ### Digits -/

/-- What holds of the first 128 characters holds of every character among them. -/
theorem forall_ascii {P : Char → Prop} (h : ∀ n : Fin 128, P (Char.ofNat n)) {c : Char}
    (hc : c.toNat < 128) : P c := by
  have hn := h ⟨c.toNat, hc⟩
  rwa [Char.ofNat_toNat] at hn

/-- A character that is not ASCII is no digit in any base. -/
theorem digitValue_of_not_ascii {c : Char} (hc : ¬ c.toNat < 128) : digitValue c = 16 := by
  have hlower : c.toLower = c := by
    unfold Char.toLower
    rw [dif_neg]
    rintro ⟨-, h⟩
    have : c.val.toNat ≤ 90 := UInt32.le_iff_toNat_le.mp h
    exact hc (Nat.lt_of_le_of_lt this (by decide))
  have hnot : c ∉ "0123456789abcdef".toList := by
    intro hmem
    have hascii : "0123456789abcdef".toList.all (·.toNat < 128) = true := by decide
    exact hc (of_decide_eq_true (List.all_eq_true.mp hascii c hmem))
  unfold digitValue
  rw [hlower, List.idxOf_eq_length_iff.mpr hnot]
  rfl

/-- The decimal digits are the characters with a value below ten. -/
theorem isDigit_iff_digitValue_lt {c : Char} : c.isDigit = true ↔ digitValue c < 10 := by
  by_cases hc : c.toNat < 128
  · exact forall_ascii (P := fun c => c.isDigit = true ↔ digitValue c < 10) (by decide +kernel) hc
  · rw [digitValue_of_not_ascii hc]
    constructor
    · intro hdigit
      have := Token.toNat_of_isAlphanum (Token.isAlphanum_of_isDigit hdigit)
      omega
    · omega

/-- The value of a decimal digit is its distance from zero. -/
theorem digitValue_of_isDigit {c : Char} (h : c.isDigit = true) :
    digitValue c = c.toNat - '0'.toNat := by
  have hc : c.toNat < 128 := by
    have := Token.toNat_of_isAlphanum (Token.isAlphanum_of_isDigit h)
    omega
  exact forall_ascii (P := fun c => c.isDigit = true → digitValue c = c.toNat - '0'.toNat)
    (by decide +kernel) hc h

/-- The hexadecimal digits are the characters with a value below sixteen. -/
theorem hexDigit?_eq (c : Char) :
    Number.hexDigit? c = if digitValue c < 16 then some (digitValue c) else none := by
  by_cases hc : c.toNat < 128
  · exact forall_ascii (P := fun c => Number.hexDigit? c =
      if digitValue c < 16 then some (digitValue c) else none) (by decide +kernel) hc
  · have hle {d : Char} (hd : d.toNat < 128) : ¬ c ≤ d := by
      intro h
      have : c.val.toNat ≤ d.val.toNat := UInt32.le_iff_toNat_le.mp h
      exact hc (Nat.lt_of_le_of_lt this hd)
    have hdigit : ¬ c.isDigit = true := by
      rw [isDigit_iff_digitValue_lt, digitValue_of_not_ascii hc]
      decide
    rw [digitValue_of_not_ascii hc]
    unfold Number.hexDigit?
    rw [if_neg hdigit, if_neg fun h => hle (by decide) h.2, if_neg fun h => hle (by decide) h.2]
    rfl

/-! ### Positional values -/

/-- One more digit moves the others up by one place. -/
theorem positionalValue_append (base : Nat) (digits : Text) (c : Char) :
    positionalValue base (digits ++ [c]) = base * positionalValue base digits + digitValue c := by
  simp [positionalValue]

/-- In base ten, digits stand for the number that the evaluator reads. -/
theorem digitsValue_eq_positionalValue {digits : Text} (h : ∀ c ∈ digits, c.isDigit = true) :
    digitsValue digits = positionalValue 10 digits := by
  unfold digitsValue positionalValue
  refine List.foldl_ext _ _ _ fun n c hc => ?_
  rw [digitValue_of_isDigit (h c hc)]

/-- Hexadecimal digits are read one by one if all characters are such digits. -/
theorem foldlM_hexDigit? (digits : Text) (start : Nat) :
    digits.foldlM (fun n c => (Number.hexDigit? c).map (16 * n + ·)) start =
      if digits.all (digitValue · < 16) = true then
        some (digits.foldl (fun n c => 16 * n + digitValue c) start)
      else none := by
  induction digits generalizing start with
  | nil => rfl
  | cons c digits ih =>
    rw [List.foldlM_cons, hexDigit?_eq]
    by_cases hc : digitValue c < 16
    · rw [if_pos hc]
      simp only [Option.map_some, Option.bind_eq_bind, Option.bind_some, ih, List.all_cons, hc,
        decide_true, Bool.true_and, List.foldl_cons]
    · simp [hc]

/-- Hexadecimal digits are read as their value. -/
theorem hexDigits?_eq_some_iff {digits : Text} {n : Nat} :
    Number.hexDigits? digits = some n ↔
      digits ≠ [] ∧ (∀ c ∈ digits, digitValue c < 16) ∧ n = positionalValue 16 digits := by
  have hall : digits.all (digitValue · < 16) = true ↔ ∀ c ∈ digits, digitValue c < 16 := by
    simp only [List.all_eq_true, decide_eq_true_eq]
  unfold Number.hexDigits? positionalValue
  rw [foldlM_hexDigit?, ← hall]
  rcases digits with _ | ⟨c, digits⟩
  · simp
  · rw [if_neg (by simp)]
    split
    · next h => simp [h, eq_comm]
    · next h => simp [h]

/-- Decimal digits are read as their value. -/
theorem digits?_eq_some_iff {digits : Text} {n : Nat} :
    digits? digits = some n ↔
      digits ≠ [] ∧ (∀ c ∈ digits, c.isDigit = true) ∧ n = positionalValue 10 digits := by
  unfold digits?
  by_cases hdigits : ∀ c ∈ digits, c.isDigit = true
  · rw [digitsValue_eq_positionalValue hdigits]
    grind
  · grind

/-- Octal digits stand for at most what they stand for as decimal ones, and for the same below
eight only. -/
theorem positionalValue_eight {digits : Text} (h : ∀ c ∈ digits, digitValue c < 8) :
    positionalValue 8 digits ≤ positionalValue 10 digits ∧
      (positionalValue 8 digits = positionalValue 10 digits ↔ positionalValue 8 digits < 8) := by
  induction digits using List.reverseRecOn with
  | nil => simp [positionalValue]
  | append_singleton digits c ih =>
    obtain ⟨hle, hagree⟩ := ih fun d hd => h d (List.mem_append_left _ hd)
    have hc : digitValue c < 8 := h c (by simp)
    rw [positionalValue_append, positionalValue_append]
    omega

/-- The digits of a number below eight are below eight. -/
theorem digitValue_lt_of_positionalValue {digits : Text} (h : positionalValue 10 digits < 8) :
    ∀ c ∈ digits, digitValue c < 8 := by
  induction digits using List.reverseRecOn with
  | nil => simp
  | append_singleton digits c ih =>
    rw [positionalValue_append] at h
    have hdigits := ih (by omega)
    rw [List.forall_mem_append]
    exact ⟨hdigits, by simpa using (by omega : digitValue c < 8)⟩

/-! ### Digits and the letters behind them -/

section Cut

variable {p q : Char → Bool} (hpq : ∀ c, p c = true → q c = false) {t : Text}
include hpq

/-- What is left when the letters at the end are dropped are the digits, if nothing else stands
behind them. -/
theorem dropEndWhile_eq_takeWhile (h : ∀ c ∈ t.dropWhile p, q c = true) :
    t.dropEndWhile q = t.takeWhile p := by
  have hdigits : ∀ c ∈ (t.takeWhile p).reverse, q c = false := fun c hc =>
    hpq c (List.mem_takeWhile_imp (List.mem_reverse.mp hc))
  unfold Text.dropEndWhile
  conv_lhs => rw [← List.takeWhile_append_dropWhile (p := p) (l := t), List.reverse_append]
  rw [List.dropWhile_append_of_pos (by simpa using h), List.dropWhile_eq_self_iff.mpr,
    List.reverse_reverse]
  intro hpos
  rw [hdigits _ (List.getElem_mem hpos)]
  exact Bool.false_ne_true

/-- What is left in front has one property exactly if all that stands behind has the other. -/
theorem forall_dropEndWhile_iff :
    (∀ c ∈ t.dropEndWhile q, p c = true) ↔ ∀ c ∈ t.dropWhile p, q c = true := by
  constructor
  · intro h
    have happend : t = t.dropEndWhile q ++ (t.reverse.takeWhile q).reverse := by
      rw [Text.dropEndWhile, ← List.reverse_append, List.takeWhile_append_dropWhile,
        List.reverse_reverse]
    rw [happend, List.dropWhile_append_of_pos h]
    intro c hc
    have hmem := (List.dropWhile_suffix p).subset hc
    exact List.mem_takeWhile_imp (List.mem_reverse.mp hmem)
  · intro h c hc
    rw [dropEndWhile_eq_takeWhile hpq h] at hc
    exact List.mem_takeWhile_imp hc

end Cut

/-- No hexadecimal digit is a suffix letter of an integer. -/
theorem isIntegerSuffix_of_digitValue (c : Char) (hc : digitValue c < 16) :
    Number.isIntegerSuffix c = false := by
  rw [← Bool.not_eq_true]
  intro hsuffix
  simp only [Number.isIntegerSuffix, Bool.or_eq_true, beq_iff_eq] at hsuffix
  rcases hsuffix with ((rfl | rfl) | rfl) | rfl <;> revert hc <;> decide

/-! ### What the evaluator accepts -/

/-- The base in which the evaluator reads a literal. -/
def readBase (literal : Text) : Nat :=
  if Number.isHexadecimal literal then 16 else 10

/-- The letters behind the digits with which the evaluator takes a literal for an integer. -/
def TakesSuffix (literal : Text) : Prop :=
  if Number.isHexadecimal literal then ∀ c ∈ literalSuffix literal, Number.isIntegerSuffix c = true
  else
    (∀ c ∈ literalSuffix literal, (Number.isIntegerSuffix c || Number.isRealSuffix c) = true) ∧
      literal.getLast?.any Number.isRealSuffix = false

/-- A natural number is taken if it is at most the greatest integer. -/
theorem ofNat?_eq_int_iff {n : Nat} {v : Int} :
    Number.ofNat? n = some (.int v) ↔ v = n ∧ n ≤ Number.greatest := by
  unfold Number.ofNat?
  split
  · next h =>
    simp [eq_comm, Number.inRange_natCast.mp h]
  · next h =>
    simp [Number.inRange_natCast.not.mp h]

/-- Behind the prefix, a hexadecimal literal is read as its digits if only suffix letters follow
them and the number is in range. -/
theorem hexLiteral?_eq_int_iff {t : Text} {v : Int} :
    (Number.hexDigits? (t.dropEndWhile Number.isIntegerSuffix)).bind Number.ofNat? =
        some (.int v) ↔
      t.takeWhile (digitValue · < 16) ≠ [] ∧
      (∀ c ∈ t.dropWhile (digitValue · < 16), Number.isIntegerSuffix c = true) ∧
      v = positionalValue 16 (t.takeWhile (digitValue · < 16)) ∧ v ≤ Number.greatest := by
  have hdisjoint (c : Char) (hc : decide (digitValue c < 16) = true) :
      Number.isIntegerSuffix c = false := isIntegerSuffix_of_digitValue c (of_decide_eq_true hc)
  have hdigits := forall_dropEndWhile_iff hdisjoint (t := t)
  simp only [decide_eq_true_eq] at hdigits
  simp only [Option.bind_eq_some_iff, hexDigits?_eq_some_iff, ofNat?_eq_int_iff, hdigits]
  constructor
  · rintro ⟨n, ⟨hne, hsuffix, rfl⟩, rfl, hrange⟩
    rw [dropEndWhile_eq_takeWhile hdisjoint hsuffix] at hne hrange ⊢
    exact ⟨hne, hsuffix, rfl, hrange⟩
  · rintro ⟨hne, hsuffix, rfl, hrange⟩
    rw [dropEndWhile_eq_takeWhile hdisjoint hsuffix]
    exact ⟨_, ⟨hne, hsuffix, rfl⟩, rfl, hrange⟩

/-- A decimal literal is read as an integer if only suffix letters follow the digits, the last of
them is none of a real, and the number is in range. -/
theorem ofDecimalLiteral?_eq_int_iff {t : Text} {v : Int} :
    Number.ofDecimalLiteral? t = some (.int v) ↔
      t.takeWhile Char.isDigit ≠ [] ∧
      ((∀ c ∈ t.dropWhile Char.isDigit,
          (Number.isIntegerSuffix c || Number.isRealSuffix c) = true) ∧
        t.getLast?.any Number.isRealSuffix = false) ∧
      v = positionalValue 10 (t.takeWhile Char.isDigit) ∧ v ≤ Number.greatest := by
  have hdisjoint (c : Char) (hc : c.isDigit = true) :
      (Number.isIntegerSuffix c || Number.isRealSuffix c) = false := by
    simp [Number.isIntegerSuffix, Number.isRealSuffix, Token.ne_of_isDigit hc]
  have hdigits := forall_dropEndWhile_iff hdisjoint (t := t)
  unfold Number.ofDecimalLiteral?
  simp only
  constructor
  · intro h
    split at h
    · cases h
    split at h
    · simp at h
    · next hreal =>
      simp only [Option.bind_eq_some_iff, digits?_eq_some_iff, ofNat?_eq_int_iff, hdigits] at h
      obtain ⟨n, ⟨hne, hsuffix, rfl⟩, rfl, hrange⟩ := h
      rw [dropEndWhile_eq_takeWhile hdisjoint hsuffix] at hne hrange ⊢
      exact ⟨hne, ⟨hsuffix, by simp_all⟩, rfl, hrange⟩
  · rintro ⟨hne, ⟨hsuffix, hlast⟩, rfl, hrange⟩
    rw [dropEndWhile_eq_takeWhile hdisjoint hsuffix]
    have hbody : ∀ c ∈ t.takeWhile Char.isDigit, c.isDigit = true := fun c hc =>
      List.mem_takeWhile_imp hc
    have hpoint : t.takeWhile Char.isDigit ≠ ['.'] := by
      intro heq
      exact absurd (hbody '.' (by simp [heq])) (by decide)
    have hreal : (t.takeWhile Char.isDigit).any (fun c => c == '.' || c == 'e' || c == 'E') =
        false := by
      rw [List.any_eq_false]
      intro c hc
      simp [Token.ne_of_isDigit (hbody c hc)]
    rw [if_neg (by simp [hne, hpoint]), hlast, hreal, if_neg (by simp), Option.bind_eq_some_iff]
    exact ⟨_, digits?_eq_some_iff.mpr ⟨hne, hbody, rfl⟩, ofNat?_eq_int_iff.mpr ⟨rfl, hrange⟩⟩

/-- A literal is read as an integer exactly when it consists of digits and suffix letters. -/
theorem ofLiteral?_eq_int_iff {t : Text} {v : Int} :
    Number.ofLiteral? t = some (.int v) ↔
      literalDigits t ≠ [] ∧ TakesSuffix t ∧
        v = positionalValue (readBase t) (literalDigits t) ∧ v ≤ Number.greatest := by
  unfold Number.ofLiteral? literalDigits TakesSuffix readBase literalSuffix
  by_cases hhex : Number.isHexadecimal t = true
  · simp only [if_pos hhex, hexLiteral?_eq_int_iff]
  · simp only [if_neg hhex, ofDecimalLiteral?_eq_int_iff]

/-! ### Accepted literals and those of C++ -/

/-- A suffix of C++ is made of suffix letters for integers. -/
theorem isIntegerSuffix_of_mem {suffix : Text} (h : suffix ∈ integerSuffixes) :
    ∀ c ∈ suffix, Number.isIntegerSuffix c = true := by
  have hall : integerSuffixes.all (·.all Number.isIntegerSuffix) = true := by decide
  exact List.all_eq_true.mp (List.all_eq_true.mp hall suffix h)

/-- A suffix letter of an integer is none of a real. -/
theorem isRealSuffix_of_isIntegerSuffix {c : Char} (h : Number.isIntegerSuffix c = true) :
    Number.isRealSuffix c = false := by
  simp only [Number.isIntegerSuffix, Bool.or_eq_true, beq_iff_eq] at h
  rcases h with ((rfl | rfl) | rfl) | rfl <;> decide

/-- A suffix of C++ is taken. -/
theorem takesSuffix_of_mem {t : Text} (h : literalSuffix t ∈ integerSuffixes) : TakesSuffix t := by
  have hletters := isIntegerSuffix_of_mem h
  unfold TakesSuffix
  split
  · exact hletters
  · next hhex =>
    refine ⟨fun c hc => by simp [hletters c hc], ?_⟩
    rw [literalSuffix, if_neg hhex] at hletters
    rw [← Bool.not_eq_true, Option.any_eq_true]
    rintro ⟨c, hlast, hreal⟩
    -- the last character is a letter of the suffix or, if there is none, a digit
    have hmem : c ∈ t := List.mem_of_getLast? hlast
    rw [← List.takeWhile_append_dropWhile (p := Char.isDigit) (l := t), List.mem_append] at hmem
    rcases hmem with hdigit | hletter
    · have hc : c.isDigit = true := List.mem_takeWhile_imp hdigit
      simp [Number.isRealSuffix, Token.ne_of_isDigit hc] at hreal
    · rw [isRealSuffix_of_isIntegerSuffix (hletters c hletter)] at hreal
      cases hreal

/-- The digits of a literal are digits of the base in which it is read. -/
theorem digitValue_lt_readBase {t : Text} : ∀ c ∈ literalDigits t, digitValue c < readBase t := by
  intro c hc
  unfold literalDigits at hc
  unfold readBase
  split at hc
  · next hhex =>
    rw [if_pos hhex]
    simpa using List.mem_takeWhile_imp hc
  · next hhex =>
    rw [if_neg hhex]
    exact isDigit_iff_digitValue_lt.mp (List.mem_takeWhile_imp hc)

/-- An octal literal is read as if it were decimal. -/
theorem literalBase_of_isOctal {t : Text} (h : isOctal t = true) :
    literalBase t = 8 ∧ readBase t = 10 := by
  have hhex : Number.isHexadecimal t = false := by
    simp only [isOctal, Bool.and_eq_true, Bool.not_eq_true'] at h
    exact h.2
  simp [literalBase, readBase, hhex, h]

/-- Every other literal is read in its base. -/
theorem literalBase_of_not_isOctal {t : Text} (h : isOctal t = false) :
    literalBase t = readBase t := by
  simp [literalBase, readBase, h]

/-- What is read as the number `n` is a literal of C++ with that value exactly when its suffix is
one of C++ and it is not an octal literal of eight or more. -/
theorem integerLiteral_iff {t : Text} {n : Nat} (hne : literalDigits t ≠ [])
    (hvalue : n = positionalValue (readBase t) (literalDigits t)) :
    IntegerLiteral t n ↔ literalSuffix t ∈ integerSuffixes ∧ (isOctal t = true → n < 8) := by
  cases hoctal : isOctal t with
  | false =>
    have hbase := literalBase_of_not_isOctal hoctal
    constructor
    · intro h
      exact ⟨h.suffix_mem, fun hfalse => absurd hfalse Bool.false_ne_true⟩
    · rintro ⟨hsuffix, -⟩
      exact ⟨hne, hbase ▸ digitValue_lt_readBase, hsuffix, hbase ▸ hvalue⟩
  | true =>
    obtain ⟨hbase, hread⟩ := literalBase_of_isOctal hoctal
    rw [hread] at hvalue
    constructor
    · intro h
      have heq := h.value_eq
      rw [hbase] at heq
      have hagree := (positionalValue_eight (hbase ▸ h.digits_lt)).2
      refine ⟨h.suffix_mem, fun _ => ?_⟩
      omega
    · rintro ⟨hsuffix, hlt⟩
      have hdigits := digitValue_lt_of_positionalValue (hvalue ▸ hlt rfl)
      obtain ⟨hle, hagree⟩ := positionalValue_eight hdigits
      refine ⟨hne, hbase ▸ hdigits, hsuffix, ?_⟩
      rw [hbase, hvalue]
      exact (hagree.mpr (Nat.lt_of_le_of_lt hle (hvalue ▸ hlt rfl))).symm

/-- A literal of C++ is read as its value exactly when that is in range and, if it is octal, below
eight. -/
theorem ofLiteral?_of_integerLiteral {t : Text} {n : Nat} (h : IntegerLiteral t n) :
    Number.ofLiteral? t = some (.int n) ↔ n ≤ Number.greatest ∧ (isOctal t = true → n < 8) := by
  rw [ofLiteral?_eq_int_iff]
  constructor
  · rintro ⟨hne, -, hvalue, hrange⟩
    exact ⟨hrange, ((integerLiteral_iff hne (Int.ofNat_inj.mp hvalue)).mp h).2⟩
  · rintro ⟨hrange, hlt⟩
    refine ⟨h.digits_ne_nil, takesSuffix_of_mem h.suffix_mem, ?_, hrange⟩
    have hvalue := h.value_eq
    cases hoctal : isOctal t with
    | false => rw [hvalue, literalBase_of_not_isOctal hoctal]
    | true =>
      obtain ⟨hbase, hread⟩ := literalBase_of_isOctal hoctal
      rw [hbase] at hvalue
      have hagree := (positionalValue_eight (hbase ▸ h.digits_lt)).2
      rw [hread, hvalue, hagree.mpr (hvalue ▸ hlt hoctal)]

/-! ### The characters of a literal -/

/-- Digits are letters or decimal digits. -/
theorem isAlphanum_of_digitValue_lt {c : Char} (h : digitValue c < 16) : c.isAlphanum = true := by
  have hc : c.toNat < 128 := by
    by_contra hc
    rw [digitValue_of_not_ascii hc] at h
    exact absurd h (by decide)
  exact forall_ascii (P := fun c => digitValue c < 16 → c.isAlphanum = true)
    (by decide +kernel) hc h

/-- Suffix letters are letters. -/
theorem isAlphanum_of_suffix {c : Char}
    (h : (Number.isIntegerSuffix c || Number.isRealSuffix c) = true) : c.isAlphanum = true := by
  simp only [Number.isIntegerSuffix, Number.isRealSuffix, Bool.or_eq_true, beq_iff_eq] at h
  rcases h with (((rfl | rfl) | rfl) | rfl) | rfl | rfl <;> decide

/-- A hexadecimal literal is `0x` or `0X` with its digits and its suffix. -/
theorem eq_of_isHexadecimal {t : Text} (h : Number.isHexadecimal t = true) :
    ∃ mark, (mark = 'x' ∨ mark = 'X') ∧
      t = '0' :: mark :: (literalDigits t ++ literalSuffix t) := by
  have hdigits : literalDigits t ++ literalSuffix t = t.drop 2 := by
    rw [literalDigits, literalSuffix, if_pos h, if_pos h, List.takeWhile_append_dropWhile]
  rw [hdigits]
  unfold Number.isHexadecimal at h
  split at h
  · next mark rest => exact ⟨mark, by simpa using h, rfl⟩
  · cases h

/-- Any other literal is its digits with its suffix. -/
theorem eq_of_not_isHexadecimal {t : Text} (h : ¬ Number.isHexadecimal t = true) :
    t = literalDigits t ++ literalSuffix t := by
  rw [literalDigits, literalSuffix, if_neg h, if_neg h, List.takeWhile_append_dropWhile]

/-- Behind the digits of an integer there are only suffix letters. -/
theorem TakesSuffix.isSuffixLetter {t : Text} (h : TakesSuffix t) :
    ∀ c ∈ literalSuffix t, (Number.isIntegerSuffix c || Number.isRealSuffix c) = true := by
  intro c hc
  unfold TakesSuffix at h
  split at h
  · simp [h c hc]
  · exact h.1 c hc

/-- A literal is a digit followed by letters and digits. -/
theorem isAlphanum_of_takesSuffix {t : Text} (hne : literalDigits t ≠ []) (h : TakesSuffix t) :
    t.head?.any Char.isDigit = true ∧ ∀ c ∈ t, c.isAlphanum = true := by
  have hparts : ∀ c ∈ literalDigits t ++ literalSuffix t, c.isAlphanum = true := by
    intro c hc
    rcases List.mem_append.mp hc with hdigit | hletter
    · have hlt := digitValue_lt_readBase c hdigit
      have hbase : readBase t ≤ 16 := by
        unfold readBase
        split <;> decide
      exact isAlphanum_of_digitValue_lt (Nat.lt_of_lt_of_le hlt hbase)
    · exact isAlphanum_of_suffix (h.isSuffixLetter c hletter)
  by_cases hhex : Number.isHexadecimal t = true
  · obtain ⟨mark, hmark, ht⟩ := eq_of_isHexadecimal hhex
    rw [ht]
    refine ⟨rfl, ?_⟩
    rw [List.forall_mem_cons, List.forall_mem_cons]
    exact ⟨by decide, by rcases hmark with rfl | rfl <;> decide, hparts⟩
  · rw [eq_of_not_isHexadecimal hhex]
    refine ⟨?_, hparts⟩
    rw [List.head?_append_of_ne_nil _ hne, Option.any_eq_true]
    refine ⟨_, List.head?_eq_some_head hne, ?_⟩
    have hlt := digitValue_lt_readBase _ (List.head_mem hne)
    rw [readBase, if_neg hhex] at hlt
    exact isDigit_iff_digitValue_lt.mpr hlt

/-- A literal is a word. -/
theorem IntegerLiteral.isAlphanum {t : Text} {n : Nat} (h : IntegerLiteral t n) :
    t.head?.any Char.isDigit = true ∧ ∀ c ∈ t, c.isAlphanum = true :=
  isAlphanum_of_takesSuffix h.digits_ne_nil (takesSuffix_of_mem h.suffix_mem)

/-! ### Literals as tokens -/

namespace Token

/-- A sign behind an integer literal is no part of it. -/
theorem continuesLiteral_of_takesSuffix {t : Text} (h : TakesSuffix t) {c d : Char}
    (hc : EndsNumber c) (hd : d ∈ t.getLast?) :
    continuesLiteral (Number.isHexadecimal t) d c = false := by
  by_cases hhex : Number.isHexadecimal t = true
  · simp [continuesLiteral, hc.1, hc.2, hhex]
  · have hmem : d ∈ t := List.mem_of_getLast? hd
    rw [eq_of_not_isHexadecimal hhex, List.mem_append] at hmem
    have hexponent : d ≠ 'e' ∧ d ≠ 'E' := by
      rcases hmem with hdigit | hletter
      · have hlt := digitValue_lt_readBase d hdigit
        rw [readBase, if_neg hhex] at hlt
        constructor <;> rintro rfl <;> revert hlt <;> decide
      · have hsuffix := h.isSuffixLetter d hletter
        constructor <;> rintro rfl <;> cases hsuffix
    simp [continuesLiteral, hc.1, hc.2, hexponent]

/-- An underscore or a letter outside ASCII starts no token. -/
theorem tokenize_identifierChar {c : Char} (hc : isIdentifierChar c = true)
    (hnot : c.isAlphanum = false) (rest : Text) :
    tokenize (c :: rest) = .error (.unsupported c) := by
  have hblank : ¬ isBlank c = true := by
    intro hblank
    rw [Text.isIdentifierChar_of_isBlank hblank] at hc
    cases hc
  have hsymbol : ofSymbol? c = none := by
    unfold ofSymbol?
    split <;> first | rfl | exact absurd hc (by decide)
  have hstarts : ¬ startsLiteral c = true := by
    unfold startsLiteral
    rw [Bool.or_eq_true, beq_iff_eq]
    rintro (hdigit | rfl)
    · rw [isAlphanum_of_isDigit hdigit] at hnot
      cases hnot
    · exact absurd hc (by decide)
  rw [tokenize, if_neg hblank, hsymbol]
  simp only [if_neg hstarts]

end Token

/-- A number on its own is its value. -/
theorem evaluateTokens_number (value : Number) : evaluateTokens [.number value] = .ok value :=
  (evaluateTokens_tree (.term (.factor (.number value)))).mpr rfl

/-- Nothing that holds a letter outside ASCII or an underscore is read. -/
theorem isAlphanum_of_tokenize {t : Text} (hfirst : t.head?.any Char.isDigit = true)
    (hword : ∀ c ∈ t, isIdentifierChar c = true) {tokens : List Token}
    (h : Token.tokenize t = .ok tokens) : ∀ c ∈ t, c.isAlphanum = true := by
  by_contra hnot
  have hrest : t.dropWhile Char.isAlphanum ≠ [] := by
    rwa [Ne, List.dropWhile_eq_nil_iff]
  obtain ⟨c, rest, hdrop⟩ := List.exists_cons_of_ne_nil hrest
  have hc : c.isAlphanum = false := by
    have := List.head?_dropWhile_not Char.isAlphanum t
    simpa [hdrop] using this
  have hmem : c ∈ t := (List.dropWhile_suffix Char.isAlphanum).subset (by simp [hdrop])
  have hchar := hword c hmem
  have happend : t.takeWhile Char.isAlphanum ++ c :: rest = t := by
    rw [← hdrop, List.takeWhile_append_dropWhile]
  have hstart : (t.takeWhile Char.isAlphanum).head?.any Char.isDigit = true := by
    obtain ⟨d, hhead, hd⟩ := (Option.any_eq_true ..).mp hfirst
    obtain ⟨word, rfl⟩ := List.head?_eq_some_iff.mp hhead
    simp [Token.isAlphanum_of_isDigit hd, hd]
  have hends : ∀ hexadecimal d, Token.continuesLiteral hexadecimal d c = false := by
    intro hexadecimal d
    have hne : c ≠ '.' ∧ c ≠ '+' ∧ c ≠ '-' := by
      refine ⟨?_, ?_, ?_⟩ <;> rintro rfl <;> exact absurd hchar (by decide)
    simp [Token.continuesLiteral, hc, hne]
  rw [← happend, Token.tokenize_literal hstart (fun d hd => .inl (List.mem_takeWhile_imp hd))
    (fun d hd e _ => by
      obtain rfl : c = d := by simpa using hd
      exact hends _ _), Token.tokenize_identifierChar hchar hc] at h
  split at h <;> cases h

/-- A digit followed by letters and digits is evaluated as a literal. -/
theorem evaluate_word {t : Text} (hfirst : t.head?.any Char.isDigit = true)
    (hword : ∀ c ∈ t, c.isAlphanum = true) :
    evaluate t =
      match Number.ofLiteral? t with
      | none => .error (.invalidLiteral t)
      | some value => .ok value := by
  have hread : Token.tokenize (t ++ []) = _ :=
    Token.tokenize_literal hfirst (fun c hc => .inl (hword c hc)) (by simp)
  rw [List.append_nil, Token.tokenize] at hread
  unfold evaluate
  rw [hread]
  rcases Number.ofLiteral? t with _ | value
  · rfl
  · exact evaluateTokens_number value

/-- A word that starts with a digit is evaluated to what it is read as. -/
theorem evaluate_word_eq_ok_iff {t : Text} (hfirst : t.head?.any Char.isDigit = true)
    (hword : ∀ c ∈ t, c.isAlphanum = true) {value : Number} :
    evaluate t = .ok value ↔ Number.ofLiteral? t = some value := by
  rw [evaluate_word hfirst hword]
  rcases Number.ofLiteral? t with _ | number <;> simp

/-- A number without an exponent contains no operator. -/
theorem any_isOperatorChar_eq_false {t : Text} (h : ∀ c ∈ t, c.isAlphanum = true ∨ c = '.') :
    t.any isOperatorChar = false := by
  rw [List.any_eq_false]
  intro c hc hoperator
  simp only [isOperatorChar, Bool.or_eq_true, beq_iff_eq] at hoperator
  have hword := h c hc
  rcases hoperator with ((rfl | rfl) | rfl) | rfl <;> exact absurd hword (by decide)

/-! ### Literals in an expression -/

/-- `b` is `a` with each integer literal replaced by the decimal form of its value. -/
inductive InDecimal : Text → Text → Prop where
  /-- The end of the text. -/
  | nil : InDecimal [] []
  /-- What is no part of a literal stays. -/
  | other {c : Char} {a b : Text} (hc : Token.EndsNumber c) (hrest : InDecimal a b) :
    InDecimal (c :: a) (c :: b)
  /-- A literal in range may be written in decimal; it is not an octal one of eight or more. -/
  | literal {t a b : Text} {n : Nat} (hliteral : IntegerLiteral t n) (hrange : n ≤ Number.greatest)
    (hoctal : isOctal t = true → n < 8) (hends : ∀ c ∈ a.head?, Token.EndsNumber c)
    (hrest : InDecimal a b) : InDecimal (t ++ a) (Text.ofNat n ++ b)

namespace InDecimal

/-- The decimal form ends a number in front of it if the original does. -/
theorem endsNumber {a b : Text} (h : InDecimal a b) (ha : ∀ c ∈ a.head?, Token.EndsNumber c) :
    ∀ c ∈ b.head?, Token.EndsNumber c := by
  cases h with
  | nil => simp
  | other hc hrest => simpa using hc
  | @literal t a b n hliteral hrange hoctal hends hrest =>
    obtain ⟨hfirst, -⟩ := hliteral.isAlphanum
    obtain ⟨c, hc, hdigit⟩ := (Option.any_eq_true ..).mp hfirst
    have hnot := (ha c (by rw [List.head?_append, hc]; rfl)).1
    rw [Token.isAlphanum_of_isDigit hdigit] at hnot
    cases hnot

/-- The tokens are the same. -/
theorem tokenize_eq {a b : Text} (h : InDecimal a b) : Token.tokenize a = Token.tokenize b := by
  induction h with
  | nil => rfl
  | @other c a b hc hrest ih =>
    have hstarts : ¬ Token.startsLiteral c = true := by
      unfold Token.startsLiteral
      rw [Bool.or_eq_true, beq_iff_eq]
      rintro (hdigit | hpoint)
      · exact absurd (Token.isAlphanum_of_isDigit hdigit) (by simp [hc.1])
      · exact hc.2 hpoint
    rw [Token.tokenize, Token.tokenize, ih]
    simp only [if_neg hstarts]
  | @literal t a b n hliteral hrange hoctal hends hrest ih =>
    obtain ⟨hfirst, hword⟩ := hliteral.isAlphanum
    have hsuffix := takesSuffix_of_mem hliteral.suffix_mem
    have hinRange : Number.inRange n = true := Number.inRange_natCast.mpr hrange
    have hstops : ∀ c ∈ a.head?, ∀ d ∈ t.getLast?,
        Token.continuesLiteral (Number.isHexadecimal t) d c = false := fun c hc d hd =>
      Token.continuesLiteral_of_takesSuffix hsuffix (hends c hc) hd
    rw [Token.tokenize_literal hfirst (fun c hc => .inl (hword c hc)) hstops,
      (ofLiteral?_of_integerLiteral hliteral).mpr ⟨hrange, hoctal⟩,
      Token.tokenize_digits (Text.ofNat_ne_nil n) (Text.isDigit_ofNat n) (hrest.endsNumber hends),
      Text.ofDigitChars_ofNat, if_pos hinRange, ih]

/-- The decimal form has an operator exactly if the original has one. -/
theorem any_isOperatorChar {a b : Text} (h : InDecimal a b) :
    a.any isOperatorChar = b.any isOperatorChar := by
  induction h with
  | nil => rfl
  | other hc hrest ih => rw [List.any_cons, List.any_cons, ih]
  | @literal t a b n hliteral hrange hoctal hends hrest ih =>
    have hdigits : ∀ c ∈ Text.ofNat n, c.isAlphanum = true := fun c hc =>
      Token.isAlphanum_of_isDigit (Text.isDigit_ofNat n c hc)
    rw [List.any_append, List.any_append, ih,
      any_isOperatorChar_eq_false fun c hc => .inl (hliteral.isAlphanum.2 c hc),
      any_isOperatorChar_eq_false fun c hc => .inl (hdigits c hc)]

end InDecimal

/-- Integer literals. What a digit followed by letters and digits is evaluated to is its value in
C++ exactly when its suffix is one of C++ and it is not an octal literal of eight or more. All other
literals of C++ that are in range have their values, and an argument made of such literals is folded
as it would be if they were written in decimal. -/
theorem evaluate_integerLiteral (t : Text) :
    (t.head?.any Char.isDigit = true → (∀ c ∈ t, isIdentifierChar c = true) →
      ∀ v, evaluate t = .ok (.int v) →
        ∃ n : Nat, v = n ∧ n ≤ Number.greatest ∧
          (IntegerLiteral t n ↔
            literalSuffix t ∈ integerSuffixes ∧ (isOctal t = true → n < 8))) ∧
    (∀ n : Nat, IntegerLiteral t n →
      (evaluate t = .ok (.int n) ↔ n ≤ Number.greatest ∧ (isOctal t = true → n < 8))) ∧
    (∀ b, InDecimal t b → t.any isOperatorChar = true →
      ∀ value, foldArgument t = .ok value ↔ foldArgument b = .ok value) := by
  refine ⟨?_, ?_, ?_⟩
  · intro hfirst hword v h
    obtain ⟨tokens, htokens, -⟩ := bind_eq_ok.mp h
    have halphanum := isAlphanum_of_tokenize hfirst hword htokens
    rw [evaluate_word_eq_ok_iff hfirst halphanum, ofLiteral?_eq_int_iff] at h
    obtain ⟨hne, -, rfl, hrange⟩ := h
    exact ⟨_, rfl, hrange, integerLiteral_iff hne rfl⟩
  · intro n h
    obtain ⟨hfirst, hword⟩ := h.isAlphanum
    rw [evaluate_word_eq_ok_iff hfirst hword, ofLiteral?_of_integerLiteral h]
  · intro b h hoperator value
    have heval : evaluate t = evaluate b := by
      unfold evaluate
      rw [h.tokenize_eq]
    unfold foldArgument valueOf
    rw [if_pos hoperator, if_pos (h.any_isOperatorChar ▸ hoperator), heval]
    rcases evaluate b with reason | number <;> simp [Except.map, Except.mapError]

/-- A hexadecimal literal that ends in suffix letters, a long one behind no zero, and a sum of two
literals of different bases. -/
theorem evaluate_integerLiteral_samples :
    (evaluate "0x1FuL".toList = .ok (.int 31) ∧ IntegerLiteral "0x1FuL".toList 31) ∧
    (IntegerLiteral "12ll".toList 12 ∧ evaluate "12ll".toList = .ok (.int 12)) ∧
    (foldArgument "16+7".toList = .ok "23".toList ∧
      foldArgument "0x10+07".toList = .ok "23".toList) := by
  obtain ⟨haccepted, -, -⟩ := evaluate_integerLiteral "0x1FuL".toList
  obtain ⟨-, hliteral, -⟩ := evaluate_integerLiteral "12ll".toList
  obtain ⟨-, -, hfolded⟩ := evaluate_integerLiteral "0x10+07".toList
  refine ⟨?_, ?_, ?_⟩
  · have hvalue : evaluate "0x1FuL".toList = .ok (.int 31) := by
      rw [evaluate_word (by decide) (List.all_eq_true.mp (by decide))]
      rfl
    obtain ⟨n, hn, -, hiff⟩ :=
      haccepted (by decide) (List.all_eq_true.mp (by decide)) 31 hvalue
    obtain rfl : n = 31 := by omega
    exact ⟨hvalue, hiff.mpr (by decide)⟩
  · have htwelve : IntegerLiteral "12ll".toList 12 := by decide
    exact ⟨htwelve, (hliteral 12 htwelve).mpr (by decide)⟩
  · have hseven : InDecimal ['0', '7'] ['7'] :=
      .literal (t := ['0', '7']) (n := 7) (by decide) (by decide) (by decide) (by simp) .nil
    have hsign : InDecimal ['+', '0', '7'] ['+', '7'] := .other ⟨by decide, by decide⟩ hseven
    have hsum : InDecimal "0x10+07".toList "16+7".toList :=
      .literal (t := "0x10".toList) (n := 16) (by decide) (by decide) (by decide)
        (by simp [Token.EndsNumber]; decide) hsign
    have hwrites : Token.Writes (Expression.binary .add (.literal 16) (.literal 7)).tokens
        "16+7".toList :=
      .cons [] nofun (.ofNat 16) <| .cons [] nofun .plus <| .cons [] nofun (.ofNat 7) <|
        .nil [] nofun
    have hdecimal : foldArgument "16+7".toList = .ok "23".toList :=
      foldArgument_of_int (Expression.Exact.evaluate_eq (by decide) hwrites)
    exact ⟨hdecimal, (hfolded _ hsum (by decide) _).mpr hdecimal⟩

/-- An octal literal is read as a decimal one, and a text that is no literal at all is accepted. -/
theorem evaluate_octal :
    (evaluate "010".toList = .ok (.int 10) ∧ IntegerLiteral "010".toList 8 ∧
      ¬ IntegerLiteral "010".toList 10) ∧
    foldArgument "010+0".toList = .ok "10".toList ∧
    (evaluate "5uuu".toList = .ok (.int 5) ∧ ∀ n, ¬ IntegerLiteral "5uuu".toList n) := by
  refine ⟨⟨?_, by decide, by decide⟩, ?_, ?_, ?_⟩
  · rw [evaluate_word (by decide) (List.all_eq_true.mp (by decide))]
    rfl
  · -- the digits are written in base ten, whatever the first of them is
    have hwrites : Token.Writes (Expression.binary .add (.literal 10) (.literal 0)).tokens
        "010+0".toList :=
      .cons [] nofun
          (@Token.Lexeme.number "010".toList (by decide) (List.all_eq_true.mp (by decide))) <|
        .cons [] nofun .plus <| .cons [] nofun (.ofNat 0) <| .nil [] nofun
    exact foldArgument_of_int (Expression.Exact.evaluate_eq (by decide) hwrites)
  · rw [evaluate_word (by decide) (List.all_eq_true.mp (by decide))]
    rfl
  · intro n h
    exact absurd h.suffix_mem (by decide)

end ExplicitInstantiation
