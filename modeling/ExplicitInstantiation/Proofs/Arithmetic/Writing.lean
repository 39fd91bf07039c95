import Mathlib.Data.List.Chain
import ExplicitInstantiation.Proofs.Arithmetic.Grammar

/-!
# Written tokens are read back

`Writes tokens t` says that `t` is a way to write the tokens: each of them by its symbol or, for an
integer, by decimal digits, with any blanks, or none, before, between and behind them.

No blanks are needed where two tokens meet, unless both are numbers (`Apart`): what follows a number
is then a blank, a symbol or the end, and none of these continues it. So the text is read back as
the tokens it was written from, provided that the integers are in range (`tokenize_eq_ok_iff`).
-/

namespace ExplicitInstantiation

namespace Token

/-! ### Writing tokens -/

/-- The ways to write a token. -/
inductive Lexeme : Token → Text → Prop where
  | plus : Lexeme .plus ['+']
  | minus : Lexeme .minus ['-']
  | star : Lexeme .star ['*']
  | slash : Lexeme .slash ['/']
  | leftParen : Lexeme .leftParen ['(']
  | rightParen : Lexeme .rightParen [')']
  /-- A natural number is written in decimal digits. -/
  | number {digits : Text} (hne : digits ≠ []) (hdigits : ∀ c ∈ digits, c.isDigit = true) :
    Lexeme (.number (.int (Nat.ofDigitChars 10 digits 0))) digits

/-- The decimal form of a natural number is a way to write it. -/
theorem Lexeme.ofNat (n : Nat) : Lexeme (.number (.int n)) (Text.ofNat n) := by
  have hlexeme := Lexeme.number (Text.ofNat_ne_nil n) (Text.isDigit_ofNat n)
  rwa [Text.ofDigitChars_ofNat] at hlexeme

/-- The ways to write tokens one after the other, with any blanks around each of them. -/
inductive Writes : List Token → Text → Prop where
  /-- Behind the last token there are only blanks. -/
  | nil (blanks : Text) (hblanks : ∀ c ∈ blanks, isBlank c = true) : Writes [] blanks
  /-- A token may have blanks in front of it. -/
  | cons {token : Token} {tokens : List Token} (blanks : Text) {lexeme rest : Text}
    (hblanks : ∀ c ∈ blanks, isBlank c = true) (hlexeme : Lexeme token lexeme)
    (hrest : Writes tokens rest) : Writes (token :: tokens) (blanks ++ (lexeme ++ rest))

/-- Whether a token is a number. -/
def IsNumber : Token → Prop
  | number _ => True
  | _ => False

/-- Whether a token is no integer out of range. -/
def InRange : Token → Prop
  | number (.int n) => Number.inRange n = true
  | _ => True

instance : DecidablePred InRange
  | number (.int n) => inferInstanceAs (Decidable (Number.inRange n = true))
  | number (.real _) | plus | minus | star | slash | leftParen | rightParen => isTrue trivial

/-- No two numbers stand next to each other. -/
def Apart (tokens : List Token) : Prop :=
  tokens.IsChain fun a b => a.IsNumber → ¬ b.IsNumber

/-! ### Characters that end a number -/

/-- Whether no number goes on with `c`, unless by the sign of an exponent. -/
def EndsNumber (c : Char) : Prop :=
  c.isAlphanum = false ∧ c ≠ '.'

/-- Blanks lie outside the range of letters and digits. -/
theorem toNat_of_isBlank {c : Char} (h : isBlank c = true) : c.toNat ≤ 32 ∨ 133 ≤ c.toNat := by
  simp only [isBlank, CharRanges.contains, blankRanges, List.any_cons, List.any_nil,
    Bool.or_false, Bool.or_eq_true, Bool.and_eq_true, decide_eq_true_eq] at h
  omega

/-- Letters and digits lie between the digit zero and the last letter. -/
theorem toNat_of_isAlphanum {c : Char} (h : c.isAlphanum = true) :
    48 ≤ c.toNat ∧ c.toNat ≤ 122 := by
  have hbounds {low high : UInt32} (hlow : low ≤ c.val) (hhigh : c.val ≤ high) :
      low.toNat ≤ c.toNat ∧ c.toNat ≤ high.toNat :=
    ⟨UInt32.le_iff_toNat_le.mp hlow, UInt32.le_iff_toNat_le.mp hhigh⟩
  rcases Bool.or_eq_true_iff.mp h with hletter | hdigit
  · rcases Bool.or_eq_true_iff.mp hletter with hupper | hlower
    · obtain ⟨hlow, hhigh⟩ := of_decide_eq_true hupper
      have : 65 ≤ c.toNat ∧ c.toNat ≤ 90 := hbounds hlow hhigh
      omega
    · obtain ⟨hlow, hhigh⟩ := Bool.and_eq_true_iff.mp hlower
      have : 97 ≤ c.toNat ∧ c.toNat ≤ 122 :=
        hbounds (of_decide_eq_true hlow) (of_decide_eq_true hhigh)
      omega
  · obtain ⟨hlow, hhigh⟩ := Bool.and_eq_true_iff.mp hdigit
    have : 48 ≤ c.toNat ∧ c.toNat ≤ 57 :=
      hbounds (of_decide_eq_true hlow) (of_decide_eq_true hhigh)
    omega

/-- A decimal digit is a letter or digit. -/
theorem isAlphanum_of_isDigit {c : Char} (h : c.isDigit = true) : c.isAlphanum = true := by
  simp [Char.isAlphanum, h]

/-- A blank ends a number. -/
theorem endsNumber_of_isBlank {c : Char} (h : isBlank c = true) : EndsNumber c := by
  have hblank := toNat_of_isBlank h
  refine ⟨?_, ?_⟩
  · rw [← Bool.not_eq_true]
    intro halphanum
    have hbounds := toNat_of_isAlphanum halphanum
    omega
  · rintro rfl
    revert hblank
    decide

/-- A symbol is not mistaken for a blank or for a part of a number. -/
theorem symbol_cases {c : Char} {token : Token} (h : ofSymbol? c = some token) :
    isBlank c = false ∧ EndsNumber c ∧ ¬ token.IsNumber ∧ token.InRange := by
  unfold ofSymbol? at h
  split at h <;> cases h <;> exact ⟨by decide, ⟨by decide, by decide⟩, id, trivial⟩

/-- A decimal digit is no blank. -/
theorem isBlank_of_isDigit {c : Char} (h : c.isDigit = true) : isBlank c = false := by
  rw [← Bool.not_eq_true]
  intro hblank
  have hends := (endsNumber_of_isBlank hblank).1
  rw [isAlphanum_of_isDigit h] at hends
  cases hends

/-- A decimal digit is no symbol. -/
theorem ofSymbol?_of_isDigit {c : Char} (h : c.isDigit = true) : ofSymbol? c = none := by
  rcases hsymbol : ofSymbol? c with _ | token
  · rfl
  · have hends := (symbol_cases hsymbol).2.1.1
    rw [isAlphanum_of_isDigit h] at hends
    cases hends

/-- A token is written as a symbol or, if it is a number, in digits. -/
theorem Lexeme.cases {token : Token} {lexeme : Text} (h : Lexeme token lexeme) :
    (∃ c, lexeme = [c] ∧ ofSymbol? c = some token) ∨
      (lexeme ≠ [] ∧ (∀ c ∈ lexeme, c.isDigit = true) ∧
        token = .number (.int (Nat.ofDigitChars 10 lexeme 0))) := by
  cases h with
  | number hne hdigits => exact .inr ⟨hne, hdigits, rfl⟩
  | _ => exact .inl ⟨_, rfl, rfl⟩

/-- A text that is written without a number in front does not go on with a number. -/
theorem Writes.endsNumber {tokens : List Token} {t : Text} (h : Writes tokens t)
    (hfirst : ∀ token ∈ tokens.head?, ¬ token.IsNumber) : ∀ c ∈ t.head?, EndsNumber c := by
  intro c hc
  cases h with
  | nil blanks hblanks => exact endsNumber_of_isBlank (hblanks c (List.mem_of_mem_head? hc))
  | @cons token tokens blanks lexeme rest hblanks hlexeme hrest =>
    cases blanks with
    | cons b blanks =>
      obtain rfl : b = c := by simpa using hc
      exact endsNumber_of_isBlank (hblanks b List.mem_cons_self)
    | nil =>
      rcases hlexeme.cases with ⟨s, rfl, hsymbol⟩ | ⟨-, -, rfl⟩
      · obtain rfl : s = c := by simpa using hc
        exact (symbol_cases hsymbol).2.1
      · exact absurd trivial (hfirst _ rfl)

/-! ### Reading numbers -/

/-- A number takes in letters, digits and points, up to where something stands that does not
continue it. -/
theorem cutLiteral_word {hexadecimal : Bool} {previous : Char} {word rest : Text}
    (hword : ∀ c ∈ word, c.isAlphanum = true ∨ c = '.')
    (hrest : ∀ c ∈ rest.head?, ∀ d ∈ (previous :: word).getLast?,
      continuesLiteral hexadecimal d c = false) :
    cutLiteral hexadecimal previous (word ++ rest) = (word, rest) := by
  induction word generalizing previous with
  | nil =>
    cases rest with
    | nil => rfl
    | cons c rest => simp [cutLiteral, hrest c rfl previous rfl]
  | cons c word ih =>
    have hc : c.isAlphanum = true ∨ c = '.' := hword c List.mem_cons_self
    have hcut := ih (fun d hd => hword d (List.mem_cons_of_mem c hd))
      (by simpa [List.getLast?_cons_cons] using hrest)
    simp [cutLiteral, continuesLiteral, hc, hcut]

/-- What follows a number does not make it hexadecimal. -/
theorem isHexadecimal_append {t rest : Text} (hne : t ≠ [])
    (hrest : ∀ c ∈ rest.head?, c.isAlphanum = false) :
    Number.isHexadecimal (t ++ rest) = Number.isHexadecimal t := by
  rcases t with _ | ⟨c, _ | ⟨d, t⟩⟩
  · exact absurd rfl hne
  · rcases rest with _ | ⟨d, rest⟩
    · rfl
    · have hd : d.isAlphanum = false := hrest d rfl
      have hx : d ≠ 'x' := by
        rintro rfl
        cases hd
      have hX : d ≠ 'X' := by
        rintro rfl
        cases hd
      unfold Number.isHexadecimal
      split <;> simp_all
  · unfold Number.isHexadecimal
    split <;> simp_all

/-- No character of a number in digits is a letter or a point. -/
theorem ne_of_isDigit {c d : Char} (hc : c.isDigit = true) (hd : d.isDigit = false) : c ≠ d := by
  rintro rfl
  rw [hc] at hd
  cases hd

/-- A text without an `x` is no hexadecimal literal. -/
theorem not_isHexadecimal {t : Text} (h : ∀ c ∈ t, c ≠ 'x' ∧ c ≠ 'X') :
    Number.isHexadecimal t = false := by
  unfold Number.isHexadecimal
  split
  · next c rest =>
    have hc : c ≠ 'x' ∧ c ≠ 'X' := h c (by simp)
    simp [hc]
  · rfl

/-- Where no character is to be taken off, the text stays as it is. -/
theorem dropEndWhile_eq_self {p : Char → Bool} {t : Text} (h : ∀ c ∈ t, p c = false) :
    Text.dropEndWhile p t = t := by
  unfold Text.dropEndWhile
  rcases hreverse : t.reverse with _ | ⟨c, rest⟩
  · rw [List.dropWhile_nil, ← hreverse, List.reverse_reverse]
  · have hc : c ∈ t := by
      rw [← List.mem_reverse, hreverse]
      exact List.mem_cons_self
    rw [List.dropWhile_cons_of_neg (by simp [h c hc]), ← hreverse, List.reverse_reverse]

/-- Decimal digits are read as the number they stand for, if it is in range. -/
theorem ofLiteral?_digits {digits : Text} (hne : digits ≠ [])
    (hdigits : ∀ c ∈ digits, c.isDigit = true) :
    Number.ofLiteral? digits = Number.ofNat? (Nat.ofDigitChars 10 digits 0) := by
  have hbody : Text.dropEndWhile (fun c => Number.isIntegerSuffix c || Number.isRealSuffix c)
      digits = digits := by
    refine dropEndWhile_eq_self fun c hc => ?_
    simp [Number.isIntegerSuffix, Number.isRealSuffix, ne_of_isDigit (hdigits c hc)]
  have hlast : digits.getLast?.any Number.isRealSuffix = false := by
    rw [← Bool.not_eq_true, Option.any_eq_true]
    rintro ⟨c, hc, hsuffix⟩
    have hdigit := hdigits c (List.mem_of_getLast? hc)
    simp [Number.isRealSuffix, ne_of_isDigit hdigit] at hsuffix
  have hreal : digits.any (fun c => c == '.' || c == 'e' || c == 'E') = false := by
    rw [List.any_eq_false]
    intro c hc
    simp [ne_of_isDigit (hdigits c hc)]
  have hpoint : digits ≠ ['.'] := by
    rintro rfl
    exact absurd (hdigits '.' List.mem_cons_self) (by decide)
  have hhexadecimal : Number.isHexadecimal digits = false :=
    not_isHexadecimal fun c hc =>
      ⟨ne_of_isDigit (hdigits c hc) rfl, ne_of_isDigit (hdigits c hc) rfl⟩
  have hvalue : digits? digits = some (Nat.ofDigitChars 10 digits 0) := by
    unfold digits?
    rw [if_neg]
    · rfl
    · simpa [hne] using hdigits
  unfold Number.ofLiteral? Number.ofDecimalLiteral?
  rw [hhexadecimal]
  simp only [hbody, hlast, hreal, hvalue, hne, hpoint, Bool.or_self, or_self, if_false,
    Bool.false_eq_true, Option.bind_some]

/-! ### Reading tokens -/

/-- Blanks in front do not matter for the tokens. -/
theorem tokenize_blanks {blanks : Text} (hblanks : ∀ c ∈ blanks, isBlank c = true) (t : Text) :
    tokenize (blanks ++ t) = tokenize t := by
  induction blanks with
  | nil => rfl
  | cons c blanks ih =>
    rw [List.cons_append, tokenize, if_pos (hblanks c List.mem_cons_self)]
    exact ih fun d hd => hblanks d (List.mem_cons_of_mem c hd)

/-- A symbol is a token, and the others follow. -/
theorem tokenize_symbol {c : Char} {token : Token} (h : ofSymbol? c = some token) (rest : Text) :
    tokenize (c :: rest) = tokenize rest >>= fun tokens => .ok (token :: tokens) := by
  have hblank : ¬ isBlank c = true := by simp [(symbol_cases h).1]
  rw [tokenize, if_neg hblank, h]
  rfl

/-- A literal is one token, and what follows is read behind it. -/
theorem tokenize_literal {t rest : Text} (hfirst : t.head?.any Char.isDigit = true)
    (hword : ∀ c ∈ t, c.isAlphanum = true ∨ c = '.')
    (hrest : ∀ c ∈ rest.head?, ∀ d ∈ t.getLast?,
      continuesLiteral (Number.isHexadecimal t) d c = false) :
    tokenize (t ++ rest) =
      match Number.ofLiteral? t with
      | none => .error (.invalidLiteral t)
      | some value => tokenize rest >>= fun tokens => .ok (.number value :: tokens) := by
  obtain ⟨c, hhead, hc⟩ := (Option.any_eq_true ..).mp hfirst
  obtain ⟨word, rfl⟩ := List.head?_eq_some_iff.mp hhead
  have hends : ∀ d ∈ rest.head?, d.isAlphanum = false := by
    intro d hd
    have hstops := hrest d hd _ (List.getLast?_eq_some_getLast (List.cons_ne_nil c word))
    simp only [continuesLiteral, Bool.or_eq_false_iff] at hstops
    exact hstops.1.1
  have hhex : Number.isHexadecimal (c :: (word ++ rest)) = Number.isHexadecimal (c :: word) :=
    isHexadecimal_append (List.cons_ne_nil c word) hends
  have hcut : cutLiteral (Number.isHexadecimal (c :: word)) c (word ++ rest) = (word, rest) :=
    cutLiteral_word (fun d hd => hword d (List.mem_cons_of_mem c hd)) hrest
  have hblank : ¬ isBlank c = true := by simp [isBlank_of_isDigit hc]
  have hstarts : startsLiteral c = true := by simp [startsLiteral, hc]
  rw [List.cons_append, tokenize, if_neg hblank, ofSymbol?_of_isDigit hc]
  simp only [if_pos hstarts, hhex, hcut]
  rfl

/-- The same for digits, which nothing that ends a number continues. -/
theorem tokenize_digits {digits rest : Text} (hne : digits ≠ [])
    (hdigits : ∀ c ∈ digits, c.isDigit = true) (hrest : ∀ c ∈ rest.head?, EndsNumber c) :
    tokenize (digits ++ rest) =
      if Number.inRange (Nat.ofDigitChars 10 digits 0) then
        tokenize rest >>= fun tokens =>
          .ok (.number (.int (Nat.ofDigitChars 10 digits 0)) :: tokens)
      else .error (.invalidLiteral digits) := by
  have hfirst : digits.head?.any Char.isDigit = true := by
    obtain ⟨c, rest, rfl⟩ := List.exists_cons_of_ne_nil hne
    exact hdigits c List.mem_cons_self
  have hstops : ∀ c ∈ rest.head?, ∀ d ∈ digits.getLast?,
      continuesLiteral (Number.isHexadecimal digits) d c = false := by
    intro c hc d hd
    obtain ⟨halphanum, hpoint⟩ := hrest c hc
    have hdigit := hdigits d (List.mem_of_getLast? hd)
    -- a sign would continue the number only behind a letter
    simp [continuesLiteral, halphanum, hpoint, ne_of_isDigit hdigit]
  rw [tokenize_literal hfirst (fun c hc => .inl (isAlphanum_of_isDigit (hdigits c hc))) hstops,
    ofLiteral?_digits hne hdigits]
  by_cases hrange : Number.inRange (Nat.ofDigitChars 10 digits 0) = true
  · simp only [Number.ofNat?, if_pos hrange]
  · simp only [Number.ofNat?, if_neg hrange]

/-- A token that is written in front of a text is read before it. -/
theorem tokenize_lexeme {token : Token} {lexeme rest : Text} (h : Lexeme token lexeme)
    (hrest : token.IsNumber → ∀ c ∈ rest.head?, EndsNumber c) {read : List Token} :
    tokenize (lexeme ++ rest) = .ok read ↔
      token.InRange ∧ ∃ tokens, tokenize rest = .ok tokens ∧ read = token :: tokens := by
  rcases h.cases with ⟨c, rfl, hsymbol⟩ | ⟨hne, hdigits, rfl⟩
  · rw [List.singleton_append, tokenize_symbol hsymbol, bind_eq_ok]
    simp [(symbol_cases hsymbol).2.2.2, eq_comm]
  · rw [tokenize_digits hne hdigits (hrest trivial)]
    by_cases hrange : Number.inRange (Nat.ofDigitChars 10 lexeme 0) = true
    · rw [if_pos hrange, bind_eq_ok]
      simp only [InRange, hrange, true_and, Except.ok.injEq, eq_comm]
    · rw [if_neg hrange]
      simp only [InRange, hrange, false_and, reduceCtorEq]

/-- A text has exactly the tokens from which it was written, if their integers are in range, and
none otherwise. -/
theorem tokenize_eq_ok_iff {tokens : List Token} {t : Text} (h : Writes tokens t)
    (hapart : Apart tokens) {read : List Token} :
    tokenize t = .ok read ↔ read = tokens ∧ ∀ token ∈ tokens, token.InRange := by
  induction h generalizing read with
  | nil blanks hblanks =>
    have hread : tokenize blanks = .ok [] := by
      rw [← List.append_nil blanks, tokenize_blanks hblanks, tokenize]
    simp [hread, eq_comm]
  | @cons token tokens blanks lexeme rest hblanks hlexeme hrest ih =>
    have hends : token.IsNumber → ∀ c ∈ rest.head?, EndsNumber c := fun hnumber =>
      hrest.endsNumber fun next hnext => hapart.rel_head? hnext hnumber
    rw [tokenize_blanks hblanks, tokenize_lexeme hlexeme hends]
    simp only [ih hapart.tail, List.forall_mem_cons]
    constructor
    · rintro ⟨htoken, _, ⟨rfl, htokens⟩, rfl⟩
      exact ⟨rfl, htoken, htokens⟩
    · rintro ⟨rfl, htoken, htokens⟩
      exact ⟨htoken, tokens, ⟨rfl, htokens⟩, rfl⟩

end Token

end ExplicitInstantiation
