import ExplicitInstantiation.Proofs.Arithmetic.Reading
import ExplicitInstantiation.Proofs.Source.Parts

/-!
# Constant expressions are well bracketed

The only brackets that an expression may contain are parentheses, and each of them is a token of its
own (`marks_of_tokenize`). The grammar opens and closes them in pairs (`Tree.wellBracketed_tokens`).
So a text that has a value is well bracketed (`wellBracketed_of_evaluate`).
-/

namespace ExplicitInstantiation

/-- The brackets in the text of a token. -/
def Token.brackets : Token → Text
  | leftParen => ['(']
  | rightParen => [')']
  | _ => []

/-! ### Brackets of texts are brackets of tokens -/

namespace Token

/-- What continues a number is plain. -/
theorem plain_cutLiteral (hexadecimal : Bool) (previous : Char) (t : Text) :
    (cutLiteral hexadecimal previous t).1.all isPlain = true := by
  refine plain_of_class
    (p := fun c => c.isAlphanum || c == '.' || c == '+' || c == '-') (by decide) ?_
  induction t generalizing previous with
  | nil => rfl
  | cons c t ih =>
    rw [cutLiteral]
    split
    next hcontinues =>
      rw [List.all_cons, ih c, Bool.and_true]
      simp only [continuesLiteral, Bool.or_eq_true, Bool.and_eq_true] at hcontinues ⊢
      grind
    next => rfl

/-- The commas and brackets of a text are the brackets of its tokens. -/
theorem marks_of_tokenize {t : Text} {tokens : List Token} (h : tokenize t = .ok tokens) :
    marks t = tokens.flatMap brackets := by
  fun_induction tokenize t generalizing tokens with
  | case1 =>
    cases h
    rfl
  | case2 c rest hblank ih =>
    rw [← ih h, ← List.singleton_append, marks_append,
      marks_of_plain (plain_of_blank (by simpa using hblank)), List.nil_append]
  | case3 c rest hblank token hsymbol ih =>
    obtain ⟨after, hafter, htokens⟩ := bind_eq_ok.mp h
    cases htokens
    have htoken : marks [c] = token.brackets := by
      unfold ofSymbol? at hsymbol
      split at hsymbol <;> cases hsymbol <;> decide
    rw [List.flatMap_cons, ← ih hafter, ← List.singleton_append, marks_append, htoken]
  | case4 => cases h
  | case5 c rest hblank hsymbol hstarts cut value hvalue =>
    rename_i ih
    obtain ⟨after, hafter, htokens⟩ := bind_eq_ok.mp h
    cases htokens
    have hfirst : [c].all isPlain = true :=
      plain_of_class (p := startsLiteral) (by decide) (by simpa using hstarts)
    have hrest : marks rest = marks cut.2 := by
      rw [← cutLiteral_append (Number.isHexadecimal (c :: rest)) c rest, marks_append,
        marks_of_plain (plain_cutLiteral ..), List.nil_append]
    rw [List.flatMap_cons, ← ih hafter, ← hrest, ← List.singleton_append, marks_append,
      marks_of_plain hfirst]
    rfl
  | case6 => cases h

end Token

/-! ### Trees -/

/-- An operator is no bracket. -/
theorem Operator.brackets_token (op : Operator) : op.token.brackets = [] := by
  cases op <;> rfl

/-- Parentheses around a well bracketed text are closed behind it. -/
theorem WellBracketed.parenthesised {t : Text} (h : WellBracketed t) :
    WellBracketed ('(' :: (t ++ [')'])) := by
  show (t ++ [')']).foldlM dueAfter [')'] = some []
  rw [List.foldlM_append, h.foldlM_dueAfter]
  rfl

/-- The brackets of a sentence of the grammar are closed. -/
theorem Tree.wellBracketed_tokens {k : Level} (t : Tree k) :
    WellBracketed (t.tokens.flatMap Token.brackets) := by
  induction t with
  | sum left sign right ihl ihr | product left scale right ihl ihr =>
    rw [tokens, List.flatMap_append, List.flatMap_cons, Operator.brackets_token]
    exact ihl.append ihr
  | term inner ih | factor inner ih => exact ih
  | signed sign operand ih =>
    rw [tokens, List.flatMap_cons, Operator.brackets_token]
    exact ih
  | number x => exact .of_plain rfl
  | parens inner ih =>
    rw [tokens, List.flatMap_cons, List.flatMap_append]
    exact ih.parenthesised

/-- A text with a value is well bracketed. -/
theorem wellBracketed_of_evaluate {t : Text} {value : Number} (h : evaluate t = .ok value) :
    WellBracketed t := by
  obtain ⟨tokens, htokens, hvalue⟩ := bind_eq_ok.mp h
  obtain ⟨tree, htree, -⟩ :=
    (startsWith_of_expressionOf tokens (Nat.zero_le _) (evaluateTokens_eq_ok.mp hvalue)).1
  rw [List.append_nil] at htree
  rw [← wellBracketed_marks_iff, Token.marks_of_tokenize htokens, ← htree]
  exact tree.wellBracketed_tokens

end ExplicitInstantiation
