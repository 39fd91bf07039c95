import Mathlib.Algebra.Group.Int.Defs
import ExplicitInstantiation.Instantiation.Resolve
import ExplicitInstantiation.Proofs.Arithmetic.Reading
import ExplicitInstantiation.Proofs.Arithmetic.Writing

/-!
# Integer expressions are evaluated exactly

An `Expression` is arithmetic over natural numbers, before it is written down. `Expression.value` is
its value in the integers, where nothing overflows, and `Expression.tokens` writes it with just the
parentheses that precedence and association to the left require.

`Expression.valueOf_eq_ok_iff_exact` follows such an expression from its text to its value. The
steps are those of the evaluation: the text is read back as the tokens (`Token.tokenize_eq_ok_iff`),
the tokens are those of a parse tree (`exists_parsedBy`) along which they are evaluated
(`evaluateTokens_tree`), and evaluation with a check at every step succeeds exactly where no check
fails, with the exact value (`checkedValue_eq_ok_iff`).
-/

namespace ExplicitInstantiation

/-! ### Expressions -/

/-- The operation in the integers. Division drops the fraction, and a quotient by zero means
nothing. -/
def Operator.exactly : Operator → Int → Int → Int
  | add, a, b => a + b
  | sub, a, b => a - b
  | mul, a, b => a * b
  | div, a, b => a.tdiv b

/-- What a sign does in the integers. -/
def Sign.exactly : Sign → Int → Int
  | plus, a => a
  | minus, a => -a

/-- An arithmetic expression over natural numbers. -/
inductive Expression where
  /-- A natural number. -/
  | literal (value : Nat)
  /-- An operand with a sign. -/
  | signed (sign : Sign) (operand : Expression)
  /-- Two operands with an operator between them. -/
  | binary (op : Operator) (left right : Expression)
  deriving Repr, DecidableEq

namespace Expression

/-- The value in the integers. -/
def value : Expression → Int
  | literal n => n
  | signed sign operand => sign.exactly operand.value
  | binary op left right => op.exactly left.value right.value

/-- The expression and all expressions inside it. -/
def subexpressions : Expression → List Expression
  | literal n => [literal n]
  | signed sign operand => signed sign operand :: operand.subexpressions
  | binary op left right => binary op left right :: (left.subexpressions ++ right.subexpressions)

/-- Whether the value can be computed in 64 bits: nothing is divided by zero, and no value of a
subexpression is out of range. -/
structure Exact (e : Expression) : Prop where
  /-- No divisor is zero. -/
  divisor_ne_zero : ∀ left right, binary .div left right ∈ e.subexpressions → right.value ≠ 0
  /-- All values have 64 bits with a sign. -/
  value_mem : ∀ sub ∈ e.subexpressions, -2 ^ 63 ≤ sub.value ∧ sub.value ≤ 2 ^ 63 - 1

/-! ### Writing expressions -/

/-- How tightly an expression holds together: sums and differences least, then products and
quotients, and most what has no operator or only a sign outside. -/
def precedence : Expression → Nat
  | binary .add _ _ | binary .sub _ _ => 1
  | binary .mul _ _ | binary .div _ _ => 2
  | signed _ _ | literal _ => 3

/-- Tokens in parentheses, where these are needed. -/
def enclose (needed : Bool) (tokens : List Token) : List Token :=
  if needed then .leftParen :: (tokens ++ [.rightParen]) else tokens

/-- The expression written with the parentheses it needs. All operators associate to the left, so an
operand of the same precedence needs parentheses on the right only. -/
def tokens : Expression → List Token
  | literal n => [.number (.int n)]
  | signed sign operand =>
    sign.operator.token :: enclose (operand.precedence < 3) operand.tokens
  | binary op left right =>
    enclose (left.precedence < (binary op left right).precedence) left.tokens ++
      op.token :: enclose (right.precedence ≤ (binary op left right).precedence) right.tokens

/-! ### Evaluation with a check at every step -/

/-- The value, computed with a check at every step. -/
def checkedValue : Expression → Except Reason Int
  | literal n => .ok n
  | signed .plus operand => operand.checkedValue
  | signed .minus operand => do Operator.checked (-(← operand.checkedValue))
  | binary op left right => do op.onInts (← left.checkedValue) (← right.checkedValue)

end Expression

/-- The integers in range are those of 64 bits with a sign. -/
theorem Number.inRange_iff_bounds {n : Int} :
    inRange n = true ↔ -2 ^ 63 ≤ n ∧ n ≤ 2 ^ 63 - 1 :=
  inRange_iff

/-- A natural number is in range exactly if it is at most the greatest integer. -/
theorem Number.inRange_natCast {n : Nat} : inRange n = true ↔ n ≤ greatest := by
  rw [inRange_iff, least]
  omega

/-- A result is kept exactly if it is in range. -/
theorem Operator.checked_eq_ok_iff {n v : Int} :
    checked n = .ok v ↔ v = n ∧ -2 ^ 63 ≤ n ∧ n ≤ 2 ^ 63 - 1 := by
  rw [← Number.inRange_iff_bounds, checked]
  split
  next h => simp [h, eq_comm]
  next h => simp [h]

/-- An operation succeeds unless it divides by zero or its exact result is out of range. -/
theorem Operator.onInts_eq_ok_iff {op : Operator} {a b v : Int} :
    op.onInts a b = .ok v ↔ v = op.exactly a b ∧ (op = .div → b ≠ 0) ∧
      -2 ^ 63 ≤ op.exactly a b ∧ op.exactly a b ≤ 2 ^ 63 - 1 := by
  cases op with
  | div =>
    rw [onInts]
    split
    next hb => simp [hb]
    next hb => simp only [checked_eq_ok_iff, exactly, ne_eq, hb, not_false_eq_true, implies_true,
      true_and]
  | _ => simp only [onInts, checked_eq_ok_iff, exactly, reduceCtorEq, false_implies, true_and]

namespace Expression

/-- A literal can be computed exactly if it is in range. -/
theorem exact_literal_iff {n : Nat} :
    (literal n).Exact ↔ Number.inRange n = true := by
  rw [Number.inRange_iff_bounds]
  constructor
  · intro h
    exact h.value_mem _ List.mem_cons_self
  · intro h
    refine ⟨?_, ?_⟩
    · intro left right hmem
      cases List.mem_singleton.mp hmem
    · intro sub hmem
      rw [List.mem_singleton.mp hmem]
      exact h

/-- A signed operand can be computed if the operand can be and the result is in range. -/
theorem exact_signed_iff {sign : Sign} {operand : Expression} :
    (signed sign operand).Exact ↔ operand.Exact ∧
      -2 ^ 63 ≤ (signed sign operand).value ∧ (signed sign operand).value ≤ 2 ^ 63 - 1 := by
  constructor
  · intro h
    refine ⟨⟨?_, ?_⟩, h.value_mem _ List.mem_cons_self⟩
    · intro left right hmem
      exact h.divisor_ne_zero left right (List.mem_cons_of_mem _ hmem)
    · intro sub hmem
      exact h.value_mem sub (List.mem_cons_of_mem _ hmem)
  · rintro ⟨hoperand, hvalue⟩
    refine ⟨?_, ?_⟩
    · intro left right hmem
      rcases List.mem_cons.mp hmem with heq | hmem
      · cases heq
      · exact hoperand.divisor_ne_zero left right hmem
    · intro sub hmem
      rcases List.mem_cons.mp hmem with rfl | hmem
      · exact hvalue
      · exact hoperand.value_mem sub hmem

/-- An operation can be computed if both operands can be, nothing is divided by zero and the result
is in range. -/
theorem exact_binary_iff {op : Operator} {left right : Expression} :
    (binary op left right).Exact ↔ left.Exact ∧ right.Exact ∧ (op = .div → right.value ≠ 0) ∧
      -2 ^ 63 ≤ (binary op left right).value ∧ (binary op left right).value ≤ 2 ^ 63 - 1 := by
  have hleft : ∀ sub ∈ left.subexpressions, sub ∈ (binary op left right).subexpressions :=
    fun sub hmem => List.mem_cons_of_mem _ (List.mem_append_left _ hmem)
  have hright : ∀ sub ∈ right.subexpressions, sub ∈ (binary op left right).subexpressions :=
    fun sub hmem => List.mem_cons_of_mem _ (List.mem_append_right _ hmem)
  constructor
  · intro h
    refine ⟨⟨?_, ?_⟩, ⟨?_, ?_⟩, ?_, h.value_mem _ List.mem_cons_self⟩
    · exact fun l r hmem => h.divisor_ne_zero l r (hleft _ hmem)
    · exact fun sub hmem => h.value_mem sub (hleft sub hmem)
    · exact fun l r hmem => h.divisor_ne_zero l r (hright _ hmem)
    · exact fun sub hmem => h.value_mem sub (hright sub hmem)
    · rintro rfl
      exact h.divisor_ne_zero left right List.mem_cons_self
  · rintro ⟨hl, hr, hdivisor, hvalue⟩
    refine ⟨?_, ?_⟩
    · intro l r hmem
      rcases List.mem_cons.mp hmem with heq | hmem
      · cases heq
        exact hdivisor rfl
      · rcases List.mem_append.mp hmem with hmem | hmem
        · exact hl.divisor_ne_zero l r hmem
        · exact hr.divisor_ne_zero l r hmem
    · intro sub hmem
      rcases List.mem_cons.mp hmem with rfl | hmem
      · exact hvalue
      · rcases List.mem_append.mp hmem with hmem | hmem
        · exact hl.value_mem sub hmem
        · exact hr.value_mem sub hmem

instance decidableExact : (e : Expression) → Decidable e.Exact
  | literal _ => decidable_of_iff _ exact_literal_iff.symm
  | signed _ operand =>
    have := decidableExact operand
    decidable_of_iff _ exact_signed_iff.symm
  | binary _ left right =>
    have := decidableExact left
    have := decidableExact right
    decidable_of_iff _ exact_binary_iff.symm

/-- The numbers among tokens are not changed by parentheses. -/
theorem forall_inRange_enclose {needed : Bool} {ts : List Token} :
    (∀ token ∈ enclose needed ts, token.InRange) ↔ ∀ token ∈ ts, token.InRange := by
  cases needed with
  | false => rfl
  | true => simp [enclose, Token.InRange, or_imp, forall_and]

/-- An operator is no number, so it is not out of range. -/
theorem inRange_token (op : Operator) : op.token.InRange := by
  cases op <;> trivial

/-- Evaluation with checks, of literals that are in range, succeeds exactly where the value can be
computed in 64 bits, and then with that value. -/
theorem checkedValue_eq_ok_iff (e : Expression) : ∀ {v : Int},
    ((∀ token ∈ e.tokens, token.InRange) ∧ e.checkedValue = .ok v) ↔ v = e.value ∧ e.Exact := by
  induction e with
  | literal n =>
    intro v
    rw [tokens, List.forall_mem_singleton, exact_literal_iff, checkedValue, Except.ok.injEq, value,
      eq_comm, and_comm]
    rfl
  | signed sign operand ih =>
    intro v
    have htokens : (∀ token ∈ (signed sign operand).tokens, token.InRange) ↔
        ∀ token ∈ operand.tokens, token.InRange := by
      rw [tokens, List.forall_mem_cons, forall_inRange_enclose, and_iff_right (inRange_token _)]
    rw [htokens, exact_signed_iff]
    cases sign with
    | plus =>
      rw [checkedValue, ih]
      constructor
      · rintro ⟨rfl, hexact⟩
        refine ⟨rfl, hexact, hexact.value_mem operand ?_⟩
        cases operand <;> exact List.mem_cons_self
      · rintro ⟨rfl, hexact, -⟩
        exact ⟨rfl, hexact⟩
    | minus =>
      rw [checkedValue, bind_eq_ok]
      constructor
      · rintro ⟨hrange, a, ha, hneg⟩
        obtain ⟨rfl, hexact⟩ := ih.mp ⟨hrange, ha⟩
        obtain ⟨rfl, hvalue⟩ := Operator.checked_eq_ok_iff.mp hneg
        exact ⟨rfl, hexact, hvalue⟩
      · rintro ⟨rfl, hexact, hvalue⟩
        obtain ⟨hrange, ha⟩ := ih.mpr ⟨rfl, hexact⟩
        exact ⟨hrange, _, ha, Operator.checked_eq_ok_iff.mpr ⟨rfl, hvalue⟩⟩
  | binary op left right ihl ihr =>
    intro v
    have htokens : (∀ token ∈ (binary op left right).tokens, token.InRange) ↔
        (∀ token ∈ left.tokens, token.InRange) ∧ ∀ token ∈ right.tokens, token.InRange := by
      rw [tokens, List.forall_mem_append, List.forall_mem_cons, forall_inRange_enclose,
        forall_inRange_enclose, and_iff_right (inRange_token _)]
    rw [htokens, exact_binary_iff, checkedValue]
    constructor
    · rintro ⟨⟨hleft, hright⟩, h⟩
      obtain ⟨a, ha, h⟩ := bind_eq_ok.mp h
      obtain ⟨b, hb, h⟩ := bind_eq_ok.mp h
      obtain ⟨rfl, hl⟩ := ihl.mp ⟨hleft, ha⟩
      obtain ⟨rfl, hr⟩ := ihr.mp ⟨hright, hb⟩
      obtain ⟨rfl, hdivisor, hvalue⟩ := Operator.onInts_eq_ok_iff.mp h
      exact ⟨rfl, hl, hr, hdivisor, hvalue⟩
    · rintro ⟨rfl, hl, hr, hdivisor, hvalue⟩
      obtain ⟨hleft, ha⟩ := ihl.mpr ⟨rfl, hl⟩
      obtain ⟨hright, hb⟩ := ihr.mpr ⟨rfl, hr⟩
      refine ⟨⟨hleft, hright⟩, bind_eq_ok.mpr ⟨_, ha, bind_eq_ok.mpr ⟨_, hb, ?_⟩⟩⟩
      exact Operator.onInts_eq_ok_iff.mpr ⟨rfl, hdivisor, hvalue⟩

/-! ### Parse trees -/

/-- The precedence of the expressions whose outermost part a nonterminal derives. -/
def levelPrecedence : Level → Nat
  | .sum => 1
  | .product => 2
  | .factor => 3

/-- A tree, put in parentheses where these are needed, makes a tree of any other nonterminal with
the same value. -/
theorem exists_tree_enclose {j : Level} (t : Tree j) (k : Level) :
    ∃ u : Tree k, u.tokens = enclose (levelPrecedence j < levelPrecedence k) t.tokens ∧
      u.value = t.value :=
  match j, k, t with
  | .sum, .sum, t => ⟨t, rfl, rfl⟩
  | .sum, .product, t => ⟨.factor (.parens t), rfl, rfl⟩
  | .sum, .factor, t => ⟨.parens t, rfl, rfl⟩
  | .product, .sum, t => ⟨.term t, rfl, rfl⟩
  | .product, .product, t => ⟨t, rfl, rfl⟩
  | .product, .factor, t => ⟨.parens (.term t), rfl, rfl⟩
  | .factor, .sum, t => ⟨.term (.factor t), rfl, rfl⟩
  | .factor, .product, t => ⟨.factor t, rfl, rfl⟩
  | .factor, .factor, t => ⟨t, rfl, rfl⟩

/-- Whether a tree derives the written expression, and has its value. -/
structure ParsedBy (e : Expression) {k : Level} (t : Tree k) : Prop where
  /-- The tree is of the nonterminal for the outermost part of the expression. -/
  level_eq : levelPrecedence k = e.precedence
  /-- Its sentence is the written expression. -/
  tokens_eq : t.tokens = e.tokens
  /-- Its value is that of the expression. -/
  value_eq : t.value = e.checkedValue.map Number.int

/-- An operand that is parsed is parsed with the parentheses it needs, too. -/
theorem ParsedBy.enclose {e : Expression} {j : Level} {t : Tree j} (h : e.ParsedBy t) (k : Level) :
    ∃ u : Tree k, u.tokens = Expression.enclose (e.precedence < levelPrecedence k) e.tokens ∧
      u.value = e.checkedValue.map Number.int := by
  obtain ⟨u, hu, hu'⟩ := exists_tree_enclose t k
  exact ⟨u, by rw [hu, h.level_eq, h.tokens_eq], hu'.trans h.value_eq⟩

/-- Two operands are parsed together by a node whose right operand is of the next nonterminal. -/
theorem ParsedBy.binary {op : Operator} {left right : Expression} {j j' : Level} {l : Tree j}
    {r : Tree j'} (hl : left.ParsedBy l) (hr : right.ParsedBy r) {outer inner : Level}
    (node : Tree outer → Tree inner → Tree outer)
    (htokens : ∀ u w, (node u w).tokens = u.tokens ++ op.token :: w.tokens)
    (hvalue : ∀ u w, (node u w).value = do op.apply (← u.value) (← w.value))
    (houter : levelPrecedence outer = (binary op left right).precedence)
    (hinner : levelPrecedence inner = (binary op left right).precedence + 1) :
    ∃ t : Tree outer, (binary op left right).ParsedBy t := by
  obtain ⟨u, hu, hu'⟩ := hl.enclose outer
  obtain ⟨w, hw, hw'⟩ := hr.enclose inner
  refine ⟨node u w, houter, ?_, ?_⟩
  · rw [htokens, hu, hw, houter, hinner, tokens]
    simp only [Nat.lt_succ_iff]
  · rw [hvalue, hu', hw', checkedValue]
    rcases left.checkedValue with reason | a
    · rfl
    rcases right.checkedValue with reason | b <;> rfl

/-- Every written expression is the sentence of a parse tree that has its value. -/
theorem exists_parsedBy (e : Expression) : ∃ (k : Level) (t : Tree k), e.ParsedBy t := by
  induction e with
  | literal n => exact ⟨.factor, .number (.int n), rfl, rfl, rfl⟩
  | signed sign operand ih =>
    obtain ⟨_, t, ht⟩ := ih
    obtain ⟨u, hu, hu'⟩ := ht.enclose .factor
    refine ⟨.factor, .signed sign u, rfl, ?_, ?_⟩
    · rw [Tree.tokens, hu]
      rfl
    · rw [Tree.value, hu']
      cases sign <;> simp only [checkedValue] <;> cases operand.checkedValue <;> rfl
  | binary op left right ihl ihr =>
    obtain ⟨_, l, hl⟩ := ihl
    obtain ⟨_, r, hr⟩ := ihr
    cases op with
    | add => exact ⟨_, hl.binary hr (.sum · .plus ·) (fun _ _ => rfl) (fun _ _ => rfl) rfl rfl⟩
    | sub => exact ⟨_, hl.binary hr (.sum · .minus ·) (fun _ _ => rfl) (fun _ _ => rfl) rfl rfl⟩
    | mul =>
      exact ⟨_, hl.binary hr (.product · .multiply ·) (fun _ _ => rfl) (fun _ _ => rfl) rfl rfl⟩
    | div =>
      exact ⟨_, hl.binary hr (.product · .divide ·) (fun _ _ => rfl) (fun _ _ => rfl) rfl rfl⟩

end Expression

/-- Operators and parentheses keep numbers apart. -/
theorem Token.apart_append_cons {left right : List Token} {token : Token}
    (h : ¬ token.IsNumber) : Apart (left ++ token :: right) ↔ Apart left ∧ Apart right := by
  unfold Apart
  rw [List.isChain_append, List.isChain_cons]
  constructor
  · rintro ⟨hleft, ⟨-, hright⟩, -⟩
    exact ⟨hleft, hright⟩
  · rintro ⟨hleft, hright⟩
    refine ⟨hleft, ⟨fun _ _ hnumber => absurd hnumber h, hright⟩, ?_⟩
    intro a _ b hb _
    obtain rfl : token = b := by simpa using hb
    exact h

/-- A token that is no number does not matter for numbers that stand next to each other. -/
theorem Token.apart_cons {right : List Token} {token : Token} (h : ¬ token.IsNumber) :
    Apart (token :: right) ↔ Apart right := by
  rw [← List.nil_append (token :: right), apart_append_cons h]
  exact and_iff_right .nil

/-- In a sentence of the grammar no two numbers stand next to each other. -/
theorem Tree.apart_tokens {k : Level} (t : Tree k) : Token.Apart t.tokens := by
  have hoperator : ∀ op : Operator, ¬ op.token.IsNumber := by
    intro op
    cases op <;> exact id
  induction t with
  | sum left sign right ihl ihr | product left scale right ihl ihr =>
    exact (Token.apart_append_cons (hoperator _)).mpr ⟨ihl, ihr⟩
  | term inner ih | factor inner ih => exact ih
  | signed sign operand ih => exact (Token.apart_cons (hoperator _)).mpr ih
  | number value => exact .singleton _
  | parens inner ih => exact (Token.apart_cons id).mpr ((Token.apart_append_cons id).mpr ⟨ih, .nil⟩)

/-- The tokens of a parse tree have the value of the tree. -/
theorem evaluateTokens_tree (t : Tree .sum) {value : Number} :
    evaluateTokens t.tokens = .ok value ↔ t.value = .ok value := by
  rw [evaluateTokens_eq_ok]
  constructor
  · intro h
    obtain ⟨u, htokens, hu⟩ : StartsWith .sum t.tokens value [] :=
      (startsWith_of_expressionOf t.tokens (Nat.zero_le _) h).1
    rw [List.append_nil] at htokens
    rw [← Tree.eq_of_tokens_eq htokens]
    exact hu
  · intro h
    have hread := expressionOf_tokens t h (Nat.zero_le _) (stops_nil _)
    rw [List.append_nil] at hread
    rw [hread, operatorsOf_of_stops (stops_nil 0)]

/-- A text in which the tokens of a parse tree are written has the value of the tree, if no integer
in it is out of range. -/
theorem evaluate_tree_eq_ok_iff (tree : Tree .sum) {t : Text} (h : Token.Writes tree.tokens t)
    {value : Number} :
    evaluate t = .ok value ↔ (∀ token ∈ tree.tokens, token.InRange) ∧ tree.value = .ok value := by
  have hread : ∀ {read}, Token.tokenize t = .ok read ↔
      read = tree.tokens ∧ ∀ token ∈ tree.tokens, token.InRange :=
    Token.tokenize_eq_ok_iff h tree.apart_tokens
  unfold evaluate
  rw [bind_eq_ok]
  simp only [hread, and_assoc, exists_eq_left, evaluateTokens_tree]

/-- An argument with an integer value folds to the decimal form if it has an operator, and to itself
otherwise. -/
theorem foldArgument_of_int {argument : Text} {n : Int} (h : evaluate argument = .ok (.int n)) :
    foldArgument argument =
      .ok (if argument.any isOperatorChar then Text.ofInt n else argument) := by
  unfold foldArgument valueOf
  rw [h]
  split <;> rfl

namespace Expression

/-- A text in which an expression is written has the value of the expression exactly when that can
be computed in 64 bits. -/
theorem evaluate_eq_ok_iff {e : Expression} {t : Text} (h : Token.Writes e.tokens t)
    {number : Number} : evaluate t = .ok number ↔ number = .int e.value ∧ e.Exact := by
  obtain ⟨_, u, hparsed⟩ := e.exists_parsedBy
  obtain ⟨tree, htree, hvalue⟩ : ∃ tree : Tree .sum, tree.tokens = u.tokens ∧
      tree.value = u.value := u.exists_ofPower (Nat.zero_le _)
  rw [hparsed.tokens_eq] at htree
  rw [hparsed.value_eq] at hvalue
  rw [evaluate_tree_eq_ok_iff tree (htree ▸ h), htree, hvalue, map_eq_ok]
  constructor
  · rintro ⟨hrange, v, hv, rfl⟩
    obtain ⟨rfl, hexact⟩ := e.checkedValue_eq_ok_iff.mp ⟨hrange, hv⟩
    exact ⟨rfl, hexact⟩
  · rintro ⟨rfl, hexact⟩
    obtain ⟨hrange, hv⟩ := e.checkedValue_eq_ok_iff.mpr ⟨rfl, hexact⟩
    exact ⟨hrange, _, hv, rfl⟩

/-- What can be computed in 64 bits is the value of every text in which it is written. -/
theorem Exact.evaluate_eq {e : Expression} (he : e.Exact) {t : Text} (h : Token.Writes e.tokens t) :
    evaluate t = .ok (.int e.value) :=
  (evaluate_eq_ok_iff h).mpr ⟨rfl, he⟩

/-- **Integer folding is exact.** Whatever the spacing, a written expression folds to a number if
and only if, over the integers, no divisor is zero and all values on the way fit into 64 bits; the
number is then the exact value. Otherwise the expression is reported as one that has no value. -/
theorem valueOf_eq_ok_iff_exact (e : Expression) {t : Text} (h : Token.Writes e.tokens t) :
    (∀ number, valueOf t = .ok number ↔ number = .int e.value ∧ e.Exact) ∧
      (¬ e.Exact → ∃ reason, valueOf t = .error ⟨t, reason⟩) := by
  unfold valueOf
  constructor
  · intro number
    rw [← evaluate_eq_ok_iff h]
    cases evaluate t <;> simp [Except.mapError]
  · intro hexact
    rcases heval : evaluate t with reason | number
    · exact ⟨reason, rfl⟩
    · exact absurd (evaluate_eq_ok_iff h |>.mp heval).2 hexact

/-! ### Two expressions -/

/-- `(2 - 5) * -3 / 2` -/
def sampleQuotient : Expression :=
  .binary .div (.binary .mul (.binary .sub (.literal 2) (.literal 5)) (.signed .minus (.literal 3)))
    (.literal 2)

/-- `(-9223372036854775807 - 1) / -1`, the quotient that does not fit. -/
def largestQuotient : Expression :=
  .binary .div (.binary .sub (.signed .minus (.literal 9223372036854775807)) (.literal 1))
    (.signed .minus (.literal 1))

/-- A space is a blank. -/
theorem blanks_space : ∀ c ∈ [' '], isBlank c = true :=
  List.forall_mem_singleton.mpr (by decide)

/-- A way to write the sample quotient, with blanks in some places. -/
theorem writes_sampleQuotient : Token.Writes sampleQuotient.tokens "(2 - 5)*-3 /2".toList :=
  .cons [] nofun .leftParen <|
  .cons [] nofun (.ofNat 2) <|
  .cons [' '] blanks_space .minus <|
  .cons [' '] blanks_space (.ofNat 5) <|
  .cons [] nofun .rightParen <|
  .cons [] nofun .star <|
  .cons [] nofun .minus <|
  .cons [] nofun (.ofNat 3) <|
  .cons [' '] blanks_space .slash <|
  .cons [] nofun (.ofNat 2) <|
  .nil [] nofun

/-- A way to write the quotient that is out of range. -/
theorem writes_largestQuotient :
    Token.Writes largestQuotient.tokens "(-9223372036854775807 - 1) / -1".toList :=
  .cons [] nofun .leftParen <|
  .cons [] nofun .minus <|
  .cons [] nofun (.ofNat 9223372036854775807) <|
  .cons [' '] blanks_space .minus <|
  .cons [' '] blanks_space (.ofNat 1) <|
  .cons [] nofun .rightParen <|
  .cons [' '] blanks_space .slash <|
  .cons [' '] blanks_space .minus <|
  .cons [] nofun (.ofNat 1) <|
  .nil [] nofun

/-- The first of the two expressions folds to its exact value, the second has none. -/
theorem valueOf_samples :
    valueOf "(2 - 5)*-3 /2".toList = .ok (.int 4) ∧
      ∃ reason, valueOf "(-9223372036854775807 - 1) / -1".toList =
        .error ⟨"(-9223372036854775807 - 1) / -1".toList, reason⟩ := by
  constructor
  · exact ((valueOf_eq_ok_iff_exact _ writes_sampleQuotient).1 _).mpr ⟨rfl, by decide⟩
  · exact (valueOf_eq_ok_iff_exact _ writes_largestQuotient).2 (by decide)

end Expression

end ExplicitInstantiation
