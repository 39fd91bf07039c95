import ExplicitInstantiation.Proofs.Arithmetic.Grammar

/-!
# Evaluation follows the grammar

The readers go by binding powers and build no trees. Here they are compared with the parse trees of
the grammar, in both directions.

* **Every tree is read** (`expressionOf_tokens`): over the tokens of a tree that has a value, a
  reader comes to that value. By induction on the tree.
* **Whatever is read is a tree** (`startsWith_of_expressionOf`): by induction on the number of
  tokens, along the recursion of the readers.

Both rest on the same condition on what stands behind a tree of the nonterminal `k`: no operator
that binds more tightly than those of `k`. It holds wherever the loop over operators is entered,
since the right operand has taken in all operators that bind more tightly than the one before it.

`evaluateTokens_parse_tree` puts the two together with the unambiguity of the grammar.
-/

namespace ExplicitInstantiation

/-! ### The readers without their bounds -/

/-- What was read, without the bound on what is left. -/
def ReadBelow.forget {bound : Nat} (read : ReadBelow bound) : Number × List Token :=
  (read.1, read.2.1)

/-- An operand and the tokens that follow it. -/
def operandOf (tokens : List Token) : Except Reason (Number × List Token) :=
  (readOperand tokens).map ReadBelow.forget

/-- An expression and the tokens that follow it. -/
def expressionOf (power : Nat) (tokens : List Token) : Except Reason (Number × List Token) :=
  (readExpression power tokens).map ReadBelow.forget

/-- What the operators behind `left` make of it, and the tokens that follow them. -/
def operatorsOf (power : Nat) (left : Number) (tokens : List Token) :
    Except Reason (Number × List Token) :=
  (readOperators power left tokens).map ReadBelow.forget

/-- A number is read as an operand of its own. -/
theorem operandOf_number (value : Number) (rest : List Token) :
    operandOf (.number value :: rest) = .ok (value, rest) := by
  unfold operandOf
  rw [readOperand]
  rfl

/-- Behind a sign, only what binds more tightly than any operator is read. -/
theorem operandOf_sign (sign : Sign) (rest : List Token) :
    operandOf (sign.operator.token :: rest) =
      expressionOf signPower rest >>= fun read => (sign.apply read.1).map (·, read.2) := by
  unfold operandOf expressionOf
  cases sign with
  | plus =>
    rw [Sign.operator, Operator.token, readOperand]
    rcases readExpression signPower rest with reason | ⟨value, after, _⟩ <;> rfl
  | minus =>
    rw [Sign.operator, Operator.token, readOperand]
    rcases readExpression signPower rest with reason | ⟨value, after, _⟩
    · rfl
    · show Except.map _ (value.negate >>= _) = value.negate.map _
      cases value.negate <;> rfl

/-- Behind an opening parenthesis, any expression is read, and then the closing one. -/
theorem operandOf_leftParen (rest : List Token) :
    operandOf (.leftParen :: rest) =
      expressionOf 0 rest >>= fun read =>
        match read.2 with
        | .rightParen :: after => .ok (read.1, after)
        | _ => .error .missingParenthesis := by
  unfold operandOf expressionOf
  rw [readOperand]
  rcases readExpression 0 rest with reason | ⟨value, after, shorter⟩
  · rfl
  · rcases after with _ | ⟨token, after⟩
    · rfl
    · cases token <;> rfl

/-- The three ways in which an operand is read. -/
theorem operandOf_cases {tokens : List Token} {value : Number} {rest : List Token}
    (h : operandOf tokens = .ok (value, rest)) :
    tokens = .number value :: rest ∨
      (∃ (sign : Sign) (inner : Number) (tokens' : List Token),
        tokens = sign.operator.token :: tokens' ∧
          expressionOf signPower tokens' = .ok (inner, rest) ∧ sign.apply inner = .ok value) ∨
      ∃ tokens', tokens = .leftParen :: tokens' ∧
        expressionOf 0 tokens' = .ok (value, .rightParen :: rest) := by
  have hsign : ∀ (sign : Sign) (tokens' : List Token), tokens = sign.operator.token :: tokens' →
      ∃ inner, expressionOf signPower tokens' = .ok (inner, rest) ∧
        sign.apply inner = .ok value := by
    intro sign tokens' htokens
    rw [htokens, operandOf_sign] at h
    obtain ⟨⟨inner, after⟩, hinner, h⟩ := bind_eq_ok.mp h
    obtain ⟨result, happly, heq⟩ := map_eq_ok.mp h
    cases heq
    exact ⟨inner, hinner, happly⟩
  rcases tokens with _ | ⟨token, tokens⟩
  · simp [operandOf, readOperand, Except.map] at h
  cases token with
  | number x =>
    rw [operandOf_number] at h
    cases h
    exact .inl rfl
  | plus =>
    obtain ⟨inner, hinner, happly⟩ := hsign .plus tokens rfl
    exact .inr (.inl ⟨.plus, inner, tokens, rfl, hinner, happly⟩)
  | minus =>
    obtain ⟨inner, hinner, happly⟩ := hsign .minus tokens rfl
    exact .inr (.inl ⟨.minus, inner, tokens, rfl, hinner, happly⟩)
  | leftParen =>
    rw [operandOf_leftParen] at h
    obtain ⟨⟨inner, after⟩, hinner, h⟩ := bind_eq_ok.mp h
    split at h
    · rename_i after' heq
      cases h
      cases heq
      exact .inr (.inr ⟨tokens, rfl, hinner⟩)
    · cases h
  | star => simp [operandOf, readOperand, Except.map] at h
  | slash => simp [operandOf, readOperand, Except.map] at h
  | rightParen => simp [operandOf, readOperand, Except.map] at h

/-- An expression is an operand and the operators behind it. -/
theorem expressionOf_eq (power : Nat) (tokens : List Token) :
    expressionOf power tokens =
      operandOf tokens >>= fun read => operatorsOf power read.1 read.2 := by
  unfold operandOf expressionOf operatorsOf
  rw [readExpression]
  rcases readOperand tokens with reason | ⟨value, rest, _⟩
  · rfl
  · show Except.map _ (readOperators power value rest >>= _) =
      (readOperators power value rest).map _
    rcases readOperators power value rest with reason | ⟨value, after, _⟩ <;> rfl

/-- The loop over operators ends where they stop. -/
theorem operatorsOf_of_stops {power : Nat} {tokens : List Token} (h : Stops power tokens)
    (left : Number) : operatorsOf power left tokens = .ok (left, tokens) := by
  unfold operatorsOf
  cases tokens with
  | nil =>
    rw [readOperators]
    rfl
  | cons token rest =>
    rw [readOperators]
    rcases hop : Operator.ofToken? token with _ | op
    · rfl
    · have hlt : op.leftPower < power := h op rest (by rw [Operator.eq_token_of_ofToken? hop])
      simp only [if_pos hlt]
      rfl

/-- One round of the loop: the right operand is read, the operator applied, and the loop goes on
with the result as its left operand. -/
theorem operatorsOf_operator {power : Nat} {op : Operator} (hle : power ≤ op.leftPower)
    (left : Number) (rest : List Token) :
    operatorsOf power left (op.token :: rest) =
      expressionOf op.rightPower rest >>= fun read =>
        op.apply left read.1 >>= fun value => operatorsOf power value read.2 := by
  unfold operatorsOf expressionOf
  rw [readOperators, Operator.ofToken?_token]
  simp only [if_neg (Nat.not_lt.mpr hle)]
  rcases readExpression op.rightPower rest with reason | ⟨right, after, _⟩
  · rfl
  · show Except.map _ (op.apply left right >>= _) = (op.apply left right >>= _)
    rcases op.apply left right with reason | value
    · rfl
    · show Except.map _ (readOperators power value after >>= _) =
        (readOperators power value after).map _
      rcases readOperators power value after with reason | ⟨value, after, _⟩ <;> rfl

/-- A value is that of an expression with nothing behind it. -/
theorem evaluateTokens_eq_ok {tokens : List Token} {value : Number} :
    evaluateTokens tokens = .ok value ↔ expressionOf 0 tokens = .ok (value, []) := by
  unfold evaluateTokens expressionOf
  rcases readExpression 0 tokens with reason | ⟨result, rest, _⟩
  · constructor <;> intro h <;> cases h
  · cases rest with
    | nil => constructor <;> intro h <;> cases h <;> rfl
    | cons token rest => constructor <;> intro h <;> cases h

/-! ### Every tree is read -/

/-- Reading an operation of the nonterminal `k` with a right operand of the nonterminal `j`, when
the operands are read. -/
theorem expressionOf_binary {k j : Level} {op : Operator} (hop : op.leftPower = k.power)
    (hlt : k.power < j.power) {power : Nat} {left right rest : List Token} {a b value : Number}
    (hleft : ∀ {after : List Token}, Stops (k.power + 1) after →
      expressionOf power (left ++ after) = operatorsOf power a after)
    (hright : ∀ {power : Nat}, power ≤ j.power → Stops (j.power + 1) rest →
      expressionOf power (right ++ rest) = operatorsOf power b rest)
    (hpower : power ≤ k.power) (hrest : Stops (k.power + 1) rest)
    (happly : op.apply a b = .ok value) :
    expressionOf power (left ++ op.token :: right ++ rest) = operatorsOf power value rest := by
  have hle : power ≤ op.leftPower := by
    rw [hop]
    exact hpower
  have hnext : Stops (k.power + 1) (op.token :: (right ++ rest)) := by
    rw [stops_operator, hop]
    exact Nat.lt_succ_self _
  have hoperand : expressionOf op.rightPower (right ++ rest) = .ok (b, rest) := by
    rw [Operator.rightPower, hop, hright hlt (hrest.mono (by omega)), operatorsOf_of_stops hrest]
  rw [List.append_assoc, List.cons_append, hleft hnext, operatorsOf_operator hle, hoperand]
  show (op.apply a b >>= _) = _
  rw [happly]
  rfl

/-- A reader that goes over a tree has its value and is left with the operators behind it. Behind a
sum there must be none that would have bound its last product first. -/
theorem expressionOf_tokens {k : Level} (t : Tree k) :
    ∀ {value : Number} {power : Nat} {rest : List Token}, t.value = .ok value →
      power ≤ k.power → Stops (k.power + 1) rest →
      expressionOf power (t.tokens ++ rest) = operatorsOf power value rest := by
  induction t with
  | sum left sign right ihl ihr =>
    intro value power rest h hpower hrest
    obtain ⟨a, ha, h⟩ := bind_eq_ok.mp h
    obtain ⟨b, hb, happly⟩ := bind_eq_ok.mp h
    exact expressionOf_binary sign.leftPower_operator (by decide) (ihl ha hpower) (ihr hb) hpower
      hrest happly
  | term inner ih =>
    intro value power rest h hpower hrest
    exact ih h (Nat.le_trans hpower (by decide)) (stops_of_three_lt (by decide) rest)
  | product left scale right ihl ihr =>
    intro value power rest h hpower hrest
    obtain ⟨a, ha, h⟩ := bind_eq_ok.mp h
    obtain ⟨b, hb, happly⟩ := bind_eq_ok.mp h
    exact expressionOf_binary scale.leftPower_operator (by decide) (ihl ha hpower) (ihr hb) hpower
      hrest happly
  | factor inner ih =>
    intro value power rest h hpower hrest
    exact ih h (Nat.le_trans hpower (by decide)) (stops_of_three_lt (by decide) rest)
  | signed sign operand ih =>
    intro value power rest h hpower hrest
    obtain ⟨a, ha, happly⟩ := bind_eq_ok.mp h
    have hoperand : expressionOf signPower (operand.tokens ++ rest) = .ok (a, rest) := by
      rw [ih ha (Nat.le_refl signPower) hrest, operatorsOf_of_stops]
      exact stops_of_three_lt (by decide) rest
    rw [Tree.tokens, List.cons_append, expressionOf_eq, operandOf_sign, hoperand]
    show ((sign.apply a).map _ >>= _) = _
    rw [happly]
    rfl
  | number x =>
    intro value power rest h hpower hrest
    cases h
    rw [Tree.tokens, List.singleton_append, expressionOf_eq, operandOf_number]
    rfl
  | parens inner ih =>
    intro value power rest h hpower hrest
    have hinner : expressionOf 0 (inner.tokens ++ .rightParen :: rest) =
        .ok (value, .rightParen :: rest) := by
      rw [ih h (Nat.zero_le _) (stops_rightParen _ rest), operatorsOf_of_stops]
      exact stops_rightParen 0 rest
    rw [Tree.tokens, List.cons_append, List.append_assoc, List.singleton_append, expressionOf_eq,
      operandOf_leftParen, hinner]
    rfl

/-! ### Whatever is read is a tree -/

/-- The nonterminal that a reader with a given power reads. -/
def Level.ofPower (power : Nat) : Level :=
  if power ≤ 1 then .sum else if power ≤ 3 then .product else .factor

/-- The nonterminal for the power of an operator has that power. -/
@[simp] theorem Level.power_ofPower (op : Operator) :
    (Level.ofPower op.leftPower).power = op.leftPower := by
  cases op <;> rfl

namespace Tree

variable {k : Level}

/-- A tree whose operators bind tightly enough is, up to unit productions, a tree that the reader
with the given power reads. -/
theorem exists_ofPower {power : Nat} (t : Tree k) (h : power ≤ k.power) :
    ∃ u : Tree (.ofPower power), u.tokens = t.tokens ∧ u.value = t.value := by
  by_cases hsum : power ≤ 1
  · have hlevel : Level.ofPower power = .sum := if_pos hsum
    rw [hlevel]
    cases k with
    | sum => exact ⟨t, rfl, rfl⟩
    | product => exact ⟨term t, rfl, rfl⟩
    | factor => exact ⟨term (factor t), rfl, rfl⟩
  · by_cases hproduct : power ≤ 3
    · have hlevel : Level.ofPower power = .product := (if_neg hsum).trans (if_pos hproduct)
      rw [hlevel]
      cases k with
      | sum => exact absurd h hsum
      | product => exact ⟨t, rfl, rfl⟩
      | factor => exact ⟨factor t, rfl, rfl⟩
    · have hlevel : Level.ofPower power = .factor := (if_neg hsum).trans (if_neg hproduct)
      rw [hlevel]
      cases k with
      | sum => exact absurd h hsum
      | product => exact absurd h hproduct
      | factor => exact ⟨t, rfl, rfl⟩

/-- Two trees with an operator between them make a tree of the nonterminal of the operator. -/
theorem exists_binary (left : Tree k) {op : Operator} (h : op.leftPower ≤ k.power)
    (right : Tree (.ofPower op.rightPower)) :
    ∃ u : Tree (.ofPower op.leftPower), u.tokens = left.tokens ++ op.token :: right.tokens ∧
      u.value = left.value >>= fun a => right.value >>= op.apply a := by
  obtain ⟨left', htokens, hvalue⟩ := left.exists_ofPower h
  rw [← htokens, ← hvalue]
  cases op with
  | add => exact ⟨sum left' .plus right, rfl, rfl⟩
  | sub => exact ⟨sum left' .minus right, rfl, rfl⟩
  | mul => exact ⟨product left' .multiply right, rfl, rfl⟩
  | div => exact ⟨product left' .divide right, rfl, rfl⟩

end Tree

/-- Whether tokens start with a tree of a nonterminal that has the given value, and go on with
`rest`. -/
def StartsWith (k : Level) (tokens : List Token) (value : Number) (rest : List Token) : Prop :=
  ∃ t : Tree k, t.tokens ++ rest = tokens ∧ t.value = .ok value

mutual

/-- What is read as an operand is a factor. -/
theorem startsWith_of_operandOf (tokens : List Token) {value : Number} {rest : List Token}
    (h : operandOf tokens = .ok (value, rest)) : StartsWith .factor tokens value rest := by
  rcases operandOf_cases h with rfl | ⟨sign, inner, tokens, rfl, hinner, happly⟩ |
    ⟨tokens, rfl, hinner⟩
  · exact ⟨.number value, rfl, rfl⟩
  · obtain ⟨t, rfl, ht⟩ : StartsWith .factor tokens inner rest :=
      (startsWith_of_expressionOf tokens (Nat.le_refl _) hinner).1
    refine ⟨.signed sign t, rfl, ?_⟩
    rw [Tree.value, ht]
    exact happly
  · obtain ⟨t, rfl, ht⟩ : StartsWith .sum tokens value (.rightParen :: rest) :=
      (startsWith_of_expressionOf tokens (Nat.zero_le _) hinner).1
    exact ⟨.parens t, by simp [Tree.tokens], ht⟩
termination_by (tokens.length, 0)

/-- What is read as an expression is a tree of the nonterminal for the power. -/
theorem startsWith_of_expressionOf (tokens : List Token) {power : Nat} (hpower : power ≤ signPower)
    {value : Number} {rest : List Token} (h : expressionOf power tokens = .ok (value, rest)) :
    StartsWith (.ofPower power) tokens value rest ∧ Stops power rest := by
  rw [expressionOf_eq] at h
  obtain ⟨⟨first, after⟩, hfirst, hafter⟩ := bind_eq_ok.mp h
  obtain ⟨t, htokens, ht⟩ := startsWith_of_operandOf tokens hfirst
  have hshorter : after.length < tokens.length := by
    have hlength : 0 < t.tokens.length := List.length_pos_iff.mpr t.tokens_ne_nil
    rw [← htokens, List.length_append]
    omega
  rw [← htokens]
  exact startsWith_of_operatorsOf t after ht hpower (stops_of_three_lt (by decide) after) hafter
termination_by (tokens.length, 1)

/-- What operators make of a tree is a tree of the nonterminal for the power. -/
theorem startsWith_of_operatorsOf {k : Level} (t : Tree k) (tokens : List Token) {power : Nat}
    {left : Number} (ht : t.value = .ok left) (hpower : power ≤ k.power)
    (hstops : Stops (k.power + 1) tokens) {value : Number} {rest : List Token}
    (h : operatorsOf power left tokens = .ok (value, rest)) :
    StartsWith (.ofPower power) (t.tokens ++ tokens) value rest ∧ Stops power rest := by
  rcases stops_or_operator power tokens with hstop | ⟨op, tokens, rfl, hop⟩
  · rw [operatorsOf_of_stops hstop] at h
    cases h
    obtain ⟨u, htokens, hvalue⟩ := t.exists_ofPower hpower
    exact ⟨⟨u, by rw [htokens], by rw [hvalue, ht]⟩, hstop⟩
  · rw [operatorsOf_operator hop] at h
    obtain ⟨⟨right, after⟩, hright, hrest⟩ := bind_eq_ok.mp h
    obtain ⟨result, happly, hloop⟩ := bind_eq_ok.mp hrest
    have hsign : op.rightPower ≤ signPower := by cases op <;> decide
    obtain ⟨⟨u, rfl, hu⟩, hafter⟩ := startsWith_of_expressionOf tokens hsign hright
    have hk : op.leftPower ≤ k.power := Nat.le_of_lt_succ (stops_operator.mp hstops)
    obtain ⟨node, hnode, hvalue⟩ := t.exists_binary hk u
    have hresult : node.value = .ok result := by
      rw [hvalue, ht, hu]
      exact happly
    have hread := startsWith_of_operatorsOf node after hresult
      (by rw [Level.power_ofPower]; exact hop) (by rw [Level.power_ofPower]; exact hafter) hloop
    rw [hnode] at hread
    simpa using hread
termination_by (tokens.length, 0)

end

/-! ### Values of whole expressions -/

/-- **Evaluation follows the grammar.** There is at most one parse tree of any tokens; they have a
value exactly when they have a parse tree with that value; and the value is an integer exactly when
all numbers among the tokens are integers. -/
theorem evaluateTokens_parse_tree (tokens : List Token) (value : Number) :
    (∀ t u : Tree .sum, t.tokens = tokens → u.tokens = tokens → t = u) ∧
      (evaluateTokens tokens = .ok value ↔
        ∃ t : Tree .sum, t.tokens = tokens ∧ t.value = .ok value) ∧
      (evaluateTokens tokens = .ok value →
        (value.IsInt ↔ ∀ number, .number number ∈ tokens → number.IsInt)) := by
  have hsound : evaluateTokens tokens = .ok value →
      ∃ t : Tree .sum, t.tokens = tokens ∧ t.value = .ok value := by
    intro h
    obtain ⟨t, htokens, ht⟩ : StartsWith .sum tokens value [] :=
      (startsWith_of_expressionOf tokens (Nat.zero_le _) (evaluateTokens_eq_ok.mp h)).1
    exact ⟨t, by simpa using htokens, ht⟩
  refine ⟨?_, ⟨hsound, ?_⟩, ?_⟩
  · intro t u ht hu
    exact Tree.eq_of_tokens_eq (ht.trans hu.symm)
  · rintro ⟨t, rfl, ht⟩
    have hread := expressionOf_tokens t ht (Nat.zero_le _) (stops_nil _)
    rw [List.append_nil, operatorsOf_of_stops (stops_nil 0)] at hread
    exact evaluateTokens_eq_ok.mpr hread
  · intro h
    obtain ⟨t, rfl, ht⟩ := hsound h
    exact t.isInt_of_value ht

/-- `2 - (1 + 2) * -3` is evaluated along its parse tree. -/
theorem evaluateTokens_parse_tree_sample :
    evaluateTokens [.number (.int 2), .minus, .leftParen, .number (.int 1), .plus,
      .number (.int 2), .rightParen, .star, .minus, .number (.int 3)] = .ok (.int 11) := by
  obtain ⟨-, hvalue, -⟩ := evaluateTokens_parse_tree _ _
  refine hvalue.mpr ⟨?_, ?_, ?_⟩
  · exact .sum (.term (.factor (.number (.int 2)))) .minus
      (.product (.factor (.parens (.sum (.term (.factor (.number (.int 1)))) .plus
        (.factor (.number (.int 2)))))) .multiply (.signed .minus (.number (.int 3))))
  · rfl
  · rfl

end ExplicitInstantiation
