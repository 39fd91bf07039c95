import ExplicitInstantiation.Arithmetic.Evaluate
import ExplicitInstantiation.Proofs.Traversal

/-!
# The grammar of constant expressions

The sentences are those of the grammar

    E ::= E (+|-) T | T        T ::= T (*|/) U | U        U ::= (+|-) U | number | ( E )

A `Tree k` is a parse tree of the nonterminal `k`, with one constructor for each production, so
that there are no trees but those of the grammar. `Tree.tokens` is the sentence that a tree
derives and `Tree.value` its value, computed from the leaves up.

* **Unambiguity** (`Tree.eq_of_tokens_eq`): a tree is determined by its tokens, also when other
  tokens follow that cannot continue it. Both left-recursive nonterminals are treated alike: a tree
  of one of them is a first operand with a chain of operators and operands behind it, and a chain
  is determined by its tokens if its operands are (`Tree.determined_of_extend`).
* **Kind of the value** (`Tree.isInt_of_value`): the value of a tree is an integer exactly when all
  numbers in it are.
-/

namespace ExplicitInstantiation

/-! ### Operators and their tokens -/

/-- The token of an operator. -/
def Operator.token : Operator → Token
  | add => .plus
  | sub => .minus
  | mul => .star
  | div => .slash

/-- The operator of the token for an operator is that operator. -/
@[simp] theorem Operator.ofToken?_token (op : Operator) : ofToken? op.token = some op := by
  cases op <;> rfl

/-- Different operators have different tokens. -/
theorem Operator.token_injective {op op' : Operator} (h : op.token = op'.token) : op = op' := by
  have h' : ofToken? op.token = ofToken? op'.token := by rw [h]
  simpa using h'

/-- A token that stands for an operator is the token of that operator. -/
theorem Operator.eq_token_of_ofToken? {token : Token} {op : Operator}
    (h : ofToken? token = some op) : token = op.token := by
  cases token <;> simp [ofToken?] at h <;> subst h <;> rfl

/-- A sign, which stands before one operand or between two. -/
inductive Sign where
  | plus
  | minus
  deriving Repr, DecidableEq

/-- The operator that a sign is between two operands. -/
def Sign.operator : Sign → Operator
  | plus => .add
  | minus => .sub

/-- What a sign does to the operand behind it. -/
def Sign.apply : Sign → Number → Except Reason Number
  | plus, value => .ok value
  | minus, value => value.negate

/-- An operator that multiplies or divides. -/
inductive Scale where
  | multiply
  | divide
  deriving Repr, DecidableEq

/-- The scaling as one of the operators. -/
def Scale.operator : Scale → Operator
  | multiply => .mul
  | divide => .div

/-- Different signs are different operators. -/
theorem Sign.operator_injective : ∀ {sign sign' : Sign}, sign.operator = sign'.operator →
    sign = sign' := by
  intro sign sign' h
  cases sign <;> cases sign' <;> first | rfl | cases h

/-- Multiplication and division are different operators. -/
theorem Scale.operator_injective : ∀ {scale scale' : Scale}, scale.operator = scale'.operator →
    scale = scale' := by
  intro scale scale' h
  cases scale <;> cases scale' <;> first | rfl | cases h

/-! ### Parse trees -/

/-- The nonterminals of the grammar. -/
inductive Level where
  /-- `E`, a sum or difference of products. -/
  | sum
  /-- `T`, a product or quotient of factors. -/
  | product
  /-- `U`, a number, a signed factor or a sum in parentheses. -/
  | factor
  deriving Repr, DecidableEq

/-- How tightly the operators of a nonterminal bind to the left; a factor has only signs. -/
def Level.power : Level → Nat
  | sum => 1
  | product => 3
  | factor => signPower

/-- Signs between operands bind as a sum does. -/
theorem Sign.leftPower_operator (sign : Sign) : sign.operator.leftPower = Level.sum.power := by
  cases sign <;> rfl

/-- Multiplication and division bind as a product does. -/
theorem Scale.leftPower_operator (scale : Scale) :
    scale.operator.leftPower = Level.product.power := by
  cases scale <;> rfl

/-- A parse tree of a nonterminal. -/
inductive Tree : Level → Type where
  /-- `E ::= E (+|-) T` -/
  | sum (left : Tree .sum) (sign : Sign) (right : Tree .product) : Tree .sum
  /-- `E ::= T` -/
  | term (inner : Tree .product) : Tree .sum
  /-- `T ::= T (*|/) U` -/
  | product (left : Tree .product) (scale : Scale) (right : Tree .factor) : Tree .product
  /-- `T ::= U` -/
  | factor (inner : Tree .factor) : Tree .product
  /-- `U ::= (+|-) U` -/
  | signed (sign : Sign) (operand : Tree .factor) : Tree .factor
  /-- `U ::= number` -/
  | number (value : Number) : Tree .factor
  /-- `U ::= ( E )` -/
  | parens (inner : Tree .sum) : Tree .factor

namespace Tree

variable {k : Level}

/-- The sentence that a tree derives. -/
def tokens : {k : Level} → Tree k → List Token
  | _, sum left sign right => left.tokens ++ sign.operator.token :: right.tokens
  | _, term inner => inner.tokens
  | _, product left scale right => left.tokens ++ scale.operator.token :: right.tokens
  | _, factor inner => inner.tokens
  | _, signed sign operand => sign.operator.token :: operand.tokens
  | _, number value => [.number value]
  | _, parens inner => .leftParen :: (inner.tokens ++ [.rightParen])

/-- The value of a tree, from its leaves up. There is none if some subtree has none. -/
def value : {k : Level} → Tree k → Except Reason Number
  | _, sum left sign right => do sign.operator.apply (← left.value) (← right.value)
  | _, term inner => inner.value
  | _, product left scale right => do scale.operator.apply (← left.value) (← right.value)
  | _, factor inner => inner.value
  | _, signed sign operand => do sign.apply (← operand.value)
  | _, number value => .ok value
  | _, parens inner => inner.value

/-- No nonterminal derives the empty sentence. -/
theorem tokens_ne_nil (t : Tree k) : t.tokens ≠ [] := by
  induction t <;> simp_all [tokens]

end Tree

/-! ### Where a tree ends -/

/-- Whether no operator that binds at least as tightly to the left as `power` stands next. -/
def Stops (power : Nat) (tokens : List Token) : Prop :=
  ∀ (op : Operator) (rest : List Token), tokens = op.token :: rest → op.leftPower < power

/-- At the end no operator stands next. -/
@[simp] theorem stops_nil (power : Nat) : Stops power [] := by
  intro op rest h
  cases h

/-- An operator stands next, and it does not count if it binds less tightly. -/
@[simp] theorem stops_operator {power : Nat} {op : Operator} {rest : List Token} :
    Stops power (op.token :: rest) ↔ op.leftPower < power := by
  constructor
  · intro h
    exact h op rest rfl
  · intro h op' rest' heq
    obtain ⟨htoken, -⟩ := List.cons.inj heq
    rw [← Operator.token_injective htoken]
    exact h

/-- If no operator of a power stands next, then none of a higher power does. -/
theorem Stops.mono {power power' : Nat} {tokens : List Token} (h : Stops power tokens)
    (hle : power ≤ power') : Stops power' tokens := by
  intro op rest heq
  exact Nat.lt_of_lt_of_le (h op rest heq) hle

/-- No binary operator binds as tightly as a power above all of theirs. -/
theorem stops_of_three_lt {power : Nat} (h : 3 < power) (tokens : List Token) :
    Stops power tokens := by
  intro op rest _
  have hop : op.leftPower ≤ 3 := by cases op <;> decide
  omega

/-- A closing parenthesis stops every operator. -/
theorem stops_rightParen (power : Nat) (rest : List Token) : Stops power (.rightParen :: rest) := by
  intro op rest' heq
  cases op <;> cases heq

/-- Either the operators stop or one stands next that goes on. -/
theorem stops_or_operator (power : Nat) (tokens : List Token) :
    Stops power tokens ∨
      ∃ (op : Operator) (rest : List Token), tokens = op.token :: rest ∧ power ≤ op.leftPower := by
  by_cases h : Stops power tokens
  · exact .inl h
  · right
    simp only [Stops, Classical.not_forall, Nat.not_lt] at h
    obtain ⟨op, rest, heq, hle⟩ := h
    exact ⟨op, rest, heq, hle⟩

/-! ### Unambiguity -/

namespace Tree

variable {k : Level}

/-- A tree is determined by its tokens if whatever starts with them, and goes on with tokens that
cannot continue it, starts with no other tree of its nonterminal. -/
def Determined (t : Tree k) : Prop :=
  ∀ (u : Tree k) (rest rest' : List Token), t.tokens ++ rest = u.tokens ++ rest' →
    Stops k.power rest → Stops k.power rest' → t = u ∧ rest = rest'

section Chain

variable {ω : Type} (operator : ω → Operator) {inner outer : Level}

/-- The tokens of operators, each followed by an operand. -/
def chain (links : List (ω × Tree inner)) : List Token :=
  links.flatMap fun link => (operator link.1).token :: link.2.tokens

/-- No operators have no tokens. -/
@[simp] theorem chain_nil : chain operator ([] : List (ω × Tree inner)) = [] := rfl

/-- The tokens of the first operator and its operand stand before the others. -/
@[simp] theorem chain_cons (o : ω) (a : Tree inner) (links : List (ω × Tree inner)) :
    chain operator ((o, a) :: links) =
      (operator o).token :: (a.tokens ++ chain operator links) := by
  simp [chain]

variable {operator} {n : Nat}

/-- What follows an operand of a chain cannot continue the operand. -/
theorem stops_chain (hpower : ∀ o, (operator o).leftPower = outer.power)
    (hlt : outer.power < inner.power) (links : List (ω × Tree inner)) {rest : List Token}
    (hrest : Stops outer.power rest) : Stops inner.power (chain operator links ++ rest) := by
  cases links with
  | nil => exact hrest.mono (Nat.le_of_lt hlt)
  | cons link links =>
    obtain ⟨o, a⟩ := link
    rw [chain_cons, List.cons_append, stops_operator, hpower]
    exact hlt

/-- A first operand and the chain behind it are determined by their tokens if the operands are. -/
theorem chain_determined (hinj : ∀ {o o'}, operator o = operator o' → o = o')
    (hpower : ∀ o, (operator o).leftPower = outer.power) (hlt : outer.power < inner.power)
    (hoperands : ∀ a : Tree inner, a.tokens.length ≤ n → a.Determined) :
    ∀ (links links' : List (ω × Tree inner)) (a a' : Tree inner) (rest rest' : List Token),
      (a.tokens ++ chain operator links).length ≤ n →
      a.tokens ++ chain operator links ++ rest = a'.tokens ++ chain operator links' ++ rest' →
      Stops outer.power rest → Stops outer.power rest' →
      a = a' ∧ links = links' ∧ rest = rest' := by
  intro links
  induction links with
  | nil =>
    intro links' a a' rest rest' hn heq hrest hrest'
    rw [List.append_assoc, List.append_assoc] at heq
    obtain ⟨rfl, htail⟩ := hoperands a (by simpa using hn) a' _ _ heq
      (stops_chain hpower hlt [] hrest) (stops_chain hpower hlt links' hrest')
    cases links' with
    | nil => exact ⟨rfl, rfl, htail⟩
    | cons link' links' =>
      -- an operator of the other chain would have to stand first in `rest`
      obtain ⟨o', b'⟩ := link'
      rw [chain_nil, List.nil_append, chain_cons, List.cons_append] at htail
      rw [htail, stops_operator, hpower] at hrest
      exact absurd hrest (Nat.lt_irrefl _)
  | cons link links ih =>
    intro links' a a' rest rest' hn heq hrest hrest'
    obtain ⟨o, b⟩ := link
    rw [List.append_assoc, List.append_assoc] at heq
    have hlength : a.tokens.length + ((b.tokens ++ chain operator links).length + 1) ≤ n := by
      simpa using hn
    obtain ⟨rfl, htail⟩ := hoperands a (by omega) a' _ _ heq
      (stops_chain hpower hlt (⟨o, b⟩ :: links) hrest) (stops_chain hpower hlt links' hrest')
    cases links' with
    | nil =>
      rw [chain_nil, List.nil_append, chain_cons, List.cons_append] at htail
      rw [← htail, stops_operator, hpower] at hrest'
      exact absurd hrest' (Nat.lt_irrefl _)
    | cons link' links' =>
      obtain ⟨o', b'⟩ := link'
      rw [chain_cons, chain_cons, List.cons_append, List.cons_append] at htail
      obtain ⟨htoken, hlinks⟩ := List.cons.inj htail
      obtain rfl := hinj (Operator.token_injective htoken)
      obtain ⟨rfl, rfl, rfl⟩ := ih links' b b' rest rest' (by omega) hlinks hrest hrest'
      exact ⟨rfl, rfl, rfl⟩

variable (node : Tree outer → ω → Tree inner → Tree outer)

/-- A tree goes on with the links of a chain, each of which makes a node. -/
def extend (t : Tree outer) (links : List (ω × Tree inner)) : Tree outer :=
  links.foldl (fun t link => node t link.1 link.2) t

variable {node}

/-- The tokens of the links follow those of the tree. -/
theorem tokens_extend
    (hnode : ∀ t o a, (node t o a).tokens = t.tokens ++ (operator o).token :: a.tokens)
    (links : List (ω × Tree inner)) (t : Tree outer) :
    (extend node t links).tokens = t.tokens ++ chain operator links := by
  induction links generalizing t with
  | nil => simp [extend]
  | cons link links ih =>
    have hstep : extend node t (link :: links) = extend node (node t link.1 link.2) links := rfl
    rw [hstep, ih, hnode, chain_cons]
    simp

/-- A nonterminal all of whose trees are chains has determined trees if its operands are. -/
theorem determined_of_extend (leaf : Tree inner → Tree outer)
    (node : Tree outer → ω → Tree inner → Tree outer)
    (hinj : ∀ {o o'}, operator o = operator o' → o = o')
    (hpower : ∀ o, (operator o).leftPower = outer.power) (hlt : outer.power < inner.power)
    (hleaf : ∀ a, (leaf a).tokens = a.tokens)
    (hnode : ∀ t o a, (node t o a).tokens = t.tokens ++ (operator o).token :: a.tokens)
    (hextend : ∀ t : Tree outer, ∃ a links, t = extend node (leaf a) links)
    (hoperands : ∀ a : Tree inner, a.tokens.length ≤ n → a.Determined) (t : Tree outer)
    (hn : t.tokens.length ≤ n) : t.Determined := by
  intro u rest rest' heq hrest hrest'
  obtain ⟨a, links, rfl⟩ := hextend t
  obtain ⟨a', links', rfl⟩ := hextend u
  rw [tokens_extend hnode, hleaf] at hn
  rw [tokens_extend hnode, tokens_extend hnode, hleaf, hleaf] at heq
  obtain ⟨rfl, rfl, rfl⟩ := chain_determined hinj hpower hlt hoperands links links' a a' rest rest'
    hn heq hrest hrest'
  exact ⟨rfl, rfl⟩

end Chain

/-- Every sum is a first product with a chain of signs and products behind it. -/
theorem exists_eq_extend_sum : (t : Tree .sum) → ∃ a links, t = extend sum (term a) links
  | term inner => ⟨inner, [], rfl⟩
  | sum left sign right => by
    obtain ⟨a, links, rfl⟩ := exists_eq_extend_sum left
    exact ⟨a, links ++ [(sign, right)], by simp [extend]⟩

/-- Every product is a first factor with a chain of scalings and factors behind it. -/
theorem exists_eq_extend_product :
    (t : Tree .product) → ∃ a links, t = extend product (factor a) links
  | factor inner => ⟨inner, [], rfl⟩
  | product left scale right => by
    obtain ⟨a, links, rfl⟩ := exists_eq_extend_product left
    exact ⟨a, links ++ [(scale, right)], by simp [extend]⟩

/-- Sums are determined by their tokens if the factors in them are. -/
theorem determined_sum {n : Nat}
    (hfactors : ∀ a : Tree .factor, a.tokens.length ≤ n → a.Determined) (t : Tree .sum)
    (hn : t.tokens.length ≤ n) : t.Determined := by
  have hproducts : ∀ a : Tree .product, a.tokens.length ≤ n → a.Determined :=
    determined_of_extend factor product Scale.operator_injective Scale.leftPower_operator
      (by decide) (fun _ => rfl) (fun _ _ _ => rfl) exists_eq_extend_product hfactors
  exact determined_of_extend term sum Sign.operator_injective Sign.leftPower_operator
    (by decide) (fun _ => rfl) (fun _ _ _ => rfl) exists_eq_extend_sum hproducts t hn

/-- A factor is determined by its tokens. The induction is on their number, so that it reaches the
factors inside parentheses. -/
theorem determined_factor : (n : Nat) → ∀ t : Tree .factor, t.tokens.length ≤ n → t.Determined
  | 0, t, hn => absurd (List.eq_nil_of_length_eq_zero (Nat.le_zero.mp hn)) t.tokens_ne_nil
  | n + 1, t, hn => by
    intro u rest rest' heq hrest hrest'
    cases t with
    | number value =>
      cases u with
      | number value' => simpa [tokens] using heq
      | signed sign' operand' => cases sign' <;> cases heq
      | parens inner' => cases heq
    | signed sign operand =>
      cases u with
      | number value' => cases sign <;> cases heq
      | signed sign' operand' =>
        obtain ⟨htoken, htail⟩ := List.cons.inj heq
        obtain rfl := Sign.operator_injective (Operator.token_injective htoken)
        obtain ⟨rfl, rfl⟩ := determined_factor n operand (Nat.le_of_succ_le_succ hn) operand' rest
          rest' htail hrest hrest'
        exact ⟨rfl, rfl⟩
      | parens inner' => cases sign <;> cases heq
    | parens inner =>
      cases u with
      | number value' => cases heq
      | signed sign' operand' => cases sign' <;> cases heq
      | parens inner' =>
        have hinner : inner.tokens.length ≤ n := by
          simp only [tokens, List.length_cons, List.length_append, List.length_nil] at hn
          omega
        have htail : inner.tokens ++ .rightParen :: rest =
            inner'.tokens ++ .rightParen :: rest' := by
          simpa [tokens] using heq
        obtain ⟨rfl, hclose⟩ := determined_sum (determined_factor n) inner hinner inner' _ _ htail
          (stops_rightParen _ _) (stops_rightParen _ _)
        exact ⟨rfl, (List.cons.inj hclose).2⟩

/-- **The grammar is unambiguous.** -/
theorem eq_of_tokens_eq {t u : Tree .sum} (h : t.tokens = u.tokens) : t = u := by
  have hfactors : ∀ a : Tree .factor, a.tokens.length ≤ t.tokens.length → a.Determined :=
    determined_factor _
  have heq : t.tokens ++ [] = u.tokens ++ [] := by rw [h]
  exact (determined_sum hfactors t (Nat.le_refl _) u [] [] heq (stops_nil _) (stops_nil _)).1

end Tree

/-! ### Integers -/

/-- Whether a number is an integer. -/
def Number.IsInt : Number → Prop
  | int _ => True
  | real _ => False

/-- An operation gives an integer exactly when both operands are integers. -/
theorem Operator.isInt_of_apply {op : Operator} {a b value : Number}
    (h : op.apply a b = .ok value) : value.IsInt ↔ a.IsInt ∧ b.IsInt := by
  cases a <;> cases b <;> obtain ⟨_, -, rfl⟩ := map_eq_ok.mp h <;> simp [Number.IsInt]

/-- A sign does not change the kind of a number. -/
theorem Sign.isInt_of_apply {sign : Sign} {a value : Number} (h : sign.apply a = .ok value) :
    value.IsInt ↔ a.IsInt := by
  cases sign with
  | plus => cases h; rfl
  | minus =>
    cases a with
    | int n => obtain ⟨_, -, rfl⟩ := map_eq_ok.mp h; rfl
    | real x => cases h; rfl

/-- Operators are no numbers. -/
theorem Operator.token_ne_number (op : Operator) (number : Number) : op.token ≠ .number number := by
  cases op <;> simp [token]

namespace Tree

/-- The numbers of a node with two operands are those of the operands. -/
theorem forall_number_mem_binary {left right : List Token} {op : Operator} :
    (∀ number, .number number ∈ left ++ op.token :: right → number.IsInt) ↔
      (∀ number, .number number ∈ left → number.IsInt) ∧
        ∀ number, .number number ∈ right → number.IsInt := by
  have hop : ∀ number, Token.number number ≠ op.token := fun number =>
    (op.token_ne_number number).symm
  simp only [List.mem_append, List.mem_cons, hop, false_or, or_imp, forall_and]

/-- The value of a tree is an integer exactly when all numbers in the tree are integers. -/
theorem isInt_of_value {k : Level} (t : Tree k) : ∀ {value : Number}, t.value = .ok value →
    (value.IsInt ↔ ∀ number, .number number ∈ t.tokens → number.IsInt) := by
  induction t with
  | sum left sign right ihl ihr | product left scale right ihl ihr =>
    intro value h
    obtain ⟨a, ha, h⟩ := bind_eq_ok.mp h
    obtain ⟨b, hb, h⟩ := bind_eq_ok.mp h
    rw [Operator.isInt_of_apply h, ihl ha, ihr hb, tokens, forall_number_mem_binary]
  | term inner ih | factor inner ih => exact ih
  | signed sign operand ih =>
    intro value h
    obtain ⟨a, ha, h⟩ := bind_eq_ok.mp h
    rw [Sign.isInt_of_apply h, ih ha, tokens]
    simp [(sign.operator.token_ne_number _).symm]
  | number x =>
    intro value h
    cases h
    simp [tokens]
  | parens inner ih =>
    intro value h
    rw [ih h, tokens]
    simp

end Tree

end ExplicitInstantiation
