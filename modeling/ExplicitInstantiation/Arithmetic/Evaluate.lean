import ExplicitInstantiation.Arithmetic.Token

/-!
# Values of constant expressions

An expression is evaluated while it is read. Each binary operator has two binding powers, one
towards each side; the right one is larger by one, which makes all operators associate to the left.
An operand takes in as many operators on its right as bind more tightly than what stands on its
left. A sign binds more tightly than any binary operator.

The readers return the tokens that they have left over together with the fact that there are fewer
of them than before, on which their recursion rests.
-/

namespace ExplicitInstantiation

/-- A binary operator. -/
inductive Operator where
  | add
  | sub
  | mul
  | div
  deriving Repr, DecidableEq

namespace Operator

/-- The operator that a token stands for between two operands. -/
def ofToken? : Token → Option Operator
  | .plus => some add
  | .minus => some sub
  | .star => some mul
  | .slash => some div
  | _ => none

/-- How tightly the operator binds the operand on its left. -/
def leftPower : Operator → Nat
  | add | sub => 1
  | mul | div => 3

/-- How tightly the operator binds the operand on its right. -/
def rightPower (op : Operator) : Nat :=
  op.leftPower + 1

/-- An exact result, if it is in range. -/
def checked (n : Int) : Except Reason Int :=
  if Number.inRange n then .ok n else .error .overflow

/-- The operation on integers. -/
def onInts (op : Operator) (a b : Int) : Except Reason Int :=
  match op with
  | add => checked (a + b)
  | sub => checked (a - b)
  | mul => checked (a * b)
  | div => if b = 0 then .error .divisionByZero else checked (a.tdiv b)

/-- A real result, if it is finite. -/
def finite (x : Float) : Except Reason Float :=
  if x.isFinite then .ok x else .error .notFinite

/-- The operation on reals. -/
def onReals (op : Operator) (a b : Float) : Except Reason Float :=
  match op with
  | add => finite (a + b)
  | sub => finite (a - b)
  | mul => finite (a * b)
  | div => if b == 0.0 then .error .divisionByZero else finite (a / b)

/-- The operation on numbers, on reals unless both are integers. -/
def apply (op : Operator) : Number → Number → Except Reason Number
  | .int a, .int b => (op.onInts a b).map .int
  | a, b => (op.onReals a.toReal b.toReal).map .real

end Operator

/-- The number with the opposite sign. -/
def Number.negate : Number → Except Reason Number
  | .int n => (Operator.checked (-n)).map .int
  | .real x => .ok (.real (-x))

/-- How tightly a sign binds its operand. -/
def signPower : Nat := 5

/-- A number, and the tokens that follow what it was read from. -/
abbrev ReadBelow (bound : Nat) := Number × { rest : List Token // rest.length < bound }

mutual

/-- Reads an operand: a number, a sign with its operand, or an expression in parentheses. -/
def readOperand (tokens : List Token) : Except Reason (ReadBelow tokens.length) :=
  match tokens with
  | [] => .error .unexpectedEnd
  | .number value :: rest => .ok (value, ⟨rest, by simp⟩)
  | .plus :: rest => do
    let (value, ⟨after, _⟩) ← readExpression signPower rest
    return (value, ⟨after, by simp; omega⟩)
  | .minus :: rest => do
    let (value, ⟨after, _⟩) ← readExpression signPower rest
    let value ← value.negate
    return (value, ⟨after, by simp; omega⟩)
  | .leftParen :: rest => do
    let (value, ⟨after, shorter⟩) ← readExpression 0 rest
    match after, shorter with
    | .rightParen :: after, shorter => return (value, ⟨after, by simp at *; omega⟩)
    | _, _ => .error .missingParenthesis
  | token :: _ => .error (.unexpected token)
termination_by (tokens.length, 0)

/-- Reads an expression of operators that bind at least as tightly to the left as `power`. -/
def readExpression (power : Nat) (tokens : List Token) :
    Except Reason (ReadBelow tokens.length) := do
  let (value, ⟨rest, _⟩) ← readOperand tokens
  let (value, ⟨after, _⟩) ← readOperators power value rest
  return (value, ⟨after, by omega⟩)
termination_by (tokens.length, 1)

/-- Reads the operators that follow the operand `left`, with their right operands. -/
def readOperators (power : Nat) (left : Number) (tokens : List Token) :
    Except Reason (ReadBelow (tokens.length + 1)) :=
  match tokens with
  | [] => .ok (left, ⟨[], by simp⟩)
  | token :: rest =>
    match Operator.ofToken? token with
    | none => .ok (left, ⟨token :: rest, by simp⟩)
    | some op =>
      if op.leftPower < power then .ok (left, ⟨token :: rest, by simp⟩)
      else do
        let (right, ⟨after, _⟩) ← readExpression op.rightPower rest
        let value ← op.apply left right
        let (value, ⟨after, _⟩) ← readOperators power value after
        return (value, ⟨after, by simp; omega⟩)
termination_by (tokens.length, 0)

end

/-- The value of an expression given by its tokens. -/
def evaluateTokens (tokens : List Token) : Except Reason Number := do
  let (value, ⟨rest, _⟩) ← readExpression 0 tokens
  match rest with
  | [] => return value
  | token :: _ => .error (.unexpected token)

/-- The value of an expression. -/
def evaluate (expression : Text) : Except Reason Number := do
  let tokens ← Token.tokenize expression
  evaluateTokens tokens

end ExplicitInstantiation
