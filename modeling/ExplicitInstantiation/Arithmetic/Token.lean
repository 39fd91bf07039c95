import ExplicitInstantiation.Arithmetic.Number
import ExplicitInstantiation.Text.Blank

/-!
# Tokens of constant expressions

An expression consists of numbers, the four operators and parentheses, with blanks anywhere
between them. A number extends as far as letters, digits and points go; a sign belongs to it only
right after the `e` of an exponent, which a hexadecimal number does not have.
-/

namespace ExplicitInstantiation

/-- A token of an expression. -/
inductive Token where
  /-- A number. -/
  | number (value : Number)
  /-- `+` -/
  | plus
  /-- `-` -/
  | minus
  /-- `*` -/
  | star
  /-- `/` -/
  | slash
  /-- `(` -/
  | leftParen
  /-- `)` -/
  | rightParen
  deriving Repr

/-- Why an expression has no value. -/
inductive Reason where
  /-- A character that no expression contains. -/
  | unsupported (c : Char)
  /-- A number that cannot be read or is out of range. -/
  | invalidLiteral (literal : Text)
  /-- A divisor is zero. -/
  | divisionByZero
  /-- A result does not fit into 64 bits. -/
  | overflow
  /-- A real result is infinite or not a number. -/
  | notFinite
  /-- A parenthesis is not closed. -/
  | missingParenthesis
  /-- A token stands where it cannot. -/
  | unexpected (token : Token)
  /-- The expression ends where an operand should stand. -/
  | unexpectedEnd
  deriving Repr

namespace Token

/-- The token as it is shown in a message. -/
def toText : Token → Text
  | number value => "Number(".toList ++ value.tokenText ++ [')']
  | plus => "Plus".toList
  | minus => "Minus".toList
  | star => "Star".toList
  | slash => "Slash".toList
  | leftParen => "LeftParen".toList
  | rightParen => "RightParen".toList

/-- The token that is a single character. -/
def ofSymbol? : Char → Option Token
  | '+' => some plus
  | '-' => some minus
  | '*' => some star
  | '/' => some slash
  | '(' => some leftParen
  | ')' => some rightParen
  | _ => none

/-- Whether `c` starts a number. -/
def startsLiteral (c : Char) : Bool :=
  c.isDigit || c == '.'

/-- Whether `c` continues a number whose last character so far is `previous`. -/
def continuesLiteral (hexadecimal : Bool) (previous c : Char) : Bool :=
  c.isAlphanum || c == '.' ||
    ((c == '+' || c == '-') && (previous == 'e' || previous == 'E') && !hexadecimal)

/-- Cuts a text at the end of a number whose last character so far is `previous`. -/
def cutLiteral (hexadecimal : Bool) (previous : Char) : Text → Text × Text
  | [] => ([], [])
  | c :: rest =>
    if continuesLiteral hexadecimal previous c then
      let (literal, after) := cutLiteral hexadecimal c rest
      (c :: literal, after)
    else ([], c :: rest)

/-- The cut loses nothing. -/
theorem cutLiteral_append (hexadecimal : Bool) (previous : Char) (t : Text) :
    (cutLiteral hexadecimal previous t).1 ++ (cutLiteral hexadecimal previous t).2 = t := by
  induction t generalizing previous with
  | nil => rfl
  | cons c rest ih =>
    rw [cutLiteral]
    split
    · simpa using ih c
    · rfl

/-- Behind a literal no more is left than there was. -/
theorem length_cutLiteral_le (hexadecimal : Bool) (previous : Char) (t : Text) :
    (cutLiteral hexadecimal previous t).2.length ≤ t.length := by
  have := congrArg List.length (cutLiteral_append hexadecimal previous t)
  simp only [List.length_append] at this
  omega

/-- The tokens of an expression, or the first fault in it from the left. -/
def tokenize (t : Text) : Except Reason (List Token) :=
  match t with
  | [] => .ok []
  | c :: rest =>
    if isBlank c then tokenize rest
    else
      match ofSymbol? c with
      | some token => do
        let tokens ← tokenize rest
        return token :: tokens
      | none =>
        if startsLiteral c then
          let cut := cutLiteral (Number.isHexadecimal (c :: rest)) c rest
          match Number.ofLiteral? (c :: cut.1) with
          | none => .error (.invalidLiteral (c :: cut.1))
          | some value => do
            let tokens ← tokenize cut.2
            return .number value :: tokens
        else .error (.unsupported c)
termination_by t.length
decreasing_by
  · simp
  · simp
  · exact Nat.lt_succ_of_le (length_cutLiteral_le ..)

end Token

/-- The text of a reason. -/
def Reason.message : Reason → Text
  | unsupported c => "unsupported character '".toList ++ c :: "'".toList
  | invalidLiteral literal => "invalid numeric literal '".toList ++ literal ++ "'".toList
  | divisionByZero => "division by zero".toList
  | overflow => "integer overflow".toList
  | notFinite => "result is not a finite number".toList
  | missingParenthesis => "missing closing parenthesis".toList
  | unexpected token => "unexpected ".toList ++ token.toText
  | unexpectedEnd => "unexpected end of expression".toList

end ExplicitInstantiation
