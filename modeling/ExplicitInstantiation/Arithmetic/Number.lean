import ExplicitInstantiation.Decimal.Layout

/-!
# Numbers of constant expressions

Integers are those of 64 bits with a sign: an operation whose exact result lies outside their
range fails, and none wraps around. Division of integers truncates towards zero. As soon as one
operand is a real, an operation is carried out on reals, and a result that is not finite is a
failure too.
-/

namespace ExplicitInstantiation

/-- A number: an integer or a real. -/
inductive Number where
  /-- An integer of 64 bits. -/
  | int (value : Int)
  /-- A double. -/
  | real (value : Float)
  deriving Repr

namespace Number

/-- The smallest integer. -/
def least : Int := -9223372036854775808

/-- The largest integer. -/
def greatest : Int := 9223372036854775807

/-- Whether an integer is in range. -/
def inRange (n : Int) : Bool := least ≤ n && n ≤ greatest

/-- The integers in range are those between the least and the greatest one. -/
@[simp] theorem inRange_iff {n : Int} : inRange n = true ↔ least ≤ n ∧ n ≤ greatest := by
  simp [inRange]

/-- The number as a real; an integer is rounded to the nearest double. -/
def toReal : Number → Float
  | int n => Float.ofInt n
  | real x => x

/-- The number as the value of an expression. -/
def toText : Number → Text
  | int n => Text.ofInt n
  | real x => valueText x

/-- The number as a token of an expression. -/
def tokenText : Number → Text
  | int n => "Int(".toList ++ Text.ofInt n ++ [')']
  | real x => "Real(".toList ++ ExplicitInstantiation.tokenText x ++ [')']

/-! ### Literals -/

/-- The value of a hexadecimal digit. -/
def hexDigit? (c : Char) : Option Nat :=
  if c.isDigit then some (c.toNat - '0'.toNat)
  else if 'a' ≤ c ∧ c ≤ 'f' then some (c.toNat - 'a'.toNat + 10)
  else if 'A' ≤ c ∧ c ≤ 'F' then some (c.toNat - 'A'.toNat + 10)
  else none

/-- The number that hexadecimal digits stand for, unless there are none. -/
def hexDigits? (digits : Text) : Option Nat :=
  if digits.isEmpty then none
  else digits.foldlM (fun n c => (hexDigit? c).map (16 * n + ·)) 0

/-- A natural number as an integer, if it is in range. -/
def ofNat? (n : Nat) : Option Number :=
  if inRange n then some (int n) else none

/-- Whether `c` is a suffix that marks an integer as unsigned or long. -/
def isIntegerSuffix (c : Char) : Bool :=
  c == 'u' || c == 'U' || c == 'l' || c == 'L'

/-- Whether `c` is a suffix that marks a real as single-precision. -/
def isRealSuffix (c : Char) : Bool :=
  c == 'f' || c == 'F'

/-- Whether a literal is hexadecimal. -/
def isHexadecimal : Text → Bool
  | '0' :: c :: _ => c == 'x' || c == 'X'
  | _ => false

/-- The value of a decimal literal, suffixes included. A suffix for reals, a point or an exponent
makes it a real. -/
def ofDecimalLiteral? (literal : Text) : Option Number :=
  let body := literal.dropEndWhile fun c => isIntegerSuffix c || isRealSuffix c
  if body = [] ∨ body = ['.'] then none
  else if literal.getLast?.any isRealSuffix || body.any (fun c => c == '.' || c == 'e' || c == 'E')
  then (readReal? body).map real
  else (digits? body).bind ofNat?

/-- The value of a literal. Suffixes are allowed and change nothing but the kind of number. -/
def ofLiteral? (literal : Text) : Option Number :=
  if isHexadecimal literal then
    (hexDigits? (Text.dropEndWhile isIntegerSuffix (literal.drop 2))).bind ofNat?
  else ofDecimalLiteral? literal

end Number

end ExplicitInstantiation
