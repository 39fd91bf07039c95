import ExplicitInstantiation.Decimal.Shortest
import ExplicitInstantiation.Text.Basic

/-!
# Writing and reading reals

A real is written in one of two layouts. As the value of an expression it is positional and never
has an exponent (`valueText`): whole numbers below `10 ^ 15` have one decimal place, other whole
numbers none. As a token of an expression it always has a decimal place or an exponent, and the
exponent is used from `10 ^ 16` on and below `10 ^ (-4)` (`tokenText`).

`readReal?` reads digits with an optional point and an optional exponent.
-/

namespace ExplicitInstantiation

namespace Decimal

/-- The number of digits. -/
def width (d : Decimal) : Nat := (Text.ofNat d.digits).length

/-- The power of ten of the first digit. -/
def leading (d : Decimal) : Int := d.exponent + d.width - 1

/-- The decimal without an exponent; a whole number has no decimal point. -/
def positional (d : Decimal) : Text :=
  let digits := Text.ofNat d.digits
  match d.exponent with
  | .ofNat e => digits ++ List.replicate e '0'
  | .negSucc e =>
    let places := e + 1
    if places < digits.length then
      digits.take (digits.length - places) ++ '.' :: digits.drop (digits.length - places)
    else '0' :: '.' :: List.replicate (places - digits.length) '0' ++ digits

/-- The decimal with one digit before the point and an exponent. -/
def scientific (d : Decimal) : Text :=
  let mantissa :=
    match Text.ofNat d.digits with
    | first :: second :: rest => first :: '.' :: second :: rest
    | digits => digits
  mantissa ++ 'e' :: Text.ofInt d.leading

end Decimal

/-- A text with a minus sign in front of it when `negative`. -/
def withSign (negative : Bool) (t : Text) : Text :=
  if negative then '-' :: t else t

/-- The text of a real that is no finite number. -/
def nonFiniteText (x : Float) : Text :=
  if x.isNaN then "NaN".toList else withSign (Binary.signBit x) "inf".toList

/-- A real as the value of an expression. -/
def valueText (x : Float) : Text :=
  match Binary.ofFloat? x with
  | none => nonFiniteText x
  | some magnitude =>
    withSign (Binary.signBit x) <|
      match magnitude.toNat? with
      | some n =>
        if n < Nat.pow 10 15 then Text.ofNat n ++ ['.', '0'] else magnitude.shortest.positional
      | none => magnitude.shortest.positional

/-- A real as a token of an expression. -/
def tokenText (x : Float) : Text :=
  match Binary.ofFloat? x with
  | none => nonFiniteText x
  | some magnitude =>
    let d := magnitude.shortest
    withSign (Binary.signBit x) <|
      if d.digits ≠ 0 ∧ (16 ≤ d.leading ∨ d.leading < -4) then d.scientific
      else if 0 ≤ d.exponent then d.positional ++ ['.', '0']
      else d.positional

/-! ### Reading -/

/-- The number that decimal digits stand for. -/
def digitsValue (digits : Text) : Nat :=
  digits.foldl (fun n c => 10 * n + (c.toNat - '0'.toNat)) 0

/-- The digits of a text that consists of them, unless it is empty. -/
def digits? (t : Text) : Option Nat :=
  if t.isEmpty || t.any (!·.isDigit) then none else some (digitsValue t)

/-- The exponent that follows an `e`. -/
def exponent? : Text → Option Int
  | '+' :: digits => (digits? digits).map Int.ofNat
  | '-' :: digits => (digits? digits).map fun n => -(n : Int)
  | digits => (digits? digits).map Int.ofNat

/-- The double nearest to `digits * 10 ^ exponent`, ties going to the even mantissa. -/
def nearestReal (digits : Nat) (exponent : Int) : Float :=
  let leading := (Text.ofNat digits).length + exponent
  if digits = 0 ∨ leading < -400 then Float.ofBits 0
  else if 400 < leading then Float.ofBits 0x7FF0000000000000
  else Float.ofScientific digits (exponent < 0) exponent.natAbs

/-- Reads a real: digits, an optional point among or around them, and an optional exponent. -/
def readReal? (t : Text) : Option Float := do
  let whole := t.takeWhile Char.isDigit
  let afterWhole := t.dropWhile Char.isDigit
  let (fraction, afterFraction) :=
    match afterWhole with
    | '.' :: rest => (rest.takeWhile Char.isDigit, rest.dropWhile Char.isDigit)
    | rest => ([], rest)
  let digits ← digits? (whole ++ fraction)
  let exponent ←
    match afterFraction with
    | [] => some 0
    | c :: rest => if c == 'e' || c == 'E' then exponent? rest else none
  return nearestReal digits (exponent - fraction.length)

end ExplicitInstantiation
