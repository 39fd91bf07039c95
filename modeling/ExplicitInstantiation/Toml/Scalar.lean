import ExplicitInstantiation.Arithmetic.Number

/-!
# Scalars of a TOML document

A scalar that is not a string is a truth value, an integer of 64 bits, a real, or a date, a time or
both. Its value does not matter here, only whether it is one.
-/

namespace ExplicitInstantiation

namespace Toml

/-- The digits of a text of digits with single underscores between them. -/
def underscored? (isDigit : Char → Bool) (t : Text) : Option Text :=
  let groups := t.splitOn '_'
  if groups.all (fun group => !group.isEmpty && group.all isDigit) then some groups.flatten
  else none

/-- The text behind an optional sign, and whether the sign is a minus. -/
def cutSign : Text → Bool × Text
  | '-' :: t => (true, t)
  | '+' :: t => (false, t)
  | t => (false, t)

/-- The digits of a decimal integer without sign, which has no superfluous zero in front. -/
def wholeDigits? (t : Text) : Option Text := do
  let digits ← underscored? Char.isDigit t
  if 1 < digits.length ∧ digits.head? = some '0' then none else some digits

/-- Whether a text is a decimal integer in range. -/
def isDecimalInteger (t : Text) : Bool :=
  let (negative, body) := cutSign t
  match wholeDigits? body with
  | some digits =>
    Number.inRange (if negative then -(digitsValue digits : Int) else digitsValue digits)
  | none => false

/-- The value of digits in a base up to sixteen. -/
def valueInBase (base : Nat) (digits : Text) : Nat :=
  digits.foldl (fun n c => base * n + (Number.hexDigit? c).getD 0) 0

/-- Whether a text is an integer in range with one of the marks for a base. -/
def isBasedInteger : Text → Bool
  | '0' :: mark :: body =>
    let base := if mark = 'x' then 16 else if mark = 'o' then 8 else if mark = 'b' then 2 else 0
    match underscored? (fun c => (Number.hexDigit? c).any (· < base)) body with
    | some digits => Number.inRange (valueInBase base digits)
    | none => false
  | _ => false

/-- Whether a text is the exponent of a real, with or without sign. -/
def exponentDigits? (t : Text) : Option Text := do
  let (negative, body) := cutSign t
  let digits ← underscored? Char.isDigit body
  return if negative then '-' :: digits else digits

/-- The double nearest to a real without sign, with a point or an exponent. -/
def magnitude? (t : Text) : Option Float :=
  let isMark (c : Char) : Bool := c == 'e' || c == 'E'
  let mantissa := t.takeWhile (!isMark ·)
  let exponent? : Option Text :=
    match t.dropWhile (!isMark ·) with
    | [] => some []
    | _ :: digits => (exponentDigits? digits).map ('e' :: ·)
  let mantissa? : Option Text :=
    match mantissa.splitOn '.' with
    | [whole] => if t.any isMark then wholeDigits? whole else none
    | [whole, fraction] => do
      let whole ← wholeDigits? whole
      let fraction ← underscored? Char.isDigit fraction
      return whole ++ '.' :: fraction
    | _ => none
  match mantissa?, exponent? with
  | some mantissa, some exponent => readReal? (mantissa ++ exponent)
  | _, _ => none

/-- Whether a text is a real. A number too large for a double is one only if it is negative. -/
def isReal (t : Text) : Bool :=
  let (negative, body) := cutSign t
  body == "inf".toList || body == "nan".toList ||
    (magnitude? body).any fun x => negative || x.isFinite

/-! ### Dates and times -/

/-- The number that a text of exactly `width` digits stands for. -/
def fixedDigits? (width : Nat) (t : Text) : Option Nat :=
  if t.length = width then digits? t else none

/-- The number of days in a month. -/
def daysIn (year month : Nat) : Nat :=
  if month = 2 then
    if year % 4 = 0 ∧ (year % 100 ≠ 0 ∨ year % 400 = 0) then 29 else 28
  else if month = 4 ∨ month = 6 ∨ month = 9 ∨ month = 11 then 30
  else 31

/-- Whether a text is a date. -/
def isDate (t : Text) : Bool :=
  match (t.splitOn '-').zip [4, 2, 2] |>.mapM fun (part, width) => fixedDigits? width part with
  | some [year, month, day] =>
    (t.splitOn '-').length = 3 && 1 ≤ month && month ≤ 12 && 1 ≤ day && day ≤ daysIn year month
  | _ => false

/-- Whether a text is an hour and a minute. -/
def isHourMinute (t : Text) : Bool :=
  match t.splitOn ':' with
  | [hour, minute] => (fixedDigits? 2 hour).any (· ≤ 23) && (fixedDigits? 2 minute).any (· ≤ 59)
  | _ => false

/-- Whether a text is a time of day, possibly with a fraction of a second. -/
def isTime (t : Text) : Bool :=
  let seconds (t : Text) : Bool := (fixedDigits? 2 t).any (· ≤ 60)
  isHourMinute (t.take 5) && (t.drop 5).head? == some ':' &&
    match (t.drop 6).splitOn '.' with
    | [whole] => seconds whole
    | [whole, fraction] => seconds whole && (digits? fraction).isSome
    | _ => false

/-- Whether a text is a time of day with an optional offset from universal time. -/
def isOffsetTime (t : Text) : Bool :=
  isTime t ||
    (match t.getLast? with
      | some c => (c == 'Z' || c == 'z') && isTime t.dropLast
      | none => false) ||
    (let offset := t.drop (t.length - 6)
     (offset.head? == some '+' || offset.head? == some '-') && isHourMinute offset.tail &&
       isTime (t.take (t.length - 6)))

/-- Whether a text is a date with a time, with a `T` between them. -/
def isDateTime (t : Text) : Bool :=
  isDate (t.take 10) && ((t.drop 10).head? == some 'T' || (t.drop 10).head? == some 't') &&
    isOffsetTime (t.drop 11)

/-- Whether a text is a scalar other than a string. -/
def isScalar (t : Text) : Bool :=
  t == "true".toList || t == "false".toList || isDecimalInteger t || isBasedInteger t ||
    isReal t || isDate t || isTime t || isDateTime t

end Toml

end ExplicitInstantiation
