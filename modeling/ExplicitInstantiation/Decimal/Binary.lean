/-!
# Floating-point numbers as integers times powers of two

A finite double is a whole number times a power of two, and this module reads both off its bits.
All printing of reals works on that exact form.
-/

namespace ExplicitInstantiation

/-- The magnitude of a finite double, `mantissa * 2 ^ exponent`. -/
structure Binary where
  /-- A natural number below `2 ^ 53`. -/
  mantissa : Nat
  /-- The power of two it is multiplied by. -/
  exponent : Int
  deriving Repr, DecidableEq

namespace Binary

/-- The magnitude with the given exponent and fraction fields. -/
def ofFields (exponentField fraction : Nat) : Binary :=
  if exponentField = 0 then ⟨fraction, -1074⟩
  else ⟨Nat.pow 2 52 + fraction, (exponentField : Int) - 1075⟩

/-- The magnitude of a double, unless it is infinite or not a number. -/
def ofFloat? (x : Float) : Option Binary :=
  let bits := x.toBits.toNat
  let exponentField := bits / Nat.pow 2 52 % Nat.pow 2 11
  if exponentField = Nat.pow 2 11 - 1 then none
  else some (ofFields exponentField (bits % Nat.pow 2 52))

/-- Whether the sign bit of a double is set. -/
def signBit (x : Float) : Bool :=
  x.toBits.toNat / Nat.pow 2 63 = 1

/-- The value as a natural number, when it is one. -/
def toNat? (x : Binary) : Option Nat :=
  match x.exponent with
  | .ofNat e => some (x.mantissa * Nat.pow 2 e)
  | .negSucc e =>
    if x.mantissa % Nat.pow 2 (e + 1) = 0 then some (x.mantissa / Nat.pow 2 (e + 1)) else none

end Binary

end ExplicitInstantiation
