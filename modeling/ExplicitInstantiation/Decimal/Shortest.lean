import ExplicitInstantiation.Decimal.Binary

/-!
# The shortest decimal that reads back

Many decimals round to one double: all those in an interval around its value. Of the powers of ten
the largest is taken of which a multiple lies in that interval, so that no decimal with fewer
digits reads back as the double. Only the multiples next to the value can be in the interval when
any is, one below and one above; if both are, the nearer one is taken, and the larger one when the
value lies halfway between them.

Everything is compared exactly, as natural numbers.
-/

namespace ExplicitInstantiation

/-- The decimal `digits * 10 ^ exponent`. -/
structure Decimal where
  /-- The digits, as one natural number. -/
  digits : Nat
  /-- The power of ten they are multiplied by. -/
  exponent : Int
  deriving Repr, DecidableEq

namespace Binary

/-- The decimals that round to `x`, in units of a quarter of its last binary place: from `4 *
mantissa` down to this bound. Below a power of two the doubles lie twice as close. -/
def lowerBound (x : Binary) : Nat :=
  if x.mantissa = Nat.pow 2 52 ∧ x.exponent ≠ -1074 then 4 * x.mantissa - 1 else 4 * x.mantissa - 2

/-- The same, from `4 * mantissa` up to this bound. -/
def upperBound (x : Binary) : Nat :=
  4 * x.mantissa + 2

/-- The multiple of `10 ^ power` that stands for `x`, if one does. -/
def multiple? (x : Binary) (power : Int) : Option Nat :=
  let quarter := x.exponent - 2
  -- `c * 10 ^ power` and `b * 2 ^ quarter` compare as `c * unit` and `b * place`
  let unit := Nat.pow 10 power.toNat * Nat.pow 2 (-quarter).toNat
  let place := Nat.pow 2 quarter.toNat * Nat.pow 10 (-power).toNat
  let value := 4 * x.mantissa * place
  let low := x.lowerBound * place
  let high := x.upperBound * place
  let inside (c : Nat) : Bool :=
    if x.mantissa % 2 = 0 then low ≤ c * unit && c * unit ≤ high
    else low < c * unit && c * unit < high
  let below := value / unit
  if inside below then
    if inside (below + 1) && (below + 1) * unit - value ≤ value - below * unit then
      some (below + 1)
    else some below
  else if inside (below + 1) then some (below + 1)
  else none

/-- The powers of ten that are tried, from the largest on. The largest double is below `10 ^ 309`
and the smallest is above `10 ^ (-324)`. -/
def powers : List Int :=
  (List.range 660).map fun (i : Nat) => 309 - (i : Int)

/-- The shortest decimal that reads back as `x`. Zero is read back from no digits at all. -/
def shortest (x : Binary) : Decimal :=
  if x.mantissa = 0 then ⟨0, 0⟩
  else
    (powers.findSome? fun power => (x.multiple? power).map fun digits => ⟨digits, power⟩).getD
      ⟨0, 0⟩

end Binary

end ExplicitInstantiation
