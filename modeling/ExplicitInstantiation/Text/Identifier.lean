import ExplicitInstantiation.Text.Alphabetic
import ExplicitInstantiation.Text.Numeric
import ExplicitInstantiation.Text.Basic

/-!
# Identifier characters

A name stands as a whole word where no identifier character touches it. The identifier characters
are the alphabetic and the numeric characters and the underscore.
-/

namespace ExplicitInstantiation

/-- Whether `c` may be part of an identifier. -/
def isIdentifierChar (c : Char) : Bool :=
  c.isAlphanum || c == '_' ||
    (128 ≤ c.toNat && (alphabeticRanges.contains c || numericRanges.contains c))

end ExplicitInstantiation
