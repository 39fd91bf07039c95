/-!
# Character classes given by ranges

A class of characters that a standard defines by enumeration is kept as a list of ranges of code
points. The modules that hold such a list are named for the property, and this one holds what
they share.
-/

namespace ExplicitInstantiation

/-- Ranges of code points, both ends included, in increasing order. -/
abbrev CharRanges := List (Nat × Nat)

namespace CharRanges

/-- Whether the code point of `c` lies in one of the ranges. -/
def contains (ranges : CharRanges) (c : Char) : Bool :=
  ranges.any fun range => range.1 ≤ c.toNat && c.toNat ≤ range.2

/-- A character is contained if it lies in one of the ranges. -/
theorem contains_iff {ranges : CharRanges} {c : Char} :
    ranges.contains c = true ↔ ∃ range ∈ ranges, range.1 ≤ c.toNat ∧ c.toNat ≤ range.2 := by
  simp [contains]

end CharRanges

end ExplicitInstantiation
