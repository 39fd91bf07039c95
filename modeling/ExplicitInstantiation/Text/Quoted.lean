import ExplicitInstantiation.Text.Basic
import ExplicitInstantiation.Text.Unprintable

/-!
# Quotations in messages

A message quotes a text between double quotation marks. A quotation mark and a backslash inside it
are preceded by a backslash; tabs, line breaks and the null character have their letters; and a
character that cannot be shown as itself stands by its code point in hexadecimal.
-/

namespace ExplicitInstantiation

namespace Text

/-- Whether a quotation shows `c` by its code point. -/
def isShownByNumber (c : Char) : Bool :=
  extendingMarkRanges.contains c || unprintableRanges.contains c || fillerRanges.contains c

/-- A character inside a quotation. -/
def quoteChar (c : Char) : Text :=
  if c = '"' || c = '\\' then ['\\', c]
  else if c = '\t' then ['\\', 't']
  else if c = '\r' then ['\\', 'r']
  else if c = '\n' then ['\\', 'n']
  else if c.toNat = 0 then ['\\', '0']
  else if isShownByNumber c then "\\u\x7b".toList ++ Nat.toDigits 16 c.toNat ++ "\x7d".toList
  else [c]

/-- A text as a quotation. -/
def quote (t : Text) : Text :=
  '"' :: t.flatMap quoteChar ++ ['"']

end Text

end ExplicitInstantiation
