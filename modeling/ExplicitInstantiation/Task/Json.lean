import ExplicitInstantiation.Task.Basic

/-!
# Reports as JSON

Reports are printed as a JSON array with one object for each, indented by two spaces. An array or
an object without members is closed on the line on which it was opened.
-/

namespace ExplicitInstantiation

/-- A JSON value, as far as reports need one. -/
inductive Json where
  | number (value : Nat)
  | string (content : Text)
  | array (items : List Json)
  | object (members : List (Text × Json))

namespace Json

/-- A character inside a JSON string. -/
def escapeChar (c : Char) : Text :=
  if c = '"' || c = '\\' then ['\\', c]
  else if c = '\n' then ['\\', 'n']
  else if c = '\r' then ['\\', 'r']
  else if c = '\t' then ['\\', 't']
  else if c.toNat = 8 then ['\\', 'b']
  else if c.toNat = 12 then ['\\', 'f']
  else if c.toNat < 32 then
    let digits := Nat.toDigits 16 c.toNat
    ['\\', 'u'] ++ List.replicate (4 - digits.length) '0' ++ digits
  else [c]

/-- A JSON string. -/
def quote (t : Text) : Text :=
  '"' :: t.flatMap escapeChar ++ ['"']

/-- A line break and the indentation of the line behind it. -/
def lineStart (depth : Nat) : Text :=
  '\n' :: List.replicate (2 * depth) ' '

mutual

/-- A value at a depth of indentation. -/
def pretty (depth : Nat) : Json → Text
  | number value => Text.ofNat value
  | string content => quote content
  | array [] => ['[', ']']
  | array (first :: rest) =>
    '[' :: lineStart (depth + 1) ++ pretty (depth + 1) first ++ prettyItems (depth + 1) rest
      ++ lineStart depth ++ [']']
  | object [] => ['{', '}']
  | object ((name, value) :: rest) =>
    '{' :: lineStart (depth + 1) ++ quote name ++ ": ".toList ++ pretty (depth + 1) value
      ++ prettyMembers (depth + 1) rest ++ lineStart depth ++ ['}']

/-- The items of an array behind the first one. -/
def prettyItems (depth : Nat) : List Json → Text
  | [] => []
  | item :: items => ',' :: lineStart depth ++ pretty depth item ++ prettyItems depth items

/-- The members of an object behind the first one. -/
def prettyMembers (depth : Nat) : List (Text × Json) → Text
  | [] => []
  | (name, value) :: members =>
    ',' :: lineStart depth ++ quote name ++ ": ".toList ++ pretty depth value
      ++ prettyMembers depth members

end

end Json

/-- The word for a status in JSON. -/
def Status.keyword : Status → Text
  | updated => "updated".toList
  | unchanged => "unchanged".toList
  | outOfDate => "out_of_date".toList

/-- A report as JSON. -/
def Report.toJson (report : Report) : Json :=
  .object [("target".toList, .string report.target.text),
    ("signatures".toList, .number report.classes),
    ("constants".toList, .number report.constants),
    ("occurrences".toList, .number report.sites),
    ("declarations".toList, .array (report.declarations.map .string)),
    ("status".toList, .string report.status.keyword)]

end ExplicitInstantiation
