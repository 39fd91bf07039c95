import ExplicitInstantiation.Text.Basic

/-!
# Tokens of a YAML document

The tokens make the layout of a document explicit. Where a collection is written by indentation,
tokens mark its beginning and its end, as brackets do where it is written with brackets; and each
key of a mapping is announced by a token, whether or not the document marks it.
-/

namespace ExplicitInstantiation

namespace Yaml

/-- A token of a document. -/
inductive Token where
  /-- The version that the document declares. -/
  | version (major minor : Nat)
  /-- A tag handle that the document declares. -/
  | handle (name : Text)
  /-- `---` -/
  | documentStart
  /-- `...` -/
  | documentEnd
  /-- An indented sequence begins. -/
  | sequenceStart
  /-- An indented mapping begins. -/
  | mappingStart
  /-- An indented collection ends. -/
  | blockEnd
  /-- `[` -/
  | openBracket
  /-- `]` -/
  | closeBracket
  /-- An opening brace. -/
  | openBrace
  /-- A closing brace. -/
  | closeBrace
  /-- `-` in front of an item of an indented sequence. -/
  | dash
  /-- `,` between items in brackets. -/
  | comma
  /-- A key follows. -/
  | key
  /-- A value follows. -/
  | value
  /-- A reference to an anchored node. -/
  | alias (name : Text)
  /-- A name for the node that follows. -/
  | anchor (name : Text)
  /-- A tag of the node that follows, given by its handle. -/
  | tag (handle : Text)
  /-- A scalar, which is plain if it has no quotation marks and no indicator. -/
  | scalar (plain : Bool) (content : Text)
  deriving Repr, DecidableEq

end Yaml

end ExplicitInstantiation
