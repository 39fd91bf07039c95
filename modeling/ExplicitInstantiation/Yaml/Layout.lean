import ExplicitInstantiation.Yaml.Scalar
import ExplicitInstantiation.Yaml.Token

/-!
# From characters to tokens

The tokens of a document are found from left to right. Two things are only known later. That a
collection written by indentation has ended is seen at the next token to the left of it. And that
something was the key of a mapping is seen at the colon behind it; so for each level of brackets
the place of the last token that may turn out to be a key is remembered, and the tokens for the key
and for the mapping are put in there. Such a key has to be on one line and is not longer than 1024
bytes.

`Yaml.tokens?` yields all tokens, or nothing if some part of the document is no token.
-/

namespace ExplicitInstantiation

namespace Yaml

/-- A place where a key may have begun. -/
structure KeyCandidate where
  /-- The number of tokens before it. -/
  tokens : Nat
  /-- Whether nothing but a key can stand there. -/
  required : Bool
  /-- Where it stands. -/
  cursor : Cursor

/-- Where the search for tokens stands. -/
structure Layout where
  /-- The characters that are left. -/
  cursor : Cursor
  /-- The tokens so far. -/
  tokens : Array Token
  /-- The column of the innermost collection written by indentation, or -1. -/
  indent : Int
  /-- The columns of the collections around it. -/
  indents : List Int
  /-- Whether a key may begin here. -/
  keyAllowed : Bool
  /-- The candidate for a key outside all brackets. -/
  candidate : Option KeyCandidate
  /-- The candidates on the levels of brackets around this place, the innermost level first, the
  current one excepted. Their number is the number of open brackets. -/
  outer : List (Option KeyCandidate)

/-- A step of the search. -/
abbrev LayoutM := StateT Layout Option

namespace Layout

/-- The beginning of a document. -/
def start (content : Text) : Layout :=
  ⟨.start content, #[], -1, [], true, none, []⟩

/-- Whether a bracket is open. -/
def inBrackets (layout : Layout) : Bool := !layout.outer.isEmpty

/-- Adds a token. -/
def emit (token : Token) : LayoutM Unit :=
  modify fun layout => { layout with tokens := layout.tokens.push token }

/-- Puts a token in at an earlier place. -/
def emitAt (place : Nat) (token : Token) : LayoutM Unit :=
  modify fun layout => { layout with tokens := layout.tokens.insertIdxIfInBounds place token }

/-- Goes on `n` characters. -/
def advance (n : Nat) : LayoutM Unit :=
  modify fun layout => { layout with cursor := layout.cursor.skip n }

/-- Goes on at a cursor. -/
def goTo (cursor : Cursor) : LayoutM Unit :=
  modify fun layout => { layout with cursor := cursor }

/-- Says whether a key may begin here. -/
def allowKey (allowed : Bool) : LayoutM Unit :=
  modify fun layout => { layout with keyAllowed := allowed }

/-! ### Keys -/

/-- Drops the candidate for a key, which must not be required to be one. -/
def dropCandidate : LayoutM Unit := do
  let layout ← get
  if layout.candidate.any KeyCandidate.required then failure
  set { layout with candidate := none }

/-- Makes this place the candidate for a key, if a key may begin here. -/
def saveCandidate : LayoutM Unit := do
  let layout ← get
  if layout.keyAllowed then
    dropCandidate
    let required := !layout.inBrackets && layout.indent == layout.cursor.column
    modify fun layout =>
      { layout with candidate := some ⟨layout.tokens.size, required, layout.cursor⟩ }

/-- Whether a candidate can no longer be a key: it is on another line or too far away. -/
def isStale (cursor : Cursor) (candidate : KeyCandidate) : Bool :=
  candidate.cursor.line < cursor.line || candidate.cursor.index + 1024 < cursor.index

/-- Drops the candidates that can no longer be keys. -/
def dropStale : LayoutM Unit := do
  let layout ← get
  let drop (candidate? : Option KeyCandidate) : Option (Option KeyCandidate) :=
    match candidate? with
    | some candidate =>
      if isStale layout.cursor candidate then if candidate.required then none else some none
      else some candidate?
    | none => some none
  match drop layout.candidate, layout.outer.mapM drop with
  | some candidate, some outer => set { layout with candidate := candidate, outer := outer }
  | _, _ => failure

/-! ### Indentation -/

/-- Begins a collection written by indentation, if this column is further in than the last one. The
token goes to the given place, or to the end. -/
def indentTo (column : Nat) (token : Token) (place : Option Nat) : LayoutM Unit := do
  let layout ← get
  if !layout.inBrackets && layout.indent < column then
    set { layout with indent := column, indents := layout.indent :: layout.indents }
    match place with
    | some place => emitAt place token
    | none => emit token

/-- Ends the collections that are further in than `column`. -/
def unindentTo (column : Int) : LayoutM Unit := do
  let layout ← get
  if !layout.inBrackets then
    let columns := layout.indent :: layout.indents
    let left := columns.dropWhile (column < ·)
    match left with
    | indent :: indents =>
      let ended := columns.length - left.length
      set { layout with
        indent := indent, indents := indents,
        tokens := layout.tokens ++ Array.replicate ended Token.blockEnd }
    | [] => failure

/-! ### Gaps and comments -/

/-- Takes gaps, comments, line breaks and the byte order marks that begin lines. A tab counts as a
gap only where no key may begin. -/
def skipFiller : (fuel : Nat) → LayoutM Unit
  | 0 => return
  | fuel + 1 => do
    let layout ← get
    let tabs := layout.inBrackets || !layout.keyAllowed
    let cursor := layout.cursor.skipByteOrderMark.skipWhile fun c =>
      c == ' ' || (tabs && c == '\t')
    let cursor := if cursor.isAt 0 '#' then cursor.skipWhile (!isBreak ·) else cursor
    if (cursor.peek? 0).any isBreak then
      goTo cursor.takeBreak.2
      if !layout.inBrackets then allowKey true
      skipFiller fuel
    else goTo cursor

/-! ### Directives, anchors and tags -/

/-- Whether `c` may stand in the name of an anchor, of a handle or of a directive. -/
def isNameChar (c : Char) : Bool :=
  c.isAlphanum || c == '_' || c == '-'

/-- Takes the longest run of characters that satisfy `p`. -/
def takeRun (p : Char → Bool) : LayoutM Text := do
  let taken := (← get).cursor.rest.takeWhile p
  advance taken.length
  return taken

/-- Whether `c` may stand as itself in the address of a tag, which may contain `lists` or not. -/
def isAddressChar (lists : Bool) (c : Char) : Bool :=
  isNameChar c || ";/?:@&=+$.!~*'()".toList.contains c || (lists && ",[]".toList.contains c)

/-- How many bytes follow the first byte of a character. -/
def followers? (byte : Nat) : Option Nat :=
  if byte < 0x80 then some 0
  else if byte < 0xC0 then none
  else if byte < 0xE0 then some 1
  else if byte < 0xF0 then some 2
  else if byte < 0xF8 then some 3
  else none

/-- What follows the address of a tag, when `pending` more bytes of a character have to be written
as escapes. An escape is a percent sign with two hexadecimal digits. -/
def afterAddress? (lists : Bool) : (pending : Nat) → Text → Option Text
  | pending, '%' :: high :: low :: rest =>
    match Number.hexDigits? [high, low], pending with
    | some byte, 0 => (followers? byte).bind fun pending => afterAddress? lists pending rest
    | some byte, pending + 1 =>
      if 0x80 ≤ byte && byte < 0xC0 then afterAddress? lists pending rest else none
    | none, _ => none
  | 0, c :: rest =>
    if c = '%' then none
    else if isAddressChar lists c then afterAddress? lists 0 rest
    else some (c :: rest)
  | 0, [] => some []
  | _ + 1, _ => none

/-- Takes the address of a tag and says whether it is empty. -/
def takeAddress (lists : Bool) : LayoutM Bool := do
  let t := (← get).cursor.rest
  match afterAddress? lists 0 t with
  | some after =>
    advance (t.length - after.length)
    return after.length = t.length
  | none => failure

/-- A tag handle, which is one mark or a name between two. -/
def takeHandle : LayoutM Text := do
  if !(← get).cursor.isAt 0 '!' then failure
  advance 1
  let name ← takeRun isNameChar
  if (← get).cursor.isAt 0 '!' then
    advance 1
    return '!' :: name ++ ['!']
  else return '!' :: name

/-- One of the two numbers of a version, which has at most nine digits. -/
def takeVersionNumber : LayoutM Nat := do
  let digits ← takeRun Char.isDigit
  match digits? digits with
  | some n => if 9 < digits.length then failure else return n
  | none => failure

/-- Ends the line of a directive. -/
def finishDirective : LayoutM Unit := do
  let cursor := (← get).cursor.skipWhile isGap
  let cursor := if cursor.isAt 0 '#' then cursor.skipWhile (!isBreak ·) else cursor
  if !cursor.atLineEnd then failure
  goTo cursor.takeBreak.2

/-- A directive, which declares the version or a tag handle. -/
def takeDirective : LayoutM Unit := do
  advance 1
  let name ← takeRun isNameChar
  if !(← get).cursor.isClear 0 then failure
  let _ ← takeRun isGap
  if name == "YAML".toList then
    let major ← takeVersionNumber
    if !(← get).cursor.isAt 0 '.' then failure
    advance 1
    let minor ← takeVersionNumber
    finishDirective
    emit (.version major minor)
  else if name == "TAG".toList then
    let handle ← takeHandle
    if handle ≠ ['!'] ∧ (handle.length < 2 ∨ handle.getLast? ≠ some '!') then failure
    if !(← get).cursor.atGapOrBreak then failure
    let _ ← takeRun isGap
    if ← takeAddress true then failure
    if !(← get).cursor.isClear 0 then failure
    finishDirective
    emit (.handle handle)
  else failure

/-- The name of an anchor or alias. -/
def takeAnchorName : LayoutM Text := do
  advance 1
  let name ← takeRun isNameChar
  let cursor := (← get).cursor
  let ended := cursor.isClear 0 || (cursor.peek? 0).any fun c => "?:,]\x7d%@`".toList.contains c
  if name.isEmpty || !ended then failure
  return name

/-- A tag. -/
def takeTag : LayoutM Unit := do
  let cursor := (← get).cursor
  let handle ←
    if cursor.isAt 1 '<' then
      advance 2
      let isEmpty ← takeAddress true
      if isEmpty || !(← get).cursor.isAt 0 '>' then failure
      advance 1
      pure ['!']
    else
      let handle ← takeHandle
      let isEmpty ← takeAddress false
      if 2 ≤ handle.length && handle.getLast? == some '!' then
        if isEmpty then failure
        pure handle
      else pure ['!']
  let layout ← get
  if !(layout.inBrackets && layout.cursor.isAt 0 ',') && !layout.cursor.isClear 0 then failure
  emit (.tag handle)

/-! ### Tokens -/

/-- Ends all collections written by indentation, as at the end of a document. -/
def leaveAll : LayoutM Unit := do
  unindentTo (-1)
  dropCandidate
  allowKey false

/-- Opens a bracket. -/
def openLevel (token : Token) : LayoutM Unit := do
  saveCandidate
  modify fun layout =>
    { layout with outer := layout.candidate :: layout.outer, candidate := none }
  allowKey true
  advance 1
  emit token

/-- Closes a bracket. -/
def closeLevel (token : Token) : LayoutM Unit := do
  dropCandidate
  modify fun layout =>
    match layout.outer with
    | candidate :: outer => { layout with candidate := candidate, outer := outer }
    | [] => layout
  allowKey false
  advance 1
  emit token

/-- The dash of an item. -/
def takeDash : LayoutM Unit := do
  let layout ← get
  if !layout.inBrackets then
    if !layout.keyAllowed then failure
    indentTo layout.cursor.column .sequenceStart none
  dropCandidate
  allowKey true
  advance 1
  emit .dash

/-- The question mark of a key. -/
def takeKey : LayoutM Unit := do
  let layout ← get
  if !layout.inBrackets then
    if !layout.keyAllowed then failure
    indentTo layout.cursor.column .mappingStart none
  dropCandidate
  allowKey (!layout.inBrackets)
  advance 1
  emit .key

/-- The colon of a value, which makes the candidate a key. -/
def takeValue : LayoutM Unit := do
  let layout ← get
  match layout.candidate with
  | some candidate =>
    emitAt candidate.tokens .key
    indentTo candidate.cursor.column .mappingStart (some candidate.tokens)
    modify fun layout => { layout with candidate := none }
    allowKey false
  | none =>
    if !layout.inBrackets then
      if !layout.keyAllowed then failure
      indentTo layout.cursor.column .mappingStart none
    allowKey (!layout.inBrackets)
  advance 1
  emit .value

/-- A scalar between quotation marks. -/
def takeQuoted (mark : Char) : LayoutM Unit := do
  saveCandidate
  allowKey false
  let cursor := (← get).cursor.skip 1
  match readQuoted mark (cursor.rest.length + 1) cursor with
  | some (content, cursor) =>
    goTo cursor
    emit (.scalar false content)
  | none => failure

/-- A plain scalar. -/
def takePlain : LayoutM Unit := do
  saveCandidate
  allowKey false
  let layout ← get
  let cursor := layout.cursor
  match readPlain layout.inBrackets (layout.indent + 1) (cursor.rest.length + 1) cursor with
  | some reading =>
    goTo reading.cursor
    emit (.scalar true reading.content)
    if reading.broken then allowKey true
  | none => failure

/-- A scalar that is a block of lines. -/
def takeBlock (folded : Bool) : LayoutM Unit := do
  dropCandidate
  allowKey true
  let layout ← get
  match readBlock folded layout.indent (layout.cursor.skip 1) with
  | some (content, cursor) =>
    goTo cursor
    emit (.scalar false content)
  | none => failure

/-- Whether a plain scalar begins here. -/
def startsPlain (layout : Layout) (c : Char) : Bool :=
  let cursor := layout.cursor
  !(cursor.isClear 0 || "-?:,[]\x7b\x7d#&*!|>'\"%@`".toList.contains c) ||
    (c == '-' && !(cursor.peek? 1).any isGap) ||
    (!layout.inBrackets && (c == '?' || c == ':') && !cursor.isClear 1)

/-- Takes the token that begins with `c`. -/
def takeToken (c : Char) : LayoutM Unit := do
  let layout ← get
  let cursor := layout.cursor
  let flow := layout.inBrackets
  if cursor.column == 0 && c == '%' then
    leaveAll
    takeDirective
  else if cursor.atMark ['-', '-', '-'] then
    leaveAll
    advance 3
    emit .documentStart
  else if cursor.atMark ['.', '.', '.'] then
    leaveAll
    advance 3
    emit .documentEnd
  else if c == '[' then openLevel .openBracket
  else if c == '{' then openLevel .openBrace
  else if c == ']' then closeLevel .closeBracket
  else if c == '}' then closeLevel .closeBrace
  else if c == ',' then
    dropCandidate
    allowKey true
    advance 1
    emit .comma
  else if c == '-' && cursor.isClear 1 then takeDash
  else if c == '?' && (flow || cursor.isClear 1) then takeKey
  else if c == ':' && (flow || cursor.isClear 1) then takeValue
  else if c == '*' then
    saveCandidate
    allowKey false
    emit (.alias (← takeAnchorName))
  else if c == '&' then
    saveCandidate
    allowKey false
    emit (.anchor (← takeAnchorName))
  else if c == '!' then
    saveCandidate
    allowKey false
    takeTag
  else if c == '|' && !flow then takeBlock false
  else if c == '>' && !flow then takeBlock true
  else if c == '\'' || c == '"' then takeQuoted c
  else if startsPlain layout c then takePlain
  else failure

/-- Takes tokens to the end of the document, of which there are at most `fuel`. -/
def takeAll : (fuel : Nat) → LayoutM Unit
  | 0 => failure
  | fuel + 1 => do
    skipFiller ((← get).cursor.rest.length + 1)
    dropStale
    unindentTo (← get).cursor.column
    match (← get).cursor.peek? 0 with
    | none => leaveAll
    | some c =>
      takeToken c
      takeAll fuel

end Layout

/-- The tokens of a document. -/
def tokens? (content : Text) : Option (List Token) := do
  if !content.all isAllowed then none
  let (_, layout) ← StateT.run (Layout.takeAll (content.length + 1)) (Layout.start content)
  return layout.tokens.toList

end Yaml

end ExplicitInstantiation
