import ExplicitInstantiation.Arithmetic.Number
import ExplicitInstantiation.Yaml.Cursor

/-!
# Scalars of a YAML document

A scalar is written plainly, between quotation marks, or as an indented block of lines. Written
plainly or between quotation marks it may extend over several lines, and the line breaks inside it
are folded: a single one becomes a space, and of several the first one is dropped.

The readers below take at most `fuel` steps, for which the number of characters that are left is
always enough.
-/

namespace ExplicitInstantiation

namespace Yaml

/-! ### Gaps inside a scalar -/

/-- Spaces, tabs and line breaks between two words of a scalar. -/
structure Gap where
  /-- Whether there is a line break. -/
  broken : Bool
  /-- The spaces and tabs, if there is none. -/
  blanks : Text
  /-- The first line break. -/
  leading : Text
  /-- The other line breaks. -/
  trailing : Text

namespace Gap

/-- No gap at all. -/
def none : Gap := ⟨false, [], [], []⟩

/-- The gap behind an escaped line break. -/
def escaped : Gap := ⟨true, [], [], []⟩

/-- What a gap counts for: itself on one line, and else its folded line breaks. -/
def toText (gap : Gap) : Text :=
  if !gap.broken then gap.blanks
  else if gap.leading.head? = some '\n' then
    if gap.trailing.isEmpty then [' '] else gap.trailing
  else gap.leading ++ gap.trailing

/-- Takes a gap. A tab may not stand in the indentation of a line, which has `indent` columns. -/
def read (indent : Int) : (fuel : Nat) → Gap → Cursor → Option (Gap × Cursor)
  | 0, gap, cursor => some (gap, cursor)
  | fuel + 1, gap, cursor =>
    match cursor.peek? 0 with
    | .none => some (gap, cursor)
    | some c =>
      if isGap c then
        if gap.broken && cursor.column < indent && c == '\t' then .none
        else if gap.broken then read indent fuel gap (cursor.skip 1)
        else read indent fuel { gap with blanks := gap.blanks ++ [c] } (cursor.skip 1)
      else if isBreak c then
        let (ending, cursor) := cursor.takeBreak
        if gap.broken then
          read indent fuel { gap with trailing := gap.trailing ++ ending } cursor
        else read indent fuel { gap with broken := true, leading := ending } cursor
      else some (gap, cursor)

end Gap

/-! ### Quoted scalars -/

/-- The character with a given code point, if there is one. -/
def charOf? (n : Nat) : Option Char :=
  if n.isValidChar then some (Char.ofNat n) else none

/-- The number that exactly `width` hexadecimal digits stand for. -/
def hexAhead? (cursor : Cursor) (width : Nat) : Option Nat :=
  let digits := cursor.rest.take width
  if digits.length = width then Number.hexDigits? digits else none

/-- The character that the escape `\c` stands for. The cursor is behind it, and so is the one that
is returned, except that digits have been taken. -/
def readEscape (c : Char) (cursor : Cursor) : Option (Char × Cursor) :=
  let coded (width : Nat) : Option (Char × Cursor) := do
    let n ← hexAhead? cursor width
    let decoded ← charOf? n
    return (decoded, cursor.skip width)
  match c with
  | '0' => some (Char.ofNat 0, cursor)
  | 'a' => some (Char.ofNat 7, cursor)
  | 'b' => some (Char.ofNat 8, cursor)
  | 't' | '\t' => some ('\t', cursor)
  | 'n' => some ('\n', cursor)
  | 'v' => some (Char.ofNat 11, cursor)
  | 'f' => some (Char.ofNat 12, cursor)
  | 'r' => some ('\r', cursor)
  | 'e' => some (Char.ofNat 27, cursor)
  | ' ' | '"' | '/' | '\\' => some (c, cursor)
  | 'N' => some (Char.ofNat 0x85, cursor)
  | '_' => some (Char.ofNat 0xA0, cursor)
  | 'L' => some (Char.ofNat 0x2028, cursor)
  | 'P' => some (Char.ofNat 0x2029, cursor)
  | 'x' => coded 2
  | 'u' => coded 4
  | 'U' => coded 8
  | _ => none

/-- The rest of a scalar up to its closing mark, which is taken. Only double marks allow escapes,
and only a single mark is written by being doubled. -/
def readQuoted (mark : Char) : (fuel : Nat) → Cursor → Option (Text × Cursor)
  | 0, _ => none
  | fuel + 1, cursor =>
    if cursor.atDocumentMark then none
    else
      match cursor.peek? 0 with
      | none => none
      | some c =>
        if isGap c || isBreak c then do
          let (gap, cursor) ← Gap.read 0 cursor.rest.length .none cursor
          let (content, cursor) ← readQuoted mark fuel cursor
          return (gap.toText ++ content, cursor)
        else if c = mark then
          if c = '\'' && cursor.isAt 1 '\'' then do
            let (content, cursor) ← readQuoted mark fuel (cursor.skip 2)
            return (c :: content, cursor)
          else some ([], cursor.skip 1)
        else if c = '\\' && mark = '"' then
          match cursor.peek? 1 with
          | none => none
          | some escape =>
            if isBreak escape then do
              let (_, cursor) := (cursor.skip 1).takeBreak
              let (gap, cursor) ← Gap.read 0 cursor.rest.length .escaped cursor
              let (content, cursor) ← readQuoted mark fuel cursor
              return (gap.toText ++ content, cursor)
            else do
              let (decoded, cursor) ← readEscape escape (cursor.skip 2)
              let (content, cursor) ← readQuoted mark fuel cursor
              return (decoded :: content, cursor)
        else do
          let (content, cursor) ← readQuoted mark fuel (cursor.skip 1)
          return (c :: content, cursor)

/-! ### Plain scalars -/

/-- Whether `c` is an indicator of collections in brackets. -/
def isFlowIndicator (c : Char) : Bool :=
  c == ',' || c == '[' || c == ']' || c == '{' || c == '}'

/-- The characters up to a gap or up to what ends a plain scalar: a colon with a gap behind it and,
inside brackets, an indicator of collections. -/
def readPlainWord (flow : Bool) : (fuel : Nat) → Cursor → Option (Text × Cursor)
  | 0, cursor => some ([], cursor)
  | fuel + 1, cursor =>
    match cursor.peek? 0 with
    | none => some ([], cursor)
    | some c =>
      if isGap c || isBreak c then some ([], cursor)
      else if flow && c == ':' && (cursor.peek? 1).any (fun d => isFlowIndicator d || d == '?') then
        none
      else if (c == ':' && cursor.isClear 1) || (flow && isFlowIndicator c) then some ([], cursor)
      else do
        let (word, cursor) ← readPlainWord flow fuel (cursor.skip 1)
        return (c :: word, cursor)

/-- A plain scalar, and what was read with it. -/
structure PlainReading where
  /-- The scalar. -/
  content : Text
  /-- What is left behind the scalar and the gap that follows it. -/
  cursor : Cursor
  /-- Whether that gap has a line break. -/
  broken : Bool

/-- A plain scalar. Its lines have to be indented by `indent` columns, except inside brackets. -/
def readPlain (flow : Bool) (indent : Int) : (fuel : Nat) → Cursor → Option PlainReading
  | 0, cursor => some ⟨[], cursor, false⟩
  | fuel + 1, cursor =>
    if cursor.atDocumentMark || cursor.isAt 0 '#' then some ⟨[], cursor, false⟩
    else do
      let (word, cursor) ← readPlainWord flow cursor.rest.length cursor
      if !cursor.atGapOrBreak then return ⟨word, cursor, false⟩
      let (gap, cursor) ← Gap.read indent cursor.rest.length .none cursor
      if !flow && cursor.column < indent then return ⟨word, cursor, gap.broken⟩
      let more ← readPlain flow indent fuel cursor
      if more.content.isEmpty then return ⟨word, more.cursor, gap.broken⟩
      return ⟨word ++ gap.toText ++ more.content, more.cursor, more.broken⟩

/-! ### Block scalars -/

/-- What happens to the line breaks at the end of a block scalar. -/
inductive Chomping where
  /-- All are dropped. -/
  | strip
  /-- The first one is kept. -/
  | clip
  /-- All are kept. -/
  | keep
  deriving Repr, DecidableEq

/-- The header of a block scalar. -/
structure BlockHeader where
  /-- What happens to the line breaks at its end. -/
  chomping : Chomping
  /-- The columns by which it is indented, if they are given. -/
  increment : Option Nat

/-- The chomping that an indicator asks for. -/
def chomping? : Option Char → Option Chomping
  | some '+' => some .keep
  | some '-' => some .strip
  | _ => none

/-- The header of a block scalar, whose indicators may stand in either order. -/
def readBlockHeader (cursor : Cursor) : Option (BlockHeader × Cursor) :=
  let digit? (cursor : Cursor) : Option (Option Nat × Cursor) :=
    match cursor.peek? 0 with
    | some c =>
      if !c.isDigit then some (none, cursor)
      else if c = '0' then none
      else some (some (c.toNat - '0'.toNat), cursor.skip 1)
    | none => some (none, cursor)
  match chomping? (cursor.peek? 0) with
  | some chomping => do
    let (increment, cursor) ← digit? (cursor.skip 1)
    return (⟨chomping, increment⟩, cursor)
  | none => do
    let (increment, cursor) ← digit? cursor
    match increment, chomping? (cursor.peek? 0) with
    | some _, some chomping => return (⟨chomping, increment⟩, cursor.skip 1)
    | _, _ => return (⟨.clip, increment⟩, cursor)

/-- Line breaks, the columns that were passed on the way, and what is left. -/
structure BreaksReading where
  /-- The line breaks. -/
  breaks : Text
  /-- The largest column reached. -/
  widest : Nat
  /-- What is left. -/
  cursor : Cursor

/-- Takes indentation and empty lines. Indentation ends at `indent` columns, if that is known. -/
def readBreaks (indent : Option Nat) : (fuel : Nat) → BreaksReading → Option BreaksReading
  | 0, reading => some reading
  | fuel + 1, reading =>
    let spaces := (reading.cursor.rest.takeWhile (· == ' ')).length
    let taken :=
      match indent with
      | some indent => min spaces (indent - reading.cursor.column)
      | none => spaces
    let cursor := reading.cursor.skip taken
    let widest := max reading.widest cursor.column
    if indent.all (cursor.column < ·) && cursor.isAt 0 '\t' then none
    else if (cursor.peek? 0).any isBreak then
      let (ending, cursor) := cursor.takeBreak
      readBreaks indent fuel ⟨reading.breaks ++ ending, widest, cursor⟩
    else some ⟨reading.breaks, widest, cursor⟩

/-- A block scalar of which some lines have been read. -/
structure BlockReading where
  /-- The content so far. -/
  content : Text
  /-- The line break of the last line, which has not been added. -/
  leading : Text
  /-- The empty lines behind it. -/
  trailing : Text
  /-- Whether the last line started with a gap. -/
  startsWithGap : Bool
  /-- What is left. -/
  cursor : Cursor

/-- Reads the lines of a block scalar that are indented by `indent` columns. -/
def readBlockLines (folded : Bool) (indent : Nat) :
    (fuel : Nat) → BlockReading → Option BlockReading
  | 0, reading => some reading
  | fuel + 1, reading =>
    let cursor := reading.cursor
    if cursor.column != indent || cursor.rest.isEmpty then some reading
    else
      let gap := (cursor.peek? 0).any isGap
      let fold :=
        folded && reading.leading.head? == some '\n' && !reading.startsWithGap && !gap
      let joint :=
        if fold then if reading.trailing.isEmpty then [' '] else [] else reading.leading
      let line := cursor.rest.takeWhile (!isBreak ·)
      let (ending, cursor) := (cursor.skip line.length).takeBreak
      match readBreaks (some indent) cursor.rest.length ⟨[], 0, cursor⟩ with
      | none => none
      | some breaks =>
        readBlockLines folded indent fuel
          ⟨reading.content ++ joint ++ reading.trailing ++ line, ending, breaks.breaks, gap,
            breaks.cursor⟩

/-- A block scalar whose indicator has been taken, inside a collection indented by `parent`
columns. -/
def readBlock (folded : Bool) (parent : Int) (cursor : Cursor) : Option (Text × Cursor) := do
  let (header, cursor) ← readBlockHeader cursor
  let cursor := cursor.skipWhile isGap
  let cursor := if cursor.isAt 0 '#' then cursor.skipWhile (!isBreak ·) else cursor
  if !cursor.atLineEnd then none
  let (_, cursor) := cursor.takeBreak
  let indent? : Option Nat := header.increment.map fun increment =>
    (max parent 0).toNat + increment
  let breaks ← readBreaks indent? cursor.rest.length ⟨[], 0, cursor⟩
  let indent := indent?.getD (max breaks.widest (max (parent + 1).toNat 1))
  let reading ← readBlockLines folded indent breaks.cursor.rest.length
    ⟨[], [], breaks.breaks, false, breaks.cursor⟩
  let ending :=
    match header.chomping with
    | .strip => []
    | .clip => reading.leading
    | .keep => reading.leading ++ reading.trailing
  return (reading.content ++ ending, reading.cursor)

end Yaml

end ExplicitInstantiation
