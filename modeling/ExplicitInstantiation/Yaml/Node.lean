import ExplicitInstantiation.Yaml.Layout

/-!
# From tokens to nodes

A document is one node: a scalar, a sequence or a mapping. A node may be given a name by an anchor,
and an alias with that name stands for the same node. Where a node is missing, an empty plain
scalar takes its place. `Yaml.read?` yields a document.

An alias is kept as the number of the anchor that its name had last, and is looked up only when the
node is needed; so a node may contain an alias to itself. The number of an anchor is the count of
different names before it. A name that is used again is not counted again, so the anchor behind it
has the same number, and the later of the two is the one that is found. How often the aliases of a
document may be followed is limited by the size of its nodes.
-/

namespace ExplicitInstantiation

namespace Yaml

/-- A node of a document. -/
inductive Node where
  /-- A scalar, which is plain if it has no quotation marks and no indicator. -/
  | scalar (plain : Bool) (content : Text)
  /-- A sequence. -/
  | sequence (items : List Node)
  /-- A mapping, with its pairs in order. -/
  | mapping (pairs : List (Node × Node))
  /-- The node at the anchor with this number. -/
  | alias (number : Nat)
  deriving Repr

/-- The node that stands where none is written. -/
def Node.missing : Node := .scalar true []

namespace Node

mutual

/-- The size of a node. A scalar and an alias count once, and a collection counts twice, for its
beginning and its end, besides what is in it. -/
def size : Node → Nat
  | .scalar _ _ | .alias _ => 1
  | .sequence items => 2 + itemsSize items
  | .mapping pairs => 2 + pairsSize pairs

/-- The size of the items of a sequence. -/
def itemsSize : List Node → Nat
  | [] => 0
  | item :: items => size item + itemsSize items

/-- The size of the pairs of a mapping. -/
def pairsSize : List (Node × Node) → Nat
  | [] => 0
  | (key, value) :: pairs => size key + size value + pairsSize pairs

end

end Node

/-- Where an anchor stands. -/
structure Anchor where
  /-- The number that aliases refer to. -/
  number : Nat
  /-- How many anchors stand before it. -/
  position : Nat
  deriving Repr, DecidableEq

/-- A node with the nodes that its aliases stand for. -/
structure Document where
  /-- The node. -/
  root : Node
  /-- The nodes with an anchor. -/
  anchored : List (Anchor × Node)
  deriving Repr

namespace Document

/-- The node at the anchor with a number, the last such anchor if there are several. -/
def anchored? (document : Document) (number : Nat) : Option Node :=
  let candidates := document.anchored.filter (·.1.number == number)
  (candidates.mergeSort fun a b => b.1.position ≤ a.1.position).head?.map Prod.snd

/-- How many times an alias of a document may be followed. The limit keeps a small document with
aliases inside aliases from standing for a huge one. -/
def aliasLimit (document : Document) : Nat := 100 * document.root.size

end Document

/-- Reads something from a document. The state is the number of times that an alias may still be
followed. -/
abbrev DocumentM := StateT Nat Option

namespace Document

/-- A node, or the one that it is an alias of. -/
def resolve (document : Document) : Node → DocumentM Node
  | .alias number => do
    match ← get with
    | 0 => failure
    | left + 1 =>
      set left
      match document.anchored? number with
      | some node => return node
      | none => failure
  | node => return node

end Document

/-- Where the reading of nodes stands. -/
structure NodeReading where
  /-- The tokens that are left. -/
  tokens : List Token
  /-- The tag handles that are known. -/
  handles : List Text
  /-- The names of anchors so far, with the number of the last anchor of each. -/
  names : List (Text × Nat)
  /-- The number of anchors so far. -/
  anchors : Nat
  /-- The nodes with an anchor that have been read. -/
  anchored : List (Anchor × Node)

namespace NodeReading

/-- Nothing has been read. Two tag handles need no declaration. -/
def start (tokens : List Token) : NodeReading :=
  ⟨tokens, [['!'], ['!', '!']], [], 0, []⟩

/-- Gives a name to the anchor that comes next. -/
def addAnchor (reading : NodeReading) (name : Text) : Anchor × NodeReading :=
  let anchor : Anchor := ⟨reading.names.length, reading.anchors⟩
  (anchor, { reading with
    names := (name, anchor.number) :: reading.names.filter (·.1 != name)
    anchors := reading.anchors + 1 })

end NodeReading

/-- Reads something from tokens. -/
abbrev NodeM := StateT NodeReading Option

namespace NodeM

/-- The next token, which is not taken. -/
def peek? : NodeM (Option Token) := do return (← get).tokens.head?

/-- Takes the next token. -/
def drop : NodeM Unit :=
  modify fun reading => { reading with tokens := reading.tokens.tail }

/-- Takes the next token if it is the given one. -/
def skip? (token : Token) : NodeM Bool := do
  if (← peek?) == some token then drop; return true
  else return false

/-- Takes the given token. -/
def expect (token : Token) : NodeM Unit := do
  if !(← skip? token) then failure

/-- Whether the next token is one of the given ones. -/
def isNext (tokens : List Token) : NodeM Bool := do
  return (← peek?).any tokens.contains

/-- Takes the tag of a node, if it has one. The handle has to be known. -/
def takeTag? : NodeM Bool := do
  match ← peek? with
  | some (.tag handle) =>
    if !(← get).handles.contains handle then failure
    drop
    return true
  | _ => return false

/-- Takes the anchor of a node, if it has one. -/
def takeAnchor? : NodeM (Option Anchor) := do
  match ← peek? with
  | some (.anchor name) =>
    drop
    return some (← modifyGet (·.addAnchor name))
  | _ => return none

/-- The anchor and the tag of a node, in either order. -/
def takeProperties : NodeM (Option Anchor × Bool) := do
  match ← takeAnchor? with
  | some anchor => return (some anchor, ← takeTag?)
  | none =>
    let tagged ← takeTag?
    return (← takeAnchor?, tagged)

/-- Keeps a node that has an anchor. -/
def keep (anchor : Option Anchor) (node : Node) : NodeM Node := do
  match anchor with
  | some anchor =>
    modify fun reading => { reading with anchored := (anchor, node) :: reading.anchored }
  | none => pure ()
  return node

end NodeM

open NodeM

mutual

/-- A node. Collections written by indentation are read only where `block` says so, and sequences
at the indentation of their mapping only where `level` does. -/
def readNode (block level : Bool) : (fuel : Nat) → NodeM Node
  | 0 => failure
  | fuel + 1 => do
    match ← peek? with
    | some (.alias name) =>
      drop
      match (← get).names.find? (·.1 == name) with
      | some (_, number) => return .alias number
      | none => failure
    | _ =>
      let (anchor, tagged) ← takeProperties
      match ← peek? with
      | some (.scalar plain content) =>
        drop
        keep anchor (.scalar plain content)
      | some .openBracket =>
        drop
        keep anchor (.sequence (← readBracketItems true fuel))
      | some .openBrace =>
        drop
        keep anchor (.mapping (← readBracePairs true fuel))
      | some .dash =>
        if level then keep anchor (.sequence (← readLevelItems fuel))
        else if anchor.isSome || tagged then keep anchor .missing
        else failure
      | some .sequenceStart =>
        if block then
          drop
          keep anchor (.sequence (← readItems fuel))
        else if anchor.isSome || tagged then keep anchor .missing
        else failure
      | some .mappingStart =>
        if block then
          drop
          keep anchor (.mapping (← readPairs fuel))
        else if anchor.isSome || tagged then keep anchor .missing
        else failure
      | _ => if anchor.isSome || tagged then keep anchor .missing else failure

/-- A node, or a missing one if one of the given tokens is next. -/
def readNodeUnless (stops : List Token) (block level : Bool) : (fuel : Nat) → NodeM Node
  | 0 => failure
  | fuel + 1 => do
    if ← isNext stops then return .missing else readNode block level fuel

/-- The items of a sequence written by indentation. -/
def readItems : (fuel : Nat) → NodeM (List Node)
  | 0 => failure
  | fuel + 1 => do
    if ← skip? .blockEnd then return []
    expect .dash
    let item ← readNodeUnless [.dash, .blockEnd] true false fuel
    return item :: (← readItems fuel)

/-- The items of a sequence at the indentation of its mapping. -/
def readLevelItems : (fuel : Nat) → NodeM (List Node)
  | 0 => failure
  | fuel + 1 => do
    if !(← skip? .dash) then return []
    let item ← readNodeUnless [.dash, .key, .value, .blockEnd] true false fuel
    return item :: (← readLevelItems fuel)

/-- The pairs of a mapping written by indentation. -/
def readPairs : (fuel : Nat) → NodeM (List (Node × Node))
  | 0 => failure
  | fuel + 1 => do
    if ← skip? .blockEnd then return []
    expect .key
    let key ← readNodeUnless [.key, .value, .blockEnd] true true fuel
    let value ←
      if ← skip? .value then readNodeUnless [.key, .value, .blockEnd] true true fuel
      else pure .missing
    return (key, value) :: (← readPairs fuel)

/-- The items between square brackets. An item with a key is a mapping of one pair. -/
def readBracketItems (first : Bool) : (fuel : Nat) → NodeM (List Node)
  | 0 => failure
  | fuel + 1 => do
    if ← skip? .closeBracket then return []
    if !first then expect .comma
    if ← skip? .closeBracket then return []
    let item ←
      if ← skip? .key then
        let key ←
          if ← isNext [.value, .comma, .closeBracket] then
            drop
            pure .missing
          else readNode false false fuel
        let value ←
          if ← skip? .value then readNodeUnless [.comma, .closeBracket] false false fuel
          else pure .missing
        pure (.mapping [(key, value)])
      else readNode false false fuel
    return item :: (← readBracketItems false fuel)

/-- The pairs between braces. -/
def readBracePairs (first : Bool) : (fuel : Nat) → NodeM (List (Node × Node))
  | 0 => failure
  | fuel + 1 => do
    if ← skip? .closeBrace then return []
    if !first then expect .comma
    if ← skip? .closeBrace then return []
    let pair ←
      if ← skip? .key then
        let key ← readNodeUnless [.value, .comma, .closeBrace] false false fuel
        let value ←
          if ← skip? .value then readNodeUnless [.comma, .closeBrace] false false fuel
          else pure .missing
        pure (key, value)
      else pure (← readNode false false fuel, .missing)
    return pair :: (← readBracePairs false fuel)

end

/-! ### Documents -/

/-- Takes the directives in front of a document, of which there are at most `fuel`. A version is
declared at most once, and a handle too. -/
def takeDirectives : (fuel : Nat) → (versioned : Bool) → (declared : List Text) → NodeM Unit
  | 0, _, _ => failure
  | fuel + 1, versioned, declared => do
    match ← peek? with
    | some (.version major minor) =>
      if versioned || major ≠ 1 || (minor ≠ 1 && minor ≠ 2) then failure
      drop
      takeDirectives fuel true declared
    | some (.handle name) =>
      if declared.contains name then failure
      drop
      modify fun reading => { reading with handles := name :: reading.handles }
      takeDirectives fuel versioned (name :: declared)
    | _ => return

/-- Whether the next token is a directive or a mark of a document. -/
def atDocumentBoundary : NodeM Bool := do
  match ← peek? with
  | none | some .documentStart | some .documentEnd | some (.version _ _) | some (.handle _) =>
    return true
  | _ => return false

/-- The only document of a stream, or `none` if the stream is empty. -/
def readStream (fuel : Nat) : NodeM (Option Node) := do
  match ← peek? with
  | none => return none
  | some first =>
    let explicit :=
      match first with
      | .documentStart | .version _ _ | .handle _ => true
      | _ => false
    if explicit then
      takeDirectives fuel false []
      expect .documentStart
    let node ←
      if explicit && (← atDocumentBoundary) then pure .missing else readNode true false fuel
    modify fun reading => { reading with tokens := reading.tokens.dropWhile (· == .documentEnd) }
    if (← get).tokens.isEmpty then return some node else failure

/-- The document of a text, or `none` inside for a text without any. -/
def read? (content : Text) : Option (Option Document) := do
  let tokens ← tokens? content
  let (node?, reading) ← StateT.run (readStream (3 * tokens.length + 3)) (.start tokens)
  return node?.map (⟨·, reading.anchored⟩)

end Yaml

end ExplicitInstantiation
