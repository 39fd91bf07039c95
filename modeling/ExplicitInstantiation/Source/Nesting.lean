import ExplicitInstantiation.Text.Basic

/-!
# Nesting of brackets

Two readings of nested brackets are used on source text.

* `topLevelParts` cuts a list at its commas. One depth counts all four kinds of brackets, and a
  closing bracket without an opening one leaves the depth at zero.
* `cutAtClosingAngle` finds the `>` that closes an angle bracket already opened. Inside
  parentheses, square brackets and braces `<` and `>` are operators and do not count.
-/

namespace ExplicitInstantiation

/-- Whether `c` opens a bracket of any kind. -/
def isOpener (c : Char) : Bool :=
  c == '<' || c == '(' || c == '[' || c == '{'

/-- Whether `c` closes a bracket of any kind. -/
def isCloser (c : Char) : Bool :=
  c == '>' || c == ')' || c == ']' || c == '}'

/-- The depth after `c`, for a depth that counts all brackets alike. -/
def depthAfter (depth : Nat) (c : Char) : Nat :=
  if isOpener c then depth + 1
  else if isCloser c then depth - 1
  else depth

/-- The parts of a text between the commas at depth zero, when the text starts at `depth`. -/
def partsFrom (depth : Nat) : Text → List Text
  | [] => [[]]
  | c :: rest =>
    if c = ',' ∧ depth = 0 then [] :: partsFrom 0 rest
    else (partsFrom (depthAfter depth c) rest).modifyHead (c :: ·)

/-- The parts of a text between its commas outside all brackets; the empty text is one part. -/
def topLevelParts (t : Text) : List Text :=
  partsFrom 0 t

/-- There is always a part. -/
theorem partsFrom_ne_nil (depth : Nat) (t : Text) : partsFrom depth t ≠ [] := by
  induction t generalizing depth with
  | nil => simp [partsFrom]
  | cons c rest ih =>
    rw [partsFrom]
    split
    · simp
    · cases h : partsFrom (depthAfter depth c) rest with
      | nil => exact absurd h (ih _)
      | cons _ _ => simp

/-- The empty text is its only part. -/
theorem topLevelParts_nil : topLevelParts [] = [[]] := rfl

/-- The number of commas outside all brackets. -/
def topLevelCommas (t : Text) : Nat :=
  (topLevelParts t).length - 1

/-! ### Angle brackets -/

/-- Where a reading of angle brackets stands. -/
structure AngleDepth where
  /-- Angle brackets opened and not closed, beyond the one to be closed. -/
  angles : Nat
  /-- Parentheses, square brackets and braces opened and not closed. -/
  groups : Nat
  deriving Repr, DecidableEq

namespace AngleDepth

/-- Right after the angle bracket that is to be closed. -/
def start : AngleDepth := ⟨0, 0⟩

/-- The depth after `c`; `none` when `c` closes the angle bracket that is to be closed. -/
def after (depth : AngleDepth) (c : Char) : Option AngleDepth :=
  if c == '(' || c == '[' || c == '{' then some { depth with groups := depth.groups + 1 }
  else if c == ')' || c == ']' || c == '}' then some { depth with groups := depth.groups - 1 }
  else if c == '<' && depth.groups == 0 then some { depth with angles := depth.angles + 1 }
  else if c == '>' && depth.groups == 0 then
    if depth.angles = 0 then none else some { depth with angles := depth.angles - 1 }
  else some depth

/-- Only a `>` outside all other brackets closes the angle bracket. -/
theorem after_eq_none_iff {depth : AngleDepth} {c : Char} :
    depth.after c = none ↔ c = '>' ∧ depth = start := by
  obtain ⟨angles, groups⟩ := depth
  grind [after, start]

end AngleDepth

/-- What stands before and after the closing angle bracket, read from `depth` on. -/
def cutAtClosingAngleFrom (depth : AngleDepth) : Text → Option (Text × Text)
  | [] => none
  | c :: rest =>
    match depth.after c with
    | none => some ([], rest)
    | some depth =>
      (cutAtClosingAngleFrom depth rest).map fun (inner, after) => (c :: inner, after)

/-- Cuts a text that follows a `<` at the `>` that closes it. -/
def cutAtClosingAngle (t : Text) : Option (Text × Text) :=
  cutAtClosingAngleFrom .start t

end ExplicitInstantiation
