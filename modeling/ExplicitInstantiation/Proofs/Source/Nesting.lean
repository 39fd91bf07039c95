import ExplicitInstantiation.Source.Nesting

/-!
# The two readings of nested brackets

An argument list is captured by one reading of brackets and cut into its arguments by another. The
capture keeps two depths and passes over angle brackets inside parentheses, square brackets and
braces; the cut keeps one depth for all brackets. `angleParts` cuts a text where the capture would:
at the commas at which it stands right behind the angle bracket to be closed.

* **They agree on nested brackets** (`topLevelParts_eq_angleParts`). The brackets that are open at a
  place of such a text form a stack. Its height is the one depth, and the two depths can be read off
  it (`AngleDepth.ofOpen`); all of them are zero exactly where the stack is empty.
* **They disagree on operators in parentheses** (`topLevelParts_ne_angleParts`). A `<` or `>` that
  is an operator is passed over by one reading and counted by the other.

What is captured is the text in front of a closing angle bracket that leads the capture back to
where it started (`cutAtClosingAngleFrom_eq_some_iff`). Text whose brackets are all closed, each by
its own closing bracket (`WellBracketed`), does not move the capture (`WellBracketed.foldlM_after`),
and is captured as a whole if it is all that an angle bracket holds
(`cutAtClosingAngle_of_wellBracketed`).

The last section says what a piece of text does to the depth behind it (`depthAtEnd`) and to the
number of parts.
-/

namespace ExplicitInstantiation

/-! ### Where the capture would cut -/

/-- The parts of a text between the commas at which the capture of an argument list, going on from
`depth`, stands right behind the angle bracket to be closed. -/
def anglePartsFrom (depth : AngleDepth) : Text → List Text
  | [] => [[]]
  | c :: rest =>
    if c = ',' ∧ depth = .start then [] :: anglePartsFrom depth rest
    else (anglePartsFrom ((depth.after c).getD depth) rest).modifyHead (c :: ·)

/-- The parts of an argument list as the capture sees them. -/
def angleParts (t : Text) : List Text :=
  anglePartsFrom .start t

/-! ### Nested brackets -/

/-- The kinds of brackets that the capture tells apart. -/
inductive Bracket where
  /-- `<` -/
  | angle
  /-- `(`, `[` or `{` -/
  | group
  deriving Repr, DecidableEq

/-- The brackets that are open behind `c`, the innermost first, when `opened` are those before it. A
closing bracket must be of the kind of the innermost one; only outside all brackets a group may be
closed that was not opened. -/
def Bracket.after (opened : List Bracket) (c : Char) : Option (List Bracket) :=
  if c == '<' then some (angle :: opened)
  else if c == '(' || c == '[' || c == '{' then some (group :: opened)
  else if c == '>' then
    match opened with
    | angle :: outer => some outer
    | _ => none
  else if c == ')' || c == ']' || c == '}' then
    match opened with
    | group :: outer => some outer
    | [] => some []
    | angle :: _ => none
  else some opened

/-- Whether every bracket is closed by one of its own kind, when `opened` are open at first. -/
def nestedFrom (opened : List Bracket) : Text → Bool
  | [] => true
  | c :: rest =>
    match Bracket.after opened c with
    | some opened => nestedFrom opened rest
    | none => false

/-- Whether every bracket of a text is closed by one of its own kind, if it is closed. -/
def nested (t : Text) : Bool :=
  nestedFrom [] t

/-- Where the capture stands inside open brackets: angle brackets count up to the first group. -/
def AngleDepth.ofOpen : List Bracket → AngleDepth
  | [] => start
  | .angle :: outer =>
    if (ofOpen outer).groups = 0 then { ofOpen outer with angles := (ofOpen outer).angles + 1 }
    else ofOpen outer
  | .group :: outer => { ofOpen outer with groups := (ofOpen outer).groups + 1 }

/-- The capture stands at its start only outside all brackets. -/
theorem AngleDepth.ofOpen_eq_start_iff {opened : List Bracket} :
    ofOpen opened = start ↔ opened = [] := by
  constructor
  · intro h
    rcases opened with _ | ⟨bracket, outer⟩
    · rfl
    · cases bracket with
      | angle =>
        rw [ofOpen] at h
        split at h
        · simp [start] at h
        · rename_i hgroups
          rw [h] at hgroups
          exact absurd rfl hgroups
      | group => simp [ofOpen, start] at h
  · rintro rfl
    rfl

/-- What a character does to the open brackets. -/
theorem Bracket.after_cases {opened opened' : List Bracket} {c : Char}
    (h : Bracket.after opened c = some opened') :
    (c = '<' ∧ opened' = angle :: opened) ∨
      ((c = '(' ∨ c = '[' ∨ c = '{') ∧ opened' = group :: opened) ∨
      (c = '>' ∧ opened = angle :: opened') ∨
      ((c = ')' ∨ c = ']' ∨ c = '}') ∧ (opened = group :: opened' ∨ opened = [] ∧ opened' = [])) ∨
      (isOpener c = false ∧ isCloser c = false ∧ opened' = opened) := by
  unfold after at h
  split at h
  next hc =>
    cases h
    exact .inl ⟨eq_of_beq hc, rfl⟩
  split at h
  next hc =>
    cases h
    exact .inr (.inl ⟨by simpa [or_assoc] using hc, rfl⟩)
  split at h
  next hc =>
    split at h
    · cases h
      exact .inr (.inr (.inl ⟨eq_of_beq hc, rfl⟩))
    · cases h
  split at h
  next hc =>
    have hcloser : c = ')' ∨ c = ']' ∨ c = '}' := by simpa [or_assoc] using hc
    split at h
    · cases h
      exact .inr (.inr (.inr (.inl ⟨hcloser, .inl rfl⟩)))
    · cases h
      exact .inr (.inr (.inr (.inl ⟨hcloser, .inr ⟨rfl, rfl⟩⟩)))
    · cases h
  next =>
    cases h
    refine .inr (.inr (.inr (.inr ⟨?_, ?_, rfl⟩)))
    · simp_all [isOpener]
    · simp_all [isCloser]

/-- On nested brackets the two readings go on together. -/
theorem Bracket.depth_after {opened opened' : List Bracket} {c : Char}
    (h : Bracket.after opened c = some opened') :
    (AngleDepth.ofOpen opened).after c = some (AngleDepth.ofOpen opened') ∧
      depthAfter opened.length c = opened'.length := by
  rcases after_cases h with ⟨rfl, rfl⟩ | ⟨hc, rfl⟩ | ⟨rfl, rfl⟩ | ⟨hc, rfl | ⟨rfl, rfl⟩⟩ |
    ⟨hopener, hcloser, rfl⟩
  · refine ⟨?_, rfl⟩
    by_cases hgroups : (AngleDepth.ofOpen opened).groups = 0 <;>
      simp [AngleDepth.after, AngleDepth.ofOpen, hgroups]
  · rcases hc with rfl | rfl | rfl <;> exact ⟨rfl, rfl⟩
  · refine ⟨?_, rfl⟩
    rcases hdepth : AngleDepth.ofOpen opened' with ⟨angles, groups⟩
    by_cases hgroups : groups = 0 <;> simp [AngleDepth.after, AngleDepth.ofOpen, hdepth, hgroups]
  · rcases hc with rfl | rfl | rfl <;> exact ⟨rfl, rfl⟩
  · rcases hc with rfl | rfl | rfl <;> exact ⟨rfl, rfl⟩
  · constructor
    · simp_all [AngleDepth.after, isOpener, isCloser]
    · simp [depthAfter, hopener, hcloser]

/-- Inside open brackets, a nested text is cut by both readings at the same commas. -/
theorem partsFrom_eq_anglePartsFrom {opened : List Bracket} {t : Text}
    (h : nestedFrom opened t = true) :
    partsFrom opened.length t = anglePartsFrom (.ofOpen opened) t := by
  induction t generalizing opened with
  | nil => rfl
  | cons c rest ih =>
    rw [nestedFrom] at h
    split at h
    next opened' hafter =>
      obtain ⟨hangle, hdepth⟩ := Bracket.depth_after hafter
      have hstart : c = ',' ∧ AngleDepth.ofOpen opened = .start ↔ c = ',' ∧ opened.length = 0 := by
        rw [AngleDepth.ofOpen_eq_start_iff, List.length_eq_zero_iff]
      rw [partsFrom, anglePartsFrom]
      simp only [hstart]
      split
      next hcut =>
        obtain ⟨rfl, hnil⟩ := hcut
        obtain rfl := List.length_eq_zero_iff.mp hnil
        obtain rfl : [] = opened' := by simpa [Bracket.after] using hafter
        exact congrArg ([] :: ·) (ih h)
      next => rw [hangle, hdepth, Option.getD_some, ih h]
    next => cases h

/-- **Nested argument lists are cut as they were captured.** Where every bracket is closed by one of
its own kind, the cut is at exactly those commas at which the capture stands right behind the angle
bracket to be closed. -/
theorem topLevelParts_eq_angleParts {t : Text} (h : nested t = true) :
    topLevelParts t = angleParts t :=
  partsFrom_eq_anglePartsFrom h

/-- Calls and template arguments inside one another are nested. -/
theorem topLevelParts_eq_angleParts_calls :
    nested "f(g<int>(0),1),std::pair<int,int>,3".toList = true ∧
      angleParts "f(g<int>(0),1),std::pair<int,int>,3".toList =
        ["f(g<int>(0),1)".toList, "std::pair<int,int>".toList, ['3']] := by
  have hnested : nested "f(g<int>(0),1),std::pair<int,int>,3".toList = true := by decide
  refine ⟨hnested, ?_⟩
  rw [← topLevelParts_eq_angleParts hnested]
  decide

/-- A comparison in parentheses, which the capture passes over, joins two arguments or breaks one in
two. -/
theorem topLevelParts_ne_angleParts :
    (cutAtClosingAngle "(a<b),c>".toList = some ("(a<b),c".toList, []) ∧
      angleParts "(a<b),c".toList = ["(a<b)".toList, ['c']] ∧
      topLevelParts "(a<b),c".toList = ["(a<b),c".toList]) ∧
    (cutAtClosingAngle "(a>b,c)>".toList = some ("(a>b,c)".toList, []) ∧
      angleParts "(a>b,c)".toList = ["(a>b,c)".toList] ∧
      topLevelParts "(a>b,c)".toList = ["(a>b".toList, "c)".toList]) := by
  decide

/-! ### Well bracketed texts -/

/-- The bracket that closes what `c` opens. -/
def closerOf? (c : Char) : Option Char :=
  if c = '<' then some '>'
  else if c = '(' then some ')'
  else if c = '[' then some ']'
  else if c = '{' then some '}'
  else none

/-- The closing brackets that are due behind `c`, the next one first, when `due` are those before
it. A closing bracket that is not the next one is refused. -/
def dueAfter (due : List Char) (c : Char) : Option (List Char) :=
  match closerOf? c with
  | some closer => some (closer :: due)
  | none =>
    if isCloser c then
      if due.head? = some c then some due.tail else none
    else some due

/-- Whether each bracket of a text is closed, by the closing bracket of its kind. -/
def WellBracketed (t : Text) : Prop :=
  t.foldlM dueAfter [] = some []

instance (t : Text) : Decidable (WellBracketed t) :=
  inferInstanceAs (Decidable (_ = _))

/-- The kind of a bracket, by its closing bracket. -/
def Bracket.ofCloser (closer : Char) : Bracket :=
  if closer = '>' then angle else group

/-- A character is one of the four opening brackets, or it opens nothing. -/
theorem opener_cases (c : Char) :
    (c = '<' ∨ c = '(' ∨ c = '[' ∨ c = '{') ∨ closerOf? c = none ∧ isOpener c = false := by
  by_cases hopener : isOpener c = true
  · exact .inl (by simpa [isOpener, or_assoc] using hopener)
  · exact .inr (by simp_all [isOpener, closerOf?])

/-- What is due of a well bracketed text is what is open in it. -/
theorem Bracket.after_of_dueAfter {due due' : List Char} {c : Char}
    (h : dueAfter due c = some due') :
    Bracket.after (due.map ofCloser) c = some (due'.map ofCloser) := by
  rcases opener_cases c with hc | ⟨hcloser, hopener⟩
  · rcases hc with rfl | rfl | rfl | rfl <;>
    · cases h
      rfl
  · simp only [dueAfter, hcloser] at h
    split at h
    next hcloses =>
      have hc : c = '>' ∨ c = ')' ∨ c = ']' ∨ c = '}' := by
        simpa [isCloser, or_assoc] using hcloses
      split at h
      next hhead =>
        cases h
        obtain ⟨outer, rfl⟩ := List.head?_eq_some_iff.mp hhead
        rcases hc with rfl | rfl | rfl | rfl <;> rfl
      next => cases h
    next hcloses =>
      cases h
      simp_all [Bracket.after, isOpener, isCloser]

/-- Brackets that are open further out do not matter for a character inside. -/
theorem dueAfter_append {due due' : List Char} {c : Char} (h : dueAfter due c = some due')
    (outer : List Char) : dueAfter (due ++ outer) c = some (due' ++ outer) := by
  rcases hcloser : closerOf? c with _ | closer
  · simp only [dueAfter, hcloser] at h ⊢
    split at h
    next hcloses =>
      split at h
      next hhead =>
        obtain ⟨rest, rfl⟩ := List.head?_eq_some_iff.mp hhead
        cases h
        simp [hcloses]
      next => cases h
    next hcloses =>
      cases h
      rw [if_neg hcloses]
  · simp only [dueAfter, hcloser] at h ⊢
    cases h
    rfl

/-- What was due before a text stays due behind what is due of the text. -/
theorem foldlM_dueAfter_append {t : Text} {due due' : List Char}
    (h : t.foldlM dueAfter due = some due') (outer : List Char) :
    t.foldlM dueAfter (due ++ outer) = some (due' ++ outer) := by
  induction t generalizing due with
  | nil =>
    cases h
    rfl
  | cons c t ih =>
    obtain ⟨next, hnext, h⟩ := Option.bind_eq_some_iff.mp h
    rw [List.foldlM_cons, dueAfter_append hnext]
    exact ih h

/-- A well bracketed text leaves due what was. -/
theorem WellBracketed.foldlM_dueAfter {t : Text} (h : WellBracketed t) (due : List Char) :
    t.foldlM dueAfter due = some due :=
  foldlM_dueAfter_append h due

/-! ### What is captured -/

/-- The capture ends in front of the first closing angle bracket at which it stands right behind the
angle bracket to be closed. -/
theorem cutAtClosingAngleFrom_eq_some_iff {depth : AngleDepth} {t inner after : Text} :
    cutAtClosingAngleFrom depth t = some (inner, after) ↔
      t = inner ++ '>' :: after ∧ inner.foldlM AngleDepth.after depth = some .start := by
  induction inner generalizing depth t with
  | nil =>
    rcases t with _ | ⟨c, t⟩
    · simp [cutAtClosingAngleFrom]
    rw [cutAtClosingAngleFrom, List.nil_append, List.foldlM_nil]
    rcases hafter : depth.after c with _ | next
    · obtain ⟨rfl, rfl⟩ := AngleDepth.after_eq_none_iff.mp hafter
      simp
    · simp only [Option.map_eq_some_iff, Prod.mk.injEq, reduceCtorEq, false_and, and_false,
        exists_false, false_iff, not_and]
      intro ht hstart
      cases ht
      cases hstart
      cases hafter
  | cons d inner ih =>
    rcases t with _ | ⟨c, t⟩
    · simp [cutAtClosingAngleFrom]
    rw [cutAtClosingAngleFrom, List.cons_append, List.cons.injEq, List.foldlM_cons]
    rcases hafter : depth.after c with _ | next
    · simp only [Option.some.injEq, Prod.mk.injEq, reduceCtorEq, false_and, false_iff, not_and]
      rintro ⟨rfl, rfl⟩ hfold
      rw [hafter] at hfold
      cases hfold
    · simp only [Option.map_eq_some_iff, Prod.exists, Prod.mk.injEq, List.cons.injEq]
      constructor
      · rintro ⟨inner', after', hcut, ⟨rfl, rfl⟩, rfl⟩
        obtain ⟨rfl, hfold⟩ := ih.mp hcut
        rw [hafter]
        exact ⟨⟨rfl, rfl⟩, hfold⟩
      · rintro ⟨⟨rfl, rfl⟩, hfold⟩
        rw [hafter] at hfold
        exact ⟨inner, after, ih.mpr ⟨rfl, hfold⟩, ⟨rfl, rfl⟩, rfl⟩

/-- Of what is due, the capture keeps the two depths. -/
theorem foldlM_after_of_foldlM {t : Text} {due due' : List Char}
    (h : t.foldlM dueAfter due = some due') :
    t.foldlM AngleDepth.after (.ofOpen (due.map Bracket.ofCloser)) =
      some (.ofOpen (due'.map Bracket.ofCloser)) := by
  induction t generalizing due with
  | nil =>
    cases h
    rfl
  | cons c t ih =>
    obtain ⟨next, hnext, h⟩ := Option.bind_eq_some_iff.mp h
    rw [List.foldlM_cons, (Bracket.depth_after (Bracket.after_of_dueAfter hnext)).1]
    exact ih h

/-- Wherever the capture stands, some closing brackets are due. -/
theorem AngleDepth.exists_due (depth : AngleDepth) :
    ∃ due : List Char, ofOpen (due.map Bracket.ofCloser) = depth := by
  obtain ⟨angles, groups⟩ := depth
  refine ⟨List.replicate groups ')' ++ List.replicate angles '>', ?_⟩
  rw [List.map_append, List.map_replicate, List.map_replicate]
  have hangles : ofOpen (List.replicate angles (Bracket.ofCloser '>')) = ⟨angles, 0⟩ := by
    induction angles with
    | zero => rfl
    | succ angles ih =>
      rw [List.replicate_succ]
      show ofOpen (.angle :: _) = _
      rw [ofOpen, ih, if_pos rfl]
  induction groups with
  | zero => exact hangles
  | succ groups ih =>
    rw [List.replicate_succ, List.cons_append]
    show ofOpen (.group :: _) = _
    rw [ofOpen, ih]

/-- The capture passes over a well bracketed text. -/
theorem WellBracketed.foldlM_after {t : Text} (h : WellBracketed t) (depth : AngleDepth) :
    t.foldlM AngleDepth.after depth = some depth := by
  obtain ⟨due, rfl⟩ := depth.exists_due
  exact foldlM_after_of_foldlM (h.foldlM_dueAfter due)

/-- An angle bracket that holds a well bracketed text is closed behind it. -/
theorem cutAtClosingAngle_of_wellBracketed {t : Text} (h : WellBracketed t) (rest : Text) :
    cutAtClosingAngle (t ++ '>' :: rest) = some (t, rest) :=
  cutAtClosingAngleFrom_eq_some_iff.mpr ⟨rfl, h.foldlM_after .start⟩

/-! ### The number of parts -/

/-- The depth behind a text that starts at `depth`. -/
def depthAtEnd (depth : Nat) (t : Text) : Nat :=
  t.foldl depthAfter depth

/-- Nothing leaves the depth as it is. -/
@[simp] theorem depthAtEnd_nil (depth : Nat) : depthAtEnd depth [] = depth := rfl

/-- The depth behind a text is reached character by character. -/
@[simp] theorem depthAtEnd_cons (depth : Nat) (c : Char) (rest : Text) :
    depthAtEnd depth (c :: rest) = depthAtEnd (depthAfter depth c) rest := rfl

/-- A character keeps the order of two depths. -/
theorem depthAfter_mono {depth depth' : Nat} (h : depth ≤ depth') (c : Char) :
    depthAfter depth c ≤ depthAfter depth' c := by
  unfold depthAfter
  split
  · omega
  · split <;> omega

/-- A start that is deeper by some levels is deeper by no more than these behind a character. -/
theorem depthAfter_add_le (depth extra : Nat) (c : Char) :
    depthAfter (depth + extra) c ≤ depthAfter depth c + extra := by
  unfold depthAfter
  split
  · omega
  · split <;> omega

/-- A text that starts deeper ends no less deep. -/
theorem depthAtEnd_mono {depth depth' : Nat} (h : depth ≤ depth') (t : Text) :
    depthAtEnd depth t ≤ depthAtEnd depth' t := by
  induction t generalizing depth depth' with
  | nil => exact h
  | cons c rest ih => exact ih (depthAfter_mono h c)

/-- Started deeper, a text ends deeper by no more than that. -/
theorem depthAtEnd_add_le (depth extra : Nat) (t : Text) :
    depthAtEnd (depth + extra) t ≤ depthAtEnd depth t + extra := by
  induction t generalizing depth with
  | nil => exact Nat.le_refl _
  | cons c rest ih =>
    calc depthAtEnd (depthAfter (depth + extra) c) rest
      _ ≤ depthAtEnd (depthAfter depth c + extra) rest :=
        depthAtEnd_mono (depthAfter_add_le depth extra c) rest
      _ ≤ depthAtEnd (depthAfter depth c) rest + extra := ih _

/-- A text that closes what it opens never ends deeper than it starts. -/
theorem depthAtEnd_le_of_zero {t : Text} (h : depthAtEnd 0 t = 0) (depth : Nat) :
    depthAtEnd depth t ≤ depth := by
  have hle := depthAtEnd_add_le 0 depth t
  rwa [h, Nat.zero_add] at hle

/-- A comma at depth zero starts one more part. -/
theorem length_partsFrom_comma (rest : Text) :
    (partsFrom 0 (',' :: rest)).length = (partsFrom 0 rest).length + 1 := by
  simp [partsFrom]

/-- Any other character starts no part. -/
theorem length_partsFrom_cons {depth : Nat} {c : Char} (h : ¬ (c = ',' ∧ depth = 0)) (rest : Text) :
    (partsFrom depth (c :: rest)).length = (partsFrom (depthAfter depth c) rest).length := by
  rw [partsFrom, if_neg h, List.length_modifyHead]

/-- Text in front takes no parts away. -/
theorem length_partsFrom_le_append (depth : Nat) (s t : Text) :
    (partsFrom (depthAtEnd depth s) t).length ≤ (partsFrom depth (s ++ t)).length := by
  induction s generalizing depth with
  | nil => exact Nat.le_refl _
  | cons c s ih =>
    rw [List.cons_append, depthAtEnd_cons]
    by_cases hcut : c = ',' ∧ depth = 0
    · obtain ⟨rfl, rfl⟩ := hcut
      rw [length_partsFrom_comma]
      exact Nat.le_succ_of_le (ih 0)
    · rw [length_partsFrom_cons hcut]
      exact ih _

end ExplicitInstantiation
