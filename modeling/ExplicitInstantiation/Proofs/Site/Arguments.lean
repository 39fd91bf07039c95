import Mathlib.Data.List.Infix
import ExplicitInstantiation.Proofs.Source.Parts
import ExplicitInstantiation.Proofs.Text.Words
import ExplicitInstantiation.Site.Arguments

/-!
# Well bracketed argument lists

A list is written as its arguments with blanks around each of them, commas between them, and angle
brackets around the whole. What an argument has to be is said by `IsArgument`: its brackets are
closed, its commas are inside brackets, and its only blanks are single spaces between other
characters.

* **Such a list is captured** (`argumentList?_of_wellBracketed`). What is captured is what leads the
  capture back to where it started (`argumentList?_eq_some_iff`); blanks and commas do not matter to
  it, and each argument leaves it where it was.
* **It is cut into its arguments** (`topLevelParts_join`), before and after it is normalised,
  because the one depth of the cut is the number of brackets that are due (`depthAtEnd_of_foldlM`).
* **Normalising takes the blanks around the arguments away**, and leaves the single spaces inside
  them (`WrittenArgument.normalizeArgument_padded`, `Text.join_words`).
-/

namespace ExplicitInstantiation

/-! ### Arguments -/

/-- What an argument of a list has to be. -/
structure IsArgument (t : Text) : Prop where
  /-- Each bracket is closed by its own closing bracket. -/
  wellBracketed : WellBracketed t
  /-- No comma stands outside the brackets. -/
  commas : ∀ before after, t = before ++ ',' :: after → ¬ WellBracketed before
  /-- There is something. -/
  ne_nil : t ≠ []
  /-- It neither starts nor ends with a blank. -/
  trimmed : t.trim = t
  /-- Its blanks are single spaces. -/
  singleSpaced : t.SingleSpaced

instance (t : Text) : Decidable (IsArgument t) :=
  decidable_of_iff
    (WellBracketed t ∧
      (∀ before ∈ t.inits, (t.drop before.length).head? = some ',' → ¬ WellBracketed before) ∧
      t ≠ [] ∧ t.trim = t ∧ t.SingleSpaced) <| by
    constructor
    · rintro ⟨hbracketed, hcommas, hne, htrim, hsingle⟩
      refine ⟨hbracketed, ?_, hne, htrim, hsingle⟩
      rintro before after rfl
      exact hcommas before ((List.mem_inits ..).mpr (List.prefix_append ..)) (by simp)
    · intro h
      refine ⟨h.wellBracketed, ?_, h.ne_nil, h.trimmed, h.singleSpaced⟩
      intro before hbefore hcomma
      obtain ⟨after, rfl⟩ := (List.mem_inits before t).mp hbefore
      rw [List.drop_left] at hcomma
      obtain ⟨rest, rfl⟩ := List.head?_eq_some_iff.mp hcomma
      exact h.commas before rest rfl

/-- No comma of an argument separates it. -/
theorem IsArgument.unbroken {t : Text} (h : IsArgument t) : Unbroken 0 t := by
  rintro before after rfl hdepth
  have hwhole := h.wellBracketed
  rw [WellBracketed, List.foldlM_append] at hwhole
  obtain ⟨due, hbefore, -⟩ := Option.bind_eq_some_iff.mp hwhole
  obtain rfl : due = [] := by
    rw [← List.length_eq_zero_iff, ← depthAtEnd_of_foldlM hbefore]
    exact hdepth
  exact h.commas before after rfl hbefore

/-! ### Arguments with blanks around them -/

/-- An argument as it is written in a list. -/
structure WrittenArgument where
  /-- The blanks in front of it. -/
  lead : Text
  /-- The argument. -/
  text : Text
  /-- The blanks behind it. -/
  trail : Text
  /-- Only blanks stand in front. -/
  isBlank_lead : lead.all isBlank = true
  /-- What is written is an argument. -/
  isArgument : IsArgument text
  /-- Only blanks stand behind. -/
  isBlank_trail : trail.all isBlank = true

namespace WrittenArgument

/-- The argument with the blanks around it. -/
def padded (argument : WrittenArgument) : Text :=
  argument.lead ++ (argument.text ++ argument.trail)

/-- An argument is normalised to itself, whatever blanks stand around it. -/
theorem normalizeArgument_padded (argument : WrittenArgument) :
    normalizeArgument argument.padded = argument.text := by
  rw [normalizeArgument, padded, Text.words_append_of_blank argument.isBlank_lead,
    Text.words_append_blank argument.isBlank_trail]
  exact Text.join_words argument.isArgument.singleSpaced argument.isArgument.trimmed

/-- With blanks around it an argument stays well bracketed. -/
theorem wellBracketed_padded (argument : WrittenArgument) : WellBracketed argument.padded :=
  (WellBracketed.of_plain (plain_of_blank argument.isBlank_lead)).append <|
    argument.isArgument.wellBracketed.append (.of_plain (plain_of_blank argument.isBlank_trail))

/-- With blanks around it an argument has no comma that separates. -/
theorem unbroken_padded (argument : WrittenArgument) : Unbroken 0 argument.padded := by
  have hlead := plain_of_blank argument.isBlank_lead
  have htrail := plain_of_blank argument.isBlank_trail
  rw [padded, unbroken_append_iff, unbroken_append_iff, depthAtEnd_of_plain hlead,
    argument.isArgument.wellBracketed.depthAtEnd]
  exact ⟨unbroken_of_plain hlead 0, argument.isArgument.unbroken, unbroken_of_plain htrail 0⟩

/-- The text between the angle brackets of a list. -/
def listText (arguments : List WrittenArgument) : Text :=
  Text.join [','] (arguments.map padded)

end WrittenArgument

/-! ### Lists -/

/-- A list is captured from an angle bracket, which may stand behind blanks, to the closing one at
which the capture is back at its start. -/
theorem argumentList?_eq_some_iff {rest inner : Text} :
    argumentList? rest = some inner ↔
      ∃ gap after, gap.all isBlank = true ∧ rest = gap ++ '<' :: (inner ++ '>' :: after) ∧
        inner.foldlM AngleDepth.after .start = some .start := by
  unfold argumentList?
  constructor
  · intro h
    split at h
    next opened hstart =>
      obtain ⟨⟨captured, after⟩, hcut, rfl⟩ := Option.map_eq_some_iff.mp h
      obtain ⟨rfl, hinner⟩ := cutAtClosingAngleFrom_eq_some_iff.mp hcut
      refine ⟨rest.takeWhile isBlank, after, List.all_takeWhile, ?_, hinner⟩
      rw [← hstart]
      exact List.takeWhile_append_dropWhile.symm
    next => cases h
  · rintro ⟨gap, after, hgap, rfl, hinner⟩
    have hcut : cutAtClosingAngle (inner ++ '>' :: after) = some (inner, after) :=
      cutAtClosingAngleFrom_eq_some_iff.mpr ⟨rfl, hinner⟩
    rw [Text.trimStart_append_of_blank hgap, Text.trimStart_cons_of_not (by decide)]
    simp only [hcut, Option.map_some]

/-- What stands between the angle brackets is captured as a whole if it is well bracketed. -/
theorem argumentList?_of_wellBracketed {gap inner : Text} (hgap : gap.all isBlank = true)
    (hinner : WellBracketed inner) (rest : Text) :
    argumentList? (gap ++ '<' :: (inner ++ '>' :: rest)) = some inner :=
  argumentList?_eq_some_iff.mpr ⟨gap, rest, hgap, rfl, hinner.foldlM_after .start⟩

/-- The arguments are counted as the parts, unless there is nothing but an empty one. -/
theorem argumentCount_of_parts {t : Text} {parts : List Text} (hparts : topLevelParts t = parts)
    (hne : [] ∉ parts) : argumentCount t = parts.length := by
  have ht : t ≠ [] := by
    rintro rfl
    rw [← hparts, topLevelParts_nil] at hne
    exact hne List.mem_cons_self
  rw [argumentCount, if_neg (by simpa using ht), hparts]

namespace WrittenArgument

/-- A written list is cut into its arguments, with the blanks around them. -/
theorem topLevelParts_listText {arguments : List WrittenArgument} (hne : arguments ≠ []) :
    topLevelParts (listText arguments) = arguments.map padded := by
  refine topLevelParts_join (by simpa using hne) ?_
  rw [List.forall_mem_map]
  exact fun argument _ => ⟨argument.wellBracketed_padded, argument.unbroken_padded⟩

/-- The arguments without their blanks, joined by commas, are cut apart again. -/
theorem topLevelParts_texts {arguments : List WrittenArgument} (hne : arguments ≠ []) :
    topLevelParts (Text.join [','] (arguments.map text)) = arguments.map text := by
  refine topLevelParts_join (by simpa using hne) ?_
  rw [List.forall_mem_map]
  exact fun argument _ => ⟨argument.isArgument.wellBracketed, argument.isArgument.unbroken⟩

/-- A written list is normalised to its arguments, with a comma between each two. -/
theorem normalizeArguments_listText {arguments : List WrittenArgument} (hne : arguments ≠ []) :
    normalizeArguments (listText arguments) = Text.join [','] (arguments.map text) := by
  rw [normalizeArguments, topLevelParts_listText hne, List.map_map]
  congr 2
  funext argument
  exact argument.normalizeArgument_padded

/-- An argument is not empty. -/
theorem padded_ne_nil (argument : WrittenArgument) : argument.padded ≠ [] := by
  simp [padded, argument.isArgument.ne_nil]

/-- **Well bracketed argument lists are captured exactly.** Blanks may stand before the list and
around each of its arguments, and any text behind it. The capture gives the text between the
brackets; this has as many arguments as were written, and normalised it is these arguments with
commas between them, of which there are as many again and which are read back from it. -/
theorem argumentList?_captures {arguments : List WrittenArgument} (hne : arguments ≠ [])
    {gap : Text} (hgap : gap.all isBlank = true) (rest : Text) :
    argumentList? (gap ++ '<' :: (listText arguments ++ '>' :: rest)) =
        some (listText arguments) ∧
      argumentCount (listText arguments) = arguments.length ∧
      normalizeArguments (listText arguments) = Text.join [','] (arguments.map text) ∧
      argumentCount (normalizeArguments (listText arguments)) = arguments.length ∧
      topLevelParts (normalizeArguments (listText arguments)) = arguments.map text := by
  have hbracketed : WellBracketed (listText arguments) := by
    apply wellBracketed_join
    rw [List.forall_mem_map]
    exact fun argument _ => argument.wellBracketed_padded
  have hcount : argumentCount (listText arguments) = arguments.length := by
    have hpadded : [] ∉ arguments.map padded := by simp [padded_ne_nil]
    rw [argumentCount_of_parts (topLevelParts_listText hne) hpadded, List.length_map]
  have hcount' :
      argumentCount (Text.join [','] (arguments.map text)) = arguments.length := by
    have htexts : [] ∉ arguments.map text := by
      simpa using fun argument _ => argument.isArgument.ne_nil
    rw [argumentCount_of_parts (topLevelParts_texts hne) htexts, List.length_map]
  rw [normalizeArguments_listText hne]
  exact ⟨argumentList?_of_wellBracketed hgap hbracketed rest, hcount, rfl, hcount',
    topLevelParts_texts hne⟩

/-- `< std::pair<int, int>,f([1, 2])\t>` -/
def sampleArguments : List WrittenArgument :=
  [⟨[' '], "std::pair<int, int>".toList, [], .refl true, by decide, .refl true⟩,
    ⟨[], "f([1, 2])".toList, ['\t'], .refl true, by decide, .refl true⟩]

/-- Two arguments with commas of their own, in front of brackets that are not closed. -/
theorem argumentList?_captures_sample :
    argumentList? "  < std::pair<int, int>,f([1, 2])\t>> (x".toList =
        some " std::pair<int, int>,f([1, 2])\t".toList ∧
      normalizeArguments " std::pair<int, int>,f([1, 2])\t".toList =
        "std::pair<int, int>,f([1, 2])".toList ∧
      topLevelParts "std::pair<int, int>,f([1, 2])".toList =
        ["std::pair<int, int>".toList, "f([1, 2])".toList] := by
  have hne : sampleArguments ≠ [] := List.cons_ne_nil _ _
  have hgap : [' ', ' '].all isBlank = true := by decide
  obtain ⟨hcapture, -, hnormal, -, hparts⟩ := argumentList?_captures hne hgap "> (x".toList
  rw [hnormal] at hparts
  exact ⟨hcapture, hnormal, hparts⟩

end WrittenArgument

end ExplicitInstantiation
