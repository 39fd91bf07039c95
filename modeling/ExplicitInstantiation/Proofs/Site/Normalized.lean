import ExplicitInstantiation.Proofs.Source.Parts
import ExplicitInstantiation.Proofs.Text.Words
import ExplicitInstantiation.Site.Arguments

/-!
# Normalising keeps the arguments

A list is normalised part by part. A normalised part has the commas and brackets of the part
(`marks_normalizeArgument`), so the list is cut as before (`topLevelParts_normalizeArguments`).

Two lists are normalised alike exactly if their parts have the same words
(`normalizeArguments_eq_iff`). What does not matter to the words of the parts, therefore, does not
matter to the normal form: which blanks stand between two words, and whether any stand at the ends
of a part.
-/

namespace ExplicitInstantiation

/-! ### Normal parts -/

/-- An argument is normalised by trimming it and collapsing the blanks inside. -/
theorem normalizeArgument_eq (argument : Text) :
    normalizeArgument argument = argument.trim.collapseBlanks := by
  rw [normalizeArgument, Text.collapseBlanks_trim]

/-- To normalise an argument keeps its words. -/
theorem words_normalizeArgument (argument : Text) :
    (normalizeArgument argument).words = argument.words :=
  Text.words_join fun _ => Text.isWord_of_mem_words

/-- To normalise an argument again changes nothing. -/
theorem normalizeArgument_normalizeArgument (argument : Text) :
    normalizeArgument (normalizeArgument argument) = normalizeArgument argument := by
  rw [normalizeArgument, words_normalizeArgument, normalizeArgument]

/-- Blanks are all that an argument loses. -/
theorem marks_normalizeArgument (argument : Text) :
    marks (normalizeArgument argument) = marks argument := by
  rw [normalizeArgument, marks_join_of_plain (by decide), Text.flatten_words, marks, marks,
    List.filter_filter]
  apply List.filter_congr
  intro c _
  rcases hblank : isBlank c with _ | _
  · rw [Bool.not_false, Bool.and_true]
  · have hplain : [c].all isPlain = true := plain_of_blank (by simpa using hblank)
    rw [List.all_cons, Bool.and_eq_true] at hplain
    rw [hplain.1]
    rfl

/-! ### Normal lists -/

/-- The parts of a normalised list are the normalised parts. -/
theorem topLevelParts_normalizeArguments (t : Text) :
    topLevelParts (normalizeArguments t) = (topLevelParts t).map normalizeArgument := by
  rw [← cutsInto_iff]
  apply (cutsInto_topLevelParts t).of_forall₂
  rw [List.forall₂_map_right_iff, List.forall₂_same]
  intro part _
  exact keepsCut_of_marks_eq (marks_normalizeArgument part)

/-- To normalise a list keeps its commas and brackets. -/
theorem marks_normalizeArguments (t : Text) : marks (normalizeArguments t) = marks t := by
  conv_rhs => rw [(cutsInto_topLevelParts t).eq_join]
  refine Text.join_related (R := fun part result => marks result = marks part) (fun _ => rfl)
    ?_ _ ?_
  · intro s s' t t' hs ht
    rw [marks_append, hs, ht, marks_append]
  · rw [List.forall₂_map_right_iff, List.forall₂_same]
    intro part _
    exact marks_normalizeArgument part

/-- Lists are normalised alike if their parts have the same words. -/
theorem normalizeArguments_eq_iff {s t : Text} :
    normalizeArguments s = normalizeArguments t ↔
      (topLevelParts s).map Text.words = (topLevelParts t).map Text.words := by
  constructor
  · intro h
    have hparts := congrArg (fun t => (topLevelParts t).map Text.words) h
    simpa only [topLevelParts_normalizeArguments, List.map_map, Function.comp_def,
      words_normalizeArgument] using hparts
  · intro h
    have hjoin := congrArg (fun words => Text.join [','] (words.map (Text.join [' ']))) h
    rwa [List.map_map, List.map_map] at hjoin

/-- To normalise a list again changes nothing. -/
theorem normalizeArguments_normalizeArguments (t : Text) :
    normalizeArguments (normalizeArguments t) = normalizeArguments t := by
  rw [normalizeArguments_eq_iff, topLevelParts_normalizeArguments, List.map_map]
  apply List.map_congr_left
  intro part _
  exact words_normalizeArgument part

/-- Nothing is left of a list exactly if it holds nothing but blanks. -/
theorem normalizeArguments_eq_nil_iff {t : Text} :
    normalizeArguments t = [] ↔ t.all isBlank = true := by
  constructor
  · intro h
    have hparts := topLevelParts_normalizeArguments t
    rw [h, topLevelParts_nil, eq_comm, List.map_eq_singleton_iff] at hparts
    obtain ⟨part, hpart, hnil⟩ := hparts
    obtain rfl : t = part := by
      rw [(cutsInto_topLevelParts t).eq_join, hpart, Text.join_singleton]
    rw [← Text.words_eq_nil_iff, ← words_normalizeArgument, hnil, Text.words_nil]
  · intro h
    have hpart : topLevelParts t = [t] :=
      partsFrom_of_unbroken (unbroken_of_plain (plain_of_blank h) 0)
    rw [normalizeArguments, hpart, List.map_singleton, Text.join_singleton, normalizeArgument,
      Text.words_eq_nil_iff.mpr h, Text.join_nil]

/-- A normalised list has as many arguments as the list has parts, and a blank list has none. -/
theorem argumentCount_normalizeArguments (t : Text) :
    argumentCount (normalizeArguments t) =
      if t.all isBlank then 0 else (topLevelParts t).length := by
  have hempty : (normalizeArguments t).isEmpty = t.all isBlank := by
    rw [Bool.eq_iff_iff, List.isEmpty_iff, normalizeArguments_eq_nil_iff]
  rw [argumentCount, hempty, topLevelParts_normalizeArguments, List.length_map]

/-! ### Blanks that do not matter -/

/-- Blanks in front of a text stand in its first part. -/
theorem map_words_partsFrom_append_blank {blanks : Text} (h : blanks.all isBlank = true)
    (depth : Nat) (t : Text) :
    (partsFrom depth (blanks ++ t)).map Text.words = (partsFrom depth t).map Text.words := by
  have hplain := plain_of_blank h
  rw [partsFrom_append (unbroken_of_plain hplain depth), depthAtEnd_of_plain hplain]
  rcases hparts : partsFrom depth t with _ | ⟨part, parts⟩
  · rfl
  · rw [List.modifyHead_cons, List.map_cons, List.map_cons, Text.words_append_of_blank h]

/-- Between two words stand some blanks; which ones does not matter. -/
theorem normalizeArguments_gap {gap gap' : Text} (hne : gap ≠ []) (hgap : gap.all isBlank = true)
    (hne' : gap' ≠ []) (hgap' : gap'.all isBlank = true) (before after : Text) :
    normalizeArguments (before ++ (gap ++ after)) =
      normalizeArguments (before ++ (gap' ++ after)) := by
  obtain ⟨parts, part, hbefore⟩ := exists_partsFrom_append 0 before
  have hparts {gap : Text} (hne : gap ≠ []) (hgap : gap.all isBlank = true) :
      (topLevelParts (before ++ (gap ++ after))).map Text.words = parts.map Text.words ++
        ((partsFrom (depthAtEnd 0 before) after).map Text.words).modifyHead (part.words ++ ·) := by
    have hplain := plain_of_blank hgap
    rw [topLevelParts, hbefore, partsFrom_append (unbroken_of_plain hplain _),
      depthAtEnd_of_plain hplain, List.map_append, List.modifyHead_modifyHead]
    rcases partsFrom (depthAtEnd 0 before) after with _ | ⟨first, others⟩
    · rfl
    · simp only [List.modifyHead_cons, List.map_cons, Function.comp_apply,
        Text.words_append_gap hne hgap]
  rw [normalizeArguments_eq_iff, hparts hne hgap, hparts hne' hgap']

/-- Blanks on both sides of a comma between two parts do not matter. -/
theorem normalizeArguments_comma {before : Text} (hbefore : depthAtEnd 0 before = 0)
    {lead trail : Text} (hlead : lead.all isBlank = true) (htrail : trail.all isBlank = true)
    (after : Text) :
    normalizeArguments (before ++ (lead ++ ',' :: (trail ++ after))) =
      normalizeArguments (before ++ ',' :: after) := by
  obtain ⟨parts, part, hparts⟩ := exists_partsFrom_append 0 before
  have hplain := plain_of_blank hlead
  have hcomma (rest : Text) : partsFrom 0 (',' :: rest) = [] :: partsFrom 0 rest :=
    partsFrom_append_comma (unbroken_nil 0) rfl rest
  rw [normalizeArguments_eq_iff, topLevelParts, topLevelParts, hparts, hparts, hbefore,
    partsFrom_append_comma (unbroken_of_plain hplain 0) (depthAtEnd_of_plain hplain 0), hcomma]
  simp only [List.map_append, List.modifyHead_cons, List.map_cons, List.append_nil,
    Text.words_append_blank hlead, map_words_partsFrom_append_blank htrail]

/-- Blanks at the ends of a list do not matter. -/
theorem normalizeArguments_ends {lead trail : Text} (hlead : lead.all isBlank = true)
    (htrail : trail.all isBlank = true) (t : Text) :
    normalizeArguments (lead ++ (t ++ trail)) = normalizeArguments t := by
  obtain ⟨parts, part, hparts⟩ := exists_partsFrom_append 0 t
  have hblank := partsFrom_of_unbroken
    (unbroken_of_plain (plain_of_blank htrail) (depthAtEnd 0 t))
  have ht := hparts []
  rw [List.append_nil, partsFrom, List.modifyHead_cons, List.append_nil] at ht
  rw [normalizeArguments_eq_iff, topLevelParts, map_words_partsFrom_append_blank hlead, hparts,
    hblank, topLevelParts, ht]
  simp only [List.map_append, List.modifyHead_cons, List.map_cons, Text.words_append_blank htrail]

/-- **Normalising keeps the structure of an argument list.** For every text, whatever its brackets:

* The parts of the normalised list are those of the text, each of them trimmed and with every run of
  blanks collapsed to one space.
* A normalised list is normal.
* It has no arguments if the text is blank, and otherwise as many as the text has parts.
* A gap in the text may be exchanged for another one, blanks may stand at either side of a comma at
  depth zero, and at either end of the text, without a change to the normalised list.
-/
theorem normalizeArguments_keeps_structure :
    (∀ t, topLevelParts (normalizeArguments t) =
        (topLevelParts t).map fun part => part.trim.collapseBlanks) ∧
      (∀ t, normalizeArguments (normalizeArguments t) = normalizeArguments t) ∧
      (∀ t : Text, argumentCount (normalizeArguments t) =
        if t.all isBlank then 0 else (topLevelParts t).length) ∧
      (∀ before gap gap' after : Text, gap ≠ [] → gap.all isBlank = true →
        gap' ≠ [] → gap'.all isBlank = true →
        normalizeArguments (before ++ (gap ++ after)) =
          normalizeArguments (before ++ (gap' ++ after))) ∧
      (∀ before lead trail after : Text, depthAtEnd 0 before = 0 → lead.all isBlank = true →
        trail.all isBlank = true →
        normalizeArguments (before ++ (lead ++ ',' :: (trail ++ after))) =
          normalizeArguments (before ++ ',' :: after)) ∧
      (∀ lead t trail : Text, lead.all isBlank = true → trail.all isBlank = true →
        normalizeArguments (lead ++ (t ++ trail)) = normalizeArguments t) := by
  refine ⟨?_, normalizeArguments_normalizeArguments, argumentCount_normalizeArguments, ?_, ?_, ?_⟩
  · intro t
    rw [topLevelParts_normalizeArguments]
    exact List.map_congr_left fun part _ => normalizeArgument_eq part
  · intro before gap gap' after hne hgap hne' hgap'
    exact normalizeArguments_gap hne hgap hne' hgap' before after
  · intro before lead trail after hbefore hlead htrail
    exact normalizeArguments_comma hbefore hlead htrail after
  · intro lead t trail hlead htrail
    exact normalizeArguments_ends hlead htrail t

/-- A tab for two spaces, spaces around the comma behind a bracket that was never opened, and an
ideographic space at the ends. -/
theorem normalizeArguments_keeps_structure_samples :
    normalizeArguments "unsigned  a],b".toList = normalizeArguments "unsigned\ta],b".toList ∧
      normalizeArguments "a] , b".toList = normalizeArguments "a],b".toList ∧
      normalizeArguments "\u3000a b\u3000".toList = normalizeArguments "a b".toList := by
  obtain ⟨-, -, -, hgap, hcomma, hends⟩ := normalizeArguments_keeps_structure
  exact ⟨hgap "unsigned".toList [' ', ' '] ['\t'] "a],b".toList (by decide) (by decide) (by decide)
      (by decide),
    hcomma "a]".toList [' '] [' '] ['b'] (by decide) (by decide) (by decide),
    hends ['\u3000'] "a b".toList ['\u3000'] (by decide) (by decide)⟩

end ExplicitInstantiation
