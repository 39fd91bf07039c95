import ExplicitInstantiation.Proofs.Arithmetic.Parentheses
import ExplicitInstantiation.Proofs.Instantiation.Arity
import ExplicitInstantiation.Proofs.Instantiation.Written
import ExplicitInstantiation.Proofs.Site.Arguments
import ExplicitInstantiation.Proofs.Site.Normalized

/-!
# Declarations are read back

A declaration is written with the list of its arguments in angle brackets, and this is again a list
that the search of a line captures. What was captured at a site has led the capture back to where it
started; this is still so for what is written, because nothing moves the capture differently from
what it comes from.

* Normalising keeps the commas and brackets (`foldlM_after_normalizeArguments`).
* Folding keeps those of an argument, or it puts a number without any in the place of an expression,
  in which they are closed (`foldlM_after_foldArgument`).

So the closing bracket is found at the same place, whether or not the capture and the cut agree on
what is nested in what. Folded arguments are normal if the arguments were (`normal_foldArgument`),
which leaves nothing to normalise.
-/

namespace ExplicitInstantiation

/-! ### What moves the capture -/

/-- A plain character leaves the reading where it stands. -/
theorem AngleDepth.after_of_isPlain {c : Char} (h : isPlain c = true) (depth : AngleDepth) :
    depth.after c = some depth := by
  simp only [isPlain, isOpener, isCloser, Bool.and_eq_true, Bool.not_eq_true',
    Bool.or_eq_false_iff] at h
  simp [after, h]

/-- Only commas and brackets move the capture. -/
theorem foldlM_after_of_marks_eq {s t : Text} (h : marks s = marks t) (depth : AngleDepth) :
    s.foldlM AngleDepth.after depth = t.foldlM AngleDepth.after depth := by
  have hmarks := foldlM_marks fun depth c hc => AngleDepth.after_of_isPlain hc depth
  rw [← hmarks, h, hmarks]

/-- A list and its normal form are read to the same place. -/
theorem foldlM_after_normalizeArguments (t : Text) (depth : AngleDepth) :
    (normalizeArguments t).foldlM AngleDepth.after depth = t.foldlM AngleDepth.after depth :=
  foldlM_after_of_marks_eq (marks_normalizeArguments t) depth

/-- A folded argument moves the capture like the part that it comes from. -/
theorem foldlM_after_foldArgument {part result : Text} (h : foldArgument part.trim = .ok result)
    (depth : AngleDepth) :
    part.foldlM AngleDepth.after depth = result.foldlM AngleDepth.after depth := by
  rw [foldlM_after_of_marks_eq (marks_trim part).symm]
  rcases foldArgument_eq_ok_iff.mp h with ⟨-, rfl⟩ | ⟨-, number, hnumber, rfl⟩
  · rfl
  · rw [(wellBracketed_of_evaluate hnumber).foldlM_after,
      (WellBracketed.of_plain number.plain_toText).foldlM_after]

/-- So does the list of the folded arguments. -/
theorem FoldsInto.foldlM_after_join {t : Text} {arguments : List Text} (h : FoldsInto t arguments)
    (depth : AngleDepth) :
    (Text.join [','] arguments).foldlM AngleDepth.after depth =
      t.foldlM AngleDepth.after depth := by
  conv_rhs => rw [(cutsInto_topLevelParts t).eq_join]
  have hrelated := Text.join_related (R := fun part result => ∀ depth : AngleDepth,
    part.foldlM AngleDepth.after depth = result.foldlM AngleDepth.after depth)
    (fun _ _ => rfl) (fun hs ht depth => ?_) [','] (h.imp fun _ _ => foldlM_after_foldArgument)
  · exact (hrelated depth).symm
  · rw [List.foldlM_append, List.foldlM_append, hs depth]
    exact bind_congr fun next => ht next

/-! ### Folded arguments are normal -/

/-- A normalised argument is trimmed. -/
theorem trim_normalizeArgument (argument : Text) :
    (normalizeArgument argument).trim = normalizeArgument argument :=
  Text.trim_join fun _ => Text.isWord_of_mem_words

/-- The text of a number is normalised to itself. -/
theorem normalizeArgument_toText (number : Number) :
    normalizeArgument number.toText = number.toText := by
  have hword := number.isWord_toText
  rw [normalizeArgument, Text.words_of_word hword.1 hword.2, Text.join_singleton]

/-- Folding a normal argument gives a normal one, which is empty only if that argument is. -/
theorem normal_foldArgument {part result : Text} (hpart : normalizeArgument part = part)
    (h : foldArgument part.trim = .ok result) :
    normalizeArgument result = result ∧ (result = [] → part = []) := by
  rw [← hpart, trim_normalizeArgument, hpart] at h
  rcases foldArgument_eq_ok_iff.mp h with ⟨-, rfl⟩ | ⟨-, number, -, rfl⟩
  · exact ⟨hpart, id⟩
  · exact ⟨normalizeArgument_toText number, fun hnil => absurd hnil number.isWord_toText.1⟩

/-- The arguments of a normal list that is not empty are normal, and the list that they make is not
empty either. -/
theorem FoldsInto.normal {t : Text} {arguments : List Text} (ht : normalizeArguments t ≠ [])
    (h : FoldsInto (normalizeArguments t) arguments) :
    (∀ argument ∈ arguments, normalizeArgument argument = argument) ∧
      Text.join [','] arguments ≠ [] := by
  have hparts : ∀ part ∈ topLevelParts (normalizeArguments t), normalizeArgument part = part := by
    rw [topLevelParts_normalizeArguments, List.forall_mem_map]
    exact fun part _ => normalizeArgument_normalizeArgument part
  constructor
  · intro argument hargument
    obtain ⟨part, hpart, hfold⟩ := (results_of_mapM (mapM_eq_ok_iff.mpr h)).2 argument hargument
    exact (normal_foldArgument (hparts part hpart) hfold).1
  · intro hjoin
    -- the only argument would be empty, and so would be the list it comes from
    have harguments := h.topLevelParts_join
    rw [hjoin, topLevelParts_nil] at harguments
    rw [FoldsInto, ← harguments] at h
    obtain ⟨part, others, hfold, hothers, hcut⟩ := List.forall₂_cons_right_iff.mp h
    obtain rfl := List.forall₂_nil_right_iff.mp hothers
    have hpart := hparts part (hcut ▸ List.mem_cons_self)
    apply ht
    rw [(cutsInto_topLevelParts (normalizeArguments t)).eq_join, hcut, Text.join_singleton,
      (normal_foldArgument hpart hfold).2 rfl]

/-! ### The written list -/

/-- What folding makes of a captured list moves the capture back to its start, is normal, and has as
many arguments. -/
theorem folded_list {rest captured : Text} (hcapture : argumentList? rest = some captured)
    {arguments : List Text} (hfold : foldArguments (normalizeArguments captured) = .ok arguments) :
    (Text.join [','] arguments).foldlM AngleDepth.after .start = some .start ∧
      normalizeArguments (Text.join [','] arguments) = Text.join [','] arguments ∧
      argumentCount (Text.join [','] arguments) = argumentCount (normalizeArguments captured) := by
  obtain ⟨-, -, -, -, hmoves⟩ := argumentList?_eq_some_iff.mp hcapture
  rcases eq_or_ne (normalizeArguments captured) [] with hnil | hne
  · obtain rfl : arguments = [] := by
      rw [hnil] at hfold
      cases hfold
      rfl
    rw [hnil]
    exact ⟨rfl, rfl, rfl⟩
  · have hfolds := (foldArguments_eq_ok_iff hne).mp hfold
    have hparts := hfolds.topLevelParts_join
    obtain ⟨hnormal, hjoin⟩ := hfolds.normal hne
    refine ⟨?_, ?_, ?_⟩
    · rw [hfolds.foldlM_after_join, foldlM_after_normalizeArguments, hmoves]
    · rw [normalizeArguments, hparts, List.map_congr_left hnormal, List.map_id']
    · rw [← length_of_foldArguments hfold, argumentCount, if_neg (by simpa using hjoin), hparts]

namespace Instantiation

/-- What stands behind the name of the class in a declaration. -/
def writtenList (instantiation : Instantiation) : Text :=
  '<' :: (Text.join [','] instantiation.arguments ++ ['>', ';'])

/-- A declaration consists of the keywords, the name and the written list. -/
theorem declaration_eq (instantiation : Instantiation) :
    instantiation.declaration =
      "template class ".toList ++ (instantiation.className ++ instantiation.writtenList) := by
  unfold declaration toText writtenList
  generalize "template class ".toList = front
  simp

/-- The search comes to the name of the class in its declaration. -/
theorem exists_wordOccurrence (instantiation : Instantiation)
    (hname : instantiation.className.IsIdentifier) :
    ∃ place ∈ instantiation.declaration.wordOccurrences instantiation.className,
      place.rest = instantiation.writtenList := by
  have hends : instantiation.writtenList.head?.any isIdentifierChar = false := by
    have hbracket : isIdentifierChar '<' = false := by decide
    simpa [writtenList] using hbracket
  have hword : Text.Occurrence.isWord ⟨15, some ' ', instantiation.writtenList⟩ = true :=
    Text.Occurrence.isWord_iff.mpr ⟨Text.isIdentifierChar_of_isBlank (by decide), hends⟩
  refine ⟨⟨15, some ' ', instantiation.writtenList⟩, ?_, rfl⟩
  exact (Text.mem_wordOccurrences_iff hname).mpr
    ⟨hword, "template class ".toList, instantiation.declaration_eq, rfl, rfl⟩

end Instantiation

/-- **Declarations are read back.** Where the list captured at a site folds to some arguments, and
no constant is replaced in it, the site stands for the class with these arguments. The text behind
the name of the class in its declaration is again captured as a list, and what is captured is
exactly the arguments with commas between them: they are normal as they are, and as many as the site
has. If the name is an identifier, the search comes to that place. -/
theorem declaration_reads_back {constants : Constants} {site : Site} {rest captured : Text}
    {arguments : List Text} (hcapture : argumentList? rest = some captured)
    (hsite : site.arguments = normalizeArguments captured)
    (happlied : constants.applied site.arguments = [])
    (hfold : foldArguments (normalizeArguments captured) = .ok arguments) :
    ∃ instantiation written, site.resolve constants = .ok instantiation ∧
      instantiation.arguments = arguments ∧
      instantiation.declaration =
        "template class ".toList ++ (site.templateClass.name ++ written) ∧
      argumentList? written = some (Text.join [','] arguments) ∧
      normalizeArguments (Text.join [','] arguments) = Text.join [','] arguments ∧
      argumentCount (Text.join [','] arguments) = argumentCount site.arguments ∧
      (site.templateClass.name.IsIdentifier →
        ∃ place ∈ instantiation.declaration.wordOccurrences site.templateClass.name,
          place.rest = written) := by
  obtain ⟨hmoves, hnormal, hcount⟩ := folded_list hcapture hfold
  refine ⟨⟨site.templateClass.name, arguments⟩, _, ?_, rfl, Instantiation.declaration_eq _, ?_,
    hnormal, ?_, Instantiation.exists_wordOccurrence ⟨site.templateClass.name, arguments⟩⟩
  · rw [Site.resolve_eq_ok_iff, Constants.substitute_of_applied happlied, hsite]
    exact ⟨rfl, hfold⟩
  · exact argumentList?_eq_some_iff.mpr ⟨[], [';'], rfl, rfl, hmoves⟩
  · rw [hsite, hcount]

/-- A way to write a product with a sum in it. -/
theorem writes_sampleProduct :
    Token.Writes
      (Expression.binary .mul (.literal 2) (.binary .add (.literal 3) (.literal 1))).tokens
      "2*(3+1)".toList :=
  .cons [] nofun (.ofNat 2) <|
  .cons [] nofun .star <|
  .cons [] nofun .leftParen <|
  .cons [] nofun (.ofNat 3) <|
  .cons [] nofun .plus <|
  .cons [] nofun (.ofNat 1) <|
  .cons [] nofun .rightParen <|
  .nil [] nofun

/-- A site with a product, and with a comparison in parentheses behind which the cut does not see
the comma that the capture would see. -/
def comparisonSite : Site :=
  ⟨⟨"Grid".toList, 2⟩, "2*(3+1),(a<b), c".toList, ⟨.ofString "use.cpp", 1⟩⟩

/-- Of the product only the number is left, and the rest is read as it was. -/
theorem declaration_reads_back_comparison :
    argumentList? " < 2*(3+1) ,(a<b),\tc > grid;".toList = some " 2*(3+1) ,(a<b),\tc ".toList ∧
      ∃ instantiation written,
        comparisonSite.resolve ⟨[⟨"SIZE".toList, "5".toList⟩]⟩ = .ok instantiation ∧
        instantiation.declaration = "template class ".toList ++ ("Grid".toList ++ written) ∧
        argumentList? written = some "8,(a<b), c".toList := by
  have hcapture : argumentList? " < 2*(3+1) ,(a<b),\tc > grid;".toList =
      some " 2*(3+1) ,(a<b),\tc ".toList := by decide +kernel
  have hsite : comparisonSite.arguments = normalizeArguments " 2*(3+1) ,(a<b),\tc ".toList := by
    decide +kernel
  have hproduct : foldArgument "2*(3+1)".toList = .ok "8".toList :=
    foldArgument_of_int (Expression.Exact.evaluate_eq (by decide) writes_sampleProduct)
  have hfold : foldArguments (normalizeArguments " 2*(3+1) ,(a<b),\tc ".toList) =
      .ok ["8".toList, "(a<b), c".toList] := by
    rw [← hsite]
    exact (foldArguments_eq_ok_iff (by decide)).mpr (.cons hproduct (.cons rfl .nil))
  have happlied :
      Constants.applied ⟨[⟨"SIZE".toList, "5".toList⟩]⟩ comparisonSite.arguments = [] := by
    rw [Constants.applied, Constants.longestFirst, List.mergeSort_singleton]
    decide +kernel
  obtain ⟨instantiation, written, hresolve, -, hdeclaration, hwritten, -⟩ :=
    declaration_reads_back hcapture hsite happlied hfold
  exact ⟨hcapture, instantiation, written, hresolve, hdeclaration, hwritten⟩

end ExplicitInstantiation
