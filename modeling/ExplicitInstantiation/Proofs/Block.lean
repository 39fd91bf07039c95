import ExplicitInstantiation.Block
import ExplicitInstantiation.Marker
import ExplicitInstantiation.Proofs.Text.Blank
import ExplicitInstantiation.Proofs.Text.Lines

/-!
# The generated block is found again

A block that was put behind a text is found by the next run, whatever the text was: the lines
before it are exactly the text it was put behind (`keptText?_update`). So a block that is brought up
to date any number of times leaves no trace of what it held before (`update_update`).

The search looks for the trimmed marker in single lines. Two facts make it succeed, for a marker
that passes its check: no line of the text that a block follows holds the marker
(`not_infix_bodyText`), and that text stops where a line does (`endsLine_bodyText`), so the line
with the marker starts with it and is not glued to the author's last line.
-/

namespace ExplicitInstantiation

open Text

/-! ### Markers -/

/-- A marker that passes its check is more than blanks. -/
theorem trim_ne_nil_of_checkMarker {marker : Text} (h : checkMarker marker = .ok ()) :
    marker.trim ≠ [] := by
  intro hnil
  simp [checkMarker, isComment, hnil] at h

/-- A marker that passes its check is a single line. -/
theorem newline_not_mem_of_checkMarker {marker : Text} (h : checkMarker marker = .ok ()) :
    '\n' ∉ marker := by
  intro hmem
  unfold checkMarker at h
  split at h
  · cases h
  · simp [hmem] at h

/-- An accepted marker is one line when it is trimmed. -/
theorem newline_not_mem_trim_of_checkMarker {marker : Text} (h : checkMarker marker = .ok ()) :
    '\n' ∉ marker.trim :=
  fun hmem => newline_not_mem_of_checkMarker h ((trim_isInfix marker).subset hmem)

namespace Block

/-! ### The lines before the marker -/

/-- No lines stand before the marker exactly if it stands on none. -/
theorem linesBefore?_eq_none_iff {needle : Text} {lines : List Text} :
    linesBefore? needle lines = none ↔ ∀ line ∈ lines, ¬ needle <:+: line := by
  induction lines with
  | nil => simp [linesBefore?]
  | cons line lines ih =>
    rw [linesBefore?]
    by_cases hline : needle <:+: line
    · simp [hasText_iff.mpr hline, hline]
    · have hno : line.hasText needle = false := by
        rw [← Bool.not_eq_true, hasText_iff]
        exact hline
      simp [hno, hline, ih]

/-- The lines that are kept lie before a line with the marker, and none of them has it. -/
theorem eq_append_of_linesBefore? {needle : Text} {lines before : List Text}
    (h : linesBefore? needle lines = some before) :
    (∃ line after, lines = before ++ line :: after ∧ needle <:+: line) ∧
      ∀ line ∈ before, ¬ needle <:+: line := by
  induction lines generalizing before with
  | nil => cases h
  | cons line lines ih =>
    rw [linesBefore?] at h
    split at h
    next hline =>
      cases h
      exact ⟨⟨line, lines, rfl, hasText_iff.mp hline⟩, fun _ hmem => absurd hmem List.not_mem_nil⟩
    next hline =>
      obtain ⟨others, hothers, rfl⟩ := Option.map_eq_some_iff.mp h
      obtain ⟨⟨found, after, rfl, hfound⟩, hclean⟩ := ih hothers
      refine ⟨⟨found, after, rfl, hfound⟩, ?_⟩
      intro l hl
      rcases List.mem_cons.mp hl with rfl | hl
      · exact fun hpiece => hline (hasText_iff.mpr hpiece)
      · exact hclean l hl

/-- The lines before the marker are those in front of the first line that holds it. -/
theorem linesBefore?_append {needle : Text} {before : List Text} {line : Text}
    (hclean : ∀ l ∈ before, ¬ needle <:+: l) (hline : needle <:+: line) (after : List Text) :
    linesBefore? needle (before ++ line :: after) = some before := by
  induction before with
  | nil => simp [linesBefore?, hasText_iff.mpr hline]
  | cons first before ih =>
    have hfirst : ¬ (first.hasText needle = true) := fun h =>
      hclean first List.mem_cons_self (hasText_iff.mp h)
    have ih := ih fun l hl => hclean l (List.mem_cons_of_mem first hl)
    simp [linesBefore?, hfirst, ih]

/-! ### The text that a block follows -/

/-- Either no line has the marker and the block follows the whole text and a separator, or the block
follows the lines before the first one with the marker. -/
theorem bodyText_cases (marker existing : Text) :
    (linesBefore? marker.trim existing.fullLines = none ∧
        bodyText marker existing = existing ++ separator) ∨
      ∃ before, linesBefore? marker.trim existing.fullLines = some before ∧
        bodyText marker existing = before.flatten := by
  unfold bodyText keptText?
  rcases h : linesBefore? marker.trim existing.fullLines with _ | before
  · exact Or.inl ⟨rfl, rfl⟩
  · exact Or.inr ⟨before, rfl, rfl⟩

/-- The text that a block follows stops where a line does. -/
theorem endsLine_bodyText (marker existing : Text) : EndsLine (bodyText marker existing) := by
  rcases bodyText_cases marker existing with ⟨-, hbody⟩ | ⟨before, hkept, hbody⟩
  · have hsplit : existing ++ separator = (existing ++ ['\n', '\n']) ++ ['\n'] := by
      simp [separator]
    rw [hbody, hsplit]
    exact EndsLine.append_newline _
  · obtain ⟨⟨line, after, hlines, -⟩, -⟩ := eq_append_of_linesBefore? hkept
    rw [hbody]
    exact (fullLines_flatten_of_append hlines).2

/-- The text that a block follows does not hold the marker. -/
theorem not_infix_bodyText {marker : Text} (h : checkMarker marker = .ok ()) (existing : Text) :
    ¬ marker.trim <:+: bodyText marker existing := by
  have hne := trim_ne_nil_of_checkMarker h
  have hline := newline_not_mem_trim_of_checkMarker h
  intro hpiece
  rcases bodyText_cases marker existing with ⟨hkept, hbody⟩ | ⟨before, hkept, hbody⟩
  · -- no line has the marker, and the separator adds none
    rw [hbody] at hpiece
    have hin := infix_of_infix_append_newlines hline 3 hpiece
    obtain ⟨line, hmem, hpart⟩ := (exists_mem_fullLines_infix_iff hne hline existing).mpr hin
    exact linesBefore?_eq_none_iff.mp hkept line hmem hpart
  · obtain ⟨⟨line, after, hlines, -⟩, hclean⟩ := eq_append_of_linesBefore? hkept
    rw [hbody] at hpiece
    obtain ⟨l, hmem, hpart⟩ := (exists_mem_fullLines_infix_iff hne hline _).mpr hpiece
    rw [(fullLines_flatten_of_append hlines).1] at hmem
    exact hclean l hmem hpart

/-! ### Bringing a block up to date again -/

/-- A block starts with the line of its marker. -/
theorem fullLines_render {marker : Text} (h : checkMarker marker = .ok ())
    (instantiations : Instantiations) :
    ∃ after, (render marker instantiations).fullLines = (marker ++ ['\n']) :: after := by
  unfold render
  rw [List.append_assoc, List.cons_append]
  exact ⟨_, fullLines_line_append (newline_not_mem_of_checkMarker h) _⟩

/-- What is kept of a text with a block is the text that the block was put behind. -/
theorem keptText?_update {marker : Text} (h : checkMarker marker = .ok ()) (existing : Text)
    (instantiations : Instantiations) :
    keptText? marker (update marker existing instantiations) = some (bodyText marker existing) := by
  obtain ⟨after, hafter⟩ := fullLines_render h instantiations
  have hclean : ∀ line ∈ (bodyText marker existing).fullLines, ¬ marker.trim <:+: line :=
    fun line hmem hpiece => not_infix_bodyText h existing
      (hpiece.trans (infix_of_mem_fullLines hmem))
  have hmarker : marker.trim <:+: marker ++ ['\n'] :=
    (trim_isInfix marker).trans (List.prefix_append marker ['\n']).isInfix
  unfold keptText? update
  rw [fullLines_append (endsLine_bodyText marker existing), hafter,
    linesBefore?_append hclean hmarker, Option.map_some, flatten_fullLines]

/-- A block that is replaced follows the same text as before. -/
theorem bodyText_update {marker : Text} (h : checkMarker marker = .ok ()) (existing : Text)
    (instantiations : Instantiations) :
    bodyText marker (update marker existing instantiations) = bodyText marker existing := by
  rw [bodyText, keptText?_update h, Option.getD_some]

/-- A block forgets what it held before: two texts with the same text before the block are brought
to the same text. -/
theorem update_congr {marker existing other : Text}
    (h : bodyText marker existing = bodyText marker other) (instantiations : Instantiations) :
    update marker existing instantiations = update marker other instantiations := by
  rw [update, update, h]

/-- **The last block wins.** A block that is put behind a text follows the lines before the first
one with the marker, or, where no line has it, the whole text and a separator. That text is what the
next update keeps, so of two updates only the second one shows. -/
theorem update_update {marker : Text} (h : checkMarker marker = .ok ()) (existing : Text)
    (first second : Instantiations) :
    update marker (update marker existing first) second = update marker existing second ∧
      ∃ body, keptText? marker (update marker existing first) = some body ∧
        update marker existing first = body ++ render marker first ∧
        ((∃ before line after, existing.fullLines = before ++ line :: after ∧
            (∀ l ∈ before, ¬ marker.trim <:+: l) ∧ marker.trim <:+: line ∧
            body = before.flatten) ∨
          (∀ line ∈ existing.fullLines, ¬ marker.trim <:+: line) ∧
            body = existing ++ separator) := by
  refine ⟨update_congr (bodyText_update h existing first) second, bodyText marker existing,
    keptText?_update h existing first, rfl, ?_⟩
  rcases bodyText_cases marker existing with ⟨hnone, hbody⟩ | ⟨before, hkept, hbody⟩
  · exact .inr ⟨linesBefore?_eq_none_iff.mp hnone, hbody⟩
  · obtain ⟨⟨line, after, hlines, hline⟩, hclean⟩ := eq_append_of_linesBefore? hkept
    exact .inl ⟨before, line, after, hlines, hclean, hline, hbody⟩

/-- A marker with blanks around it, behind code on the last line of a text, and a block of two
declarations that is replaced by one of another declaration. -/
theorem update_update_padded :
    checkMarker " // Generated\t".toList = .ok () ∧
      update " // Generated\t".toList
          (update " // Generated\t".toList "f();\r\ng(); // Generated by hand".toList
            ⟨[⟨"Grid".toList, ["1".toList]⟩, ⟨"Grid".toList, ["2".toList]⟩]⟩)
          ⟨[⟨"Grid".toList, ["3".toList]⟩]⟩ =
        ("f();\r\n // Generated\t\n// Do not add or modify anything after these comments\n" ++
          "template class Grid<3>;\n").toList := by
  have hmarker : checkMarker " // Generated\t".toList = .ok () := rfl
  refine ⟨hmarker, (update_update hmarker _ _ _).1.trans ?_⟩
  decide +kernel

/-- A marker with a line break in it is never found, so the block is put there once more. -/
example : (keptText? "// a\n// b".toList (render "// a\n// b".toList .empty)) = none := by
  decide +kernel

end Block

end ExplicitInstantiation
