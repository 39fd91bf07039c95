import Mathlib.Data.List.Basic
import Mathlib.Data.List.DropRight
import Mathlib.Data.List.TakeWhile
import ExplicitInstantiation.Proofs.Text.Runs
import ExplicitInstantiation.Text.Blank

/-!
# Blanks

Trimming takes blanks away at the ends of a text, so blanks that are added there do not matter
(`trimStart_append_of_blank`, `trim_append_of_blank`), and trimming once is enough (`trim_trim`).

The words of a text are cut at its blanks, and everything about them follows from
`words_append_cons`: a blank separates the words before it from those behind it.

A blank is no identifier character (`isIdentifierChar_of_isBlank`). So an identifier neither starts
nor ends with one, blanks separate runs, and blanks in front of a text add none
(`runTails_append_of_blank`).
-/

namespace ExplicitInstantiation

namespace Text

/-! ### Trimming -/

/-- What is left is the beginning of the text. -/
theorem dropEndWhile_isPrefix (p : Char → Bool) (t : Text) : t.dropEndWhile p <+: t := by
  unfold dropEndWhile
  rw [← List.reverse_suffix, List.reverse_reverse]
  exact List.dropWhile_suffix p

/-- A trimmed text is a part of the text. -/
theorem trim_isInfix (t : Text) : t.trim <:+: t :=
  (dropEndWhile_isPrefix isBlank t.trimStart).isInfix.trans (List.dropWhile_suffix isBlank).isInfix

/-- Blanks in front are taken off. -/
theorem trimStart_append_of_blank {s : Text} (hs : s.all isBlank = true) (t : Text) :
    (s ++ t).trimStart = t.trimStart :=
  List.dropWhile_append_of_pos (List.all_eq_true.mp hs)

/-- Nothing is taken off in front of a character that is no blank. -/
theorem trimStart_cons_of_not {c : Char} (hc : isBlank c = false) (t : Text) :
    trimStart (c :: t) = c :: t :=
  List.dropWhile_cons_of_neg (by simp [hc])

/-- Nothing is left exactly if there are only blanks. -/
theorem trimStart_eq_nil_iff {t : Text} : t.trimStart = [] ↔ t.all isBlank = true := by
  rw [trimStart, List.dropWhile_eq_nil_iff, List.all_eq_true]

/-- From the end, too, nothing is left exactly if there are only blanks. -/
theorem trimEnd_eq_nil_iff {t : Text} : t.trimEnd = [] ↔ t.all isBlank = true := by
  rw [trimEnd, dropEndWhile, List.reverse_eq_nil_iff, List.dropWhile_eq_nil_iff, List.all_eq_true]
  simp

/-- The end of a text is trimmed in what is not blank of it. -/
theorem trimEnd_append (s t : Text) :
    (s ++ t).trimEnd = if t.all isBlank then s.trimEnd else s ++ t.trimEnd := by
  have hempty : (t.reverse.dropWhile isBlank).isEmpty = t.all isBlank := by
    rw [Bool.eq_iff_iff, ← trimEnd_eq_nil_iff, List.isEmpty_iff, trimEnd, dropEndWhile,
      List.reverse_eq_nil_iff]
  unfold trimEnd dropEndWhile
  rw [List.reverse_append, List.dropWhile_append, hempty]
  split
  · rfl
  · rw [List.reverse_append, List.reverse_reverse]

/-- Blanks at the end are taken off. -/
theorem trimEnd_append_of_blank {t : Text} (ht : t.all isBlank = true) (s : Text) :
    (s ++ t).trimEnd = s.trimEnd := by
  rw [trimEnd_append, if_pos ht]

/-- Blanks at the end do not matter for a trimmed text. -/
theorem trim_append_of_blank {t : Text} (ht : t.all isBlank = true) (s : Text) :
    (s ++ t).trim = s.trim := by
  rcases hs : s.all isBlank with _ | _
  · have hne : (s.dropWhile isBlank).isEmpty = false := by
      rw [List.isEmpty_eq_false_iff, ← trimStart, ne_eq, trimStart_eq_nil_iff, hs]
      decide
    rw [trim, trimStart, List.dropWhile_append, hne, if_neg (by decide), ← trimStart,
      trimEnd_append_of_blank ht, trim]
  · rw [trim, trimStart_append_of_blank hs, trimStart_eq_nil_iff.mpr ht, trim,
      trimStart_eq_nil_iff.mpr hs]

/-- Of a text whose end is trimmed, blanks are taken away. -/
theorem exists_eq_trimEnd (t : Text) :
    ∃ blanks, t = t.trimEnd ++ blanks ∧ blanks.all isBlank = true := by
  refine ⟨(t.reverse.takeWhile isBlank).reverse, ?_, ?_⟩
  · rw [trimEnd, dropEndWhile, ← List.reverse_append, List.takeWhile_append_dropWhile,
      List.reverse_reverse]
  · rw [List.all_reverse]
    exact List.all_takeWhile

/-- A text is its trimmed form with blanks around it. -/
theorem exists_eq_trim (t : Text) :
    ∃ lead trail, t = lead ++ (t.trim ++ trail) ∧ lead.all isBlank = true ∧
      trail.all isBlank = true := by
  obtain ⟨trail, htrim, htrail⟩ := t.trimStart.exists_eq_trimEnd
  refine ⟨t.takeWhile isBlank, trail, ?_, List.all_takeWhile, htrail⟩
  rw [trim, ← htrim]
  exact List.takeWhile_append_dropWhile.symm

/-- To take off the blanks at the end again changes nothing. -/
theorem trimEnd_trimEnd (t : Text) : t.trimEnd.trimEnd = t.trimEnd := by
  unfold trimEnd dropEndWhile
  rw [List.reverse_reverse, List.dropWhile_idempotent]

/-- A trimmed text that is not empty starts with a character that is not blank. -/
theorem exists_eq_cons_of_trim {t : Text} (hne : t ≠ []) (htrim : t.trim = t) :
    ∃ c s, t = c :: s ∧ isBlank c = false := by
  rcases t with _ | ⟨c, s⟩
  · exact absurd rfl hne
  refine ⟨c, s, rfl, ?_⟩
  by_contra hblank
  -- a blank in front would be gone, and with it a part of the length
  have hlength := congrArg List.length htrim
  rw [trim, trimStart, List.dropWhile_cons_of_pos (by simpa using hblank)] at hlength
  have hend := (dropEndWhile_isPrefix isBlank (s.dropWhile isBlank)).length_le
  have hstart := (List.dropWhile_suffix (l := s) isBlank).length_le
  rw [trimEnd, List.length_cons] at hlength
  omega

/-- Blanks in front of a trimmed text are taken away, and what stands behind it is trimmed at its
end. -/
theorem trim_append_append {t : Text} (hne : t ≠ []) (htrim : t.trim = t) {blanks : Text}
    (hblanks : blanks.all isBlank = true) (rest : Text) :
    (blanks ++ (t ++ rest)).trim = t ++ rest.trimEnd := by
  obtain ⟨c, s, rfl, hc⟩ := exists_eq_cons_of_trim hne htrim
  rw [trim, trimStart_cons_of_not hc] at htrim
  rw [trim, trimStart_append_of_blank hblanks, List.cons_append, trimStart_cons_of_not hc,
    ← List.cons_append, trimEnd_append]
  split
  next hrest => rw [htrim, trimEnd_eq_nil_iff.mpr hrest, List.append_nil]
  next => rfl

/-- To trim a text again changes nothing. -/
theorem trim_trim (t : Text) : t.trim.trim = t.trim := by
  have htrim : t.trim = trimEnd t.trimStart := rfl
  rcases hstart : t.trimStart with _ | ⟨c, s⟩
  · rw [htrim, hstart]
    rfl
  · have hc : isBlank c = false := by
      have hhead := List.head?_dropWhile_not isBlank t
      rw [← trimStart, hstart] at hhead
      simpa using hhead
    have hkept : trimEnd (c :: s) = c :: trimEnd s := by
      rw [← List.singleton_append, trimEnd_append]
      split
      next hs =>
        rw [trimEnd_eq_nil_iff.mpr hs]
        simp [trimEnd, dropEndWhile, hc]
      next => rfl
    rw [htrim, hstart, hkept, trim, trimStart_cons_of_not hc, ← hkept, trimEnd_trimEnd]

/-- A character that is no blank does not stand among blanks. -/
theorem not_mem_of_blank {c : Char} (hc : isBlank c = false) {blanks : Text}
    (h : blanks.all isBlank = true) : c ∉ blanks := by
  intro hmem
  rw [List.all_eq_true.mp h c hmem] at hc
  cases hc

/-- A character that is no blank stays when the blanks at the end are taken off. -/
theorem mem_trimEnd_iff {c : Char} (hc : isBlank c = false) {t : Text} :
    c ∈ t.trimEnd ↔ c ∈ t := by
  obtain ⟨blanks, ht, hblanks⟩ := t.exists_eq_trimEnd
  constructor
  · intro h
    rw [ht]
    exact List.mem_append_left _ h
  · intro h
    rw [ht] at h
    rcases List.mem_append.mp h with h | h
    · exact h
    · exact absurd h (not_mem_of_blank hc hblanks)

/-! ### Words -/

/-- A blank separates the words before it from those behind it. -/
theorem words_append_cons {c : Char} (hc : isBlank c = true) (s t : Text) :
    words (s ++ c :: t) = words s ++ words t := by
  unfold words
  rw [List.splitOnP_append_cons s t hc, List.filter_append]

/-- Blanks in front do not matter for the words. -/
theorem words_append_of_blank {blanks : Text} (h : blanks.all isBlank = true) (t : Text) :
    words (blanks ++ t) = words t := by
  induction blanks with
  | nil => rfl
  | cons c blanks ih =>
    rw [List.all_cons, Bool.and_eq_true] at h
    rw [List.cons_append, ← List.nil_append (c :: _), words_append_cons h.1, ih h.2]
    rfl

/-- A gap separates the words before it from those behind it. -/
theorem words_append_gap {gap : Text} (hne : gap ≠ []) (hgap : gap.all isBlank = true)
    (s t : Text) : words (s ++ (gap ++ t)) = words s ++ words t := by
  rcases gap with _ | ⟨c, gap⟩
  · exact absurd rfl hne
  rw [List.all_cons, Bool.and_eq_true] at hgap
  rw [List.cons_append, words_append_cons hgap.1, words_append_of_blank hgap.2]

/-- Blanks behind a text add no words. -/
theorem words_append_blank {blanks : Text} (h : blanks.all isBlank = true) (s : Text) :
    words (s ++ blanks) = words s := by
  rcases blanks with _ | ⟨c, blanks⟩
  · rw [List.append_nil]
  · rw [← List.append_nil (c :: blanks), words_append_gap (by simp) h, words_nil, List.append_nil]

/-- A text with no blank in it is one word. -/
theorem words_of_word {word : Text} (hne : word ≠ []) (h : word.any isBlank = false) :
    words word = [word] := by
  rw [words, List.splitOnP_eq_singleton (by simpa using h)]
  simp [hne]

/-- No word has a blank in it. -/
theorem any_isBlank_of_mem_words {t word : Text} (h : word ∈ t.words) :
    word.any isBlank = false := by
  rcases hblank : t.any isBlank with _ | _
  · rcases t with _ | ⟨c, t⟩
    · simp at h
    · rw [words_of_word (List.cons_ne_nil c t) hblank, List.mem_singleton] at h
      rw [h, hblank]
  · obtain ⟨c, hmem, hc⟩ := List.any_eq_true.mp hblank
    obtain ⟨before, after, ht⟩ := List.append_of_mem hmem
    have hlength : t.length = before.length + (after.length + 1) := by simp [ht]
    rw [ht, words_append_cons hc] at h
    rcases List.mem_append.mp h with h | h
    · exact any_isBlank_of_mem_words h
    · exact any_isBlank_of_mem_words h
termination_by t.length
decreasing_by all_goals omega

/-- A text with no blank in it has none to trim. -/
theorem trim_of_word {word : Text} (h : word.any isBlank = false) : word.trim = word := by
  have hdrop : ∀ {t : Text}, t.any isBlank = false → t.dropWhile isBlank = t := by
    intro t ht
    rcases t with _ | ⟨c, t⟩
    · rfl
    · rw [List.any_cons, Bool.or_eq_false_iff] at ht
      exact trimStart_cons_of_not ht.1 t
  have hreverse : word.reverse.any isBlank = false := by rw [List.any_reverse, h]
  rw [trim, trimStart, hdrop h, trimEnd, dropEndWhile, hdrop hreverse, List.reverse_reverse]

/-! ### Blanks and runs -/

/-- A blank is no identifier character. -/
theorem isIdentifierChar_of_isBlank {c : Char} (h : isBlank c = true) :
    isIdentifierChar c = false := by
  have hall : ∀ range ∈ blankRanges, ∀ n ∈ List.range' range.1 (range.2 + 1 - range.1),
      isIdentifierChar (Char.ofNat n) = false := by decide +kernel
  obtain ⟨range, hrange, hlow, hhigh⟩ := CharRanges.contains_iff.mp h
  have hchar := hall range hrange c.toNat (List.mem_range'_1.mpr ⟨hlow, by omega⟩)
  rwa [Char.ofNat_toNat] at hchar

/-- An identifier holds no blank. -/
theorem IsIdentifier.not_blank {name : Text} (h : name.IsIdentifier) {c : Char} (hc : c ∈ name) :
    isBlank c = false := by
  rw [← Bool.not_eq_true]
  intro hblank
  have hchar := h.2 c hc
  rw [isIdentifierChar_of_isBlank hblank] at hchar
  cases hchar

/-- A text that starts with an identifier does not start with a blank. -/
theorem IsIdentifier.head?_append {name : Text} (h : name.IsIdentifier) (t : Text) :
    ∃ c ∈ (name ++ t).head?, isBlank c = false := by
  refine ⟨name.head h.1, ?_, h.not_blank (List.head_mem h.1)⟩
  rw [List.head?_append_of_ne_nil _ h.1]
  exact List.head?_eq_some_head h.1

/-- A text that ends with an identifier does not end with a blank. -/
theorem IsIdentifier.getLast?_append {name : Text} (h : name.IsIdentifier) (s : Text) :
    ∃ c ∈ (s ++ name).getLast?, isBlank c = false := by
  refine ⟨name.getLast h.1, ?_, h.not_blank (List.getLast_mem h.1)⟩
  rw [List.getLast?_append_of_ne_nil _ h.1]
  exact List.getLast?_eq_some_getLast h.1

/-- Blanks in front of text that does not go on with a word do not go on with one. -/
theorem head?_any_append_of_blank {blanks t : Text} (h : blanks.all isBlank = true)
    (ht : t.head?.any isIdentifierChar = false) :
    (blanks ++ t).head?.any isIdentifierChar = false := by
  rcases blanks with _ | ⟨c, blanks⟩
  · exact ht
  · exact isIdentifierChar_of_isBlank (List.all_eq_true.mp h c List.mem_cons_self)

/-- Blanks do not start with an identifier character. -/
theorem head?_any_of_blank {blanks : Text} (h : blanks.all isBlank = true) :
    blanks.head?.any isIdentifierChar = false := by
  rw [← List.append_nil blanks]
  exact head?_any_append_of_blank h rfl

/-- A word ends where blanks stand behind it. -/
theorem startsRun_of_gap {word gap : Text} (hword : word.IsIdentifier) (hne : gap ≠ [])
    (hgap : gap.all isBlank = true) (t : Text) :
    StartsRun (word ++ (gap ++ t)) word (gap ++ t) := by
  refine ⟨hword, ?_, rfl⟩
  rcases gap with _ | ⟨c, gap⟩
  · exact absurd rfl hne
  · exact isIdentifierChar_of_isBlank (List.all_eq_true.mp hgap c List.mem_cons_self)

/-- Blanks in front of a text belong to no run. -/
theorem runTails_append_of_blank {blanks : Text} (h : blanks.all isBlank = true) (t : Text) :
    (blanks ++ t).runTails = t.runTails := by
  induction blanks with
  | nil => rfl
  | cons c blanks ih =>
    rw [List.all_cons, Bool.and_eq_true] at h
    rw [List.cons_append, runTails_cons_of_not (isIdentifierChar_of_isBlank h.1), ih h.2]

/-- Blanks in front do not matter for the runs. -/
theorem runWords_append_of_blank {blanks : Text} (h : blanks.all isBlank = true) (t : Text) :
    (blanks ++ t).runWords = t.runWords := by
  rw [← map_fst_runTails, runTails_append_of_blank h, map_fst_runTails]

/-- Among blanks there is no run. -/
theorem runWords_of_blank {blanks : Text} (h : blanks.all isBlank = true) :
    blanks.runWords = [] := by
  rw [← List.append_nil blanks, runWords_append_of_blank h, runWords_nil]

/-- Blanks in front do not matter for what follows a word. -/
theorem afterWord?_append_of_blank {name : Text} (hname : name.IsIdentifier) {blanks : Text}
    (h : blanks.all isBlank = true) (t : Text) :
    (blanks ++ t).afterWord? name = t.afterWord? name := by
  rw [afterWord?_eq_find? hname, runTails_append_of_blank h, ← afterWord?_eq_find? hname]

end Text

end ExplicitInstantiation
