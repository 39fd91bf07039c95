import Mathlib.Data.List.Chain
import ExplicitInstantiation.Proofs.Text.Blank

/-!
# Words with single spaces between them

A text is brought into a normal form by its words: they are put one after the other with single
spaces between them.

* **Nothing but blanks is changed** (`flatten_words`, `words_join`). The characters of the words are
  those of the text that are no blanks, and the words are found again in the normal form.
* **Trimming and collapsing come to the same** (`collapseBlanks_trim`). `collapseBlanks` replaces
  each run of blanks by one space where it stands; of a trimmed text this leaves the words with
  single spaces between them.
-/

namespace ExplicitInstantiation

namespace Text

/-! ### The characters of words -/

/-- The parts between separators, put together, are the text without the separators. -/
theorem flatten_splitOnP (p : Char → Bool) (t : Text) :
    (t.splitOnP p).flatten = t.filter fun c => !p c := by
  induction t with
  | nil => rfl
  | cons c t ih =>
    rw [List.splitOnP_cons_eq_if_modifyHead]
    by_cases hc : p c = true
    · simp [hc, ih]
    · obtain ⟨part, parts, hparts⟩ := List.exists_cons_of_ne_nil (List.splitOnP_ne_nil p t)
      rw [hparts] at ih ⊢
      simp [hc, ← ih]

/-- The words hold all characters of a text but its blanks. -/
theorem flatten_words (t : Text) : t.words.flatten = t.filter fun c => !isBlank c := by
  rw [words, List.flatten_filter_not_isEmpty, flatten_splitOnP]

/-- To trim a text keeps its words. -/
theorem words_trim (t : Text) : t.trim.words = t.words := by
  obtain ⟨lead, trail, ht, hlead, htrail⟩ := t.exists_eq_trim
  conv_rhs => rw [ht]
  rw [words_append_of_blank hlead, words_append_blank htrail]

/-- Only a blank text has no words. -/
theorem words_eq_nil_iff {t : Text} : t.words = [] ↔ t.all isBlank = true := by
  constructor
  · intro h
    have hflat := t.flatten_words
    rw [h, List.flatten_nil, eq_comm, List.filter_eq_nil_iff] at hflat
    simpa using hflat
  · intro h
    rw [← List.append_nil t, words_append_of_blank h, words_nil]

/-! ### Words with single spaces between them -/

/-- Whether a text can be a word: there is something, and no blank in it. -/
def IsWord (word : Text) : Prop :=
  word ≠ [] ∧ word.any isBlank = false

/-- A word is not empty and holds no blank. -/
theorem isWord_of_mem_words {t word : Text} (h : word ∈ t.words) : word.IsWord :=
  ⟨ne_nil_of_mem_words h, any_isBlank_of_mem_words h⟩

/-- No character of a word is a blank. -/
theorem IsWord.not_blank {word : Text} (h : word.IsWord) {c : Char} (hc : c ∈ word) :
    isBlank c = false := by
  have hnone := List.any_eq_false.mp h.2 c hc
  simpa using hnone

/-- Words are found again behind single spaces. -/
theorem words_join {words : List Text} (h : ∀ word ∈ words, word.IsWord) :
    (join [' '] words).words = words := by
  induction words with
  | nil => rfl
  | cons word words ih =>
    rw [List.forall_mem_cons] at h
    have hword : word.words = [word] := words_of_word h.1.1 h.1.2
    rcases words with _ | ⟨next, words⟩
    · simpa using hword
    · rw [join_cons_of_ne_nil _ _ (List.cons_ne_nil next words), List.singleton_append,
        words_append_cons (by decide), ih h.2, hword, List.singleton_append]

/-- Words with spaces between them start and end with one. -/
theorem ends_join {words : List Text} (h : ∀ word ∈ words, word.IsWord) :
    (∀ c ∈ (join [' '] words).head?, isBlank c = false) ∧
      ∀ c ∈ (join [' '] words).getLast?, isBlank c = false := by
  induction words with
  | nil => simp
  | cons word words ih =>
    rw [List.forall_mem_cons] at h
    rcases words with _ | ⟨next, words⟩
    · constructor
      · intro c hc
        exact h.1.not_blank (List.mem_of_mem_head? (by simpa using hc))
      · intro c hc
        exact h.1.not_blank (List.mem_of_getLast? (by simpa using hc))
    · have hrest : join [' '] (next :: words) ≠ [] := by
        intro hnil
        have hwords := words_join h.2
        rw [hnil] at hwords
        cases hwords
      rw [join_cons_of_ne_nil _ _ (List.cons_ne_nil next words)]
      constructor
      · intro c hc
        rw [List.head?_append_of_ne_nil _ h.1.1] at hc
        exact h.1.not_blank (List.mem_of_mem_head? hc)
      · intro c hc
        rw [List.getLast?_append_of_ne_nil _ (by simp),
          List.getLast?_append_of_ne_nil _ hrest] at hc
        exact (ih h.2).2 c hc

/-- A trimmed text does not start with a blank. -/
theorem head?_of_trim {t : Text} (h : t.trim = t) : ∀ c ∈ t.head?, isBlank c = false := by
  intro c hc
  have hne : t ≠ [] := by
    rintro rfl
    cases hc
  obtain ⟨d, s, rfl, hd⟩ := exists_eq_cons_of_trim hne h
  cases hc
  exact hd

/-- A trimmed text does not end with a blank. -/
theorem getLast?_of_trim {t : Text} (h : t.trim = t) : ∀ c ∈ t.getLast?, isBlank c = false := by
  intro c hc
  obtain ⟨s, rfl⟩ := List.getLast?_eq_some_iff.mp hc
  rw [← Bool.not_eq_true]
  intro hblank
  -- a blank at the end would be gone, and with it a part of the length
  have hlength := congrArg List.length h
  rw [trim_append_of_blank (by simpa using hblank)] at hlength
  have hle := (trim_isInfix s).length_le
  rw [List.length_append, List.length_singleton] at hlength
  omega

/-- A text that neither starts nor ends with a blank has none to trim. -/
theorem trim_of_ends {t : Text} (hhead : ∀ c ∈ t.head?, isBlank c = false)
    (hlast : ∀ c ∈ t.getLast?, isBlank c = false) : t.trim = t := by
  have hstart : t.trimStart = t := by
    rcases t with _ | ⟨c, t⟩
    · rfl
    · exact trimStart_cons_of_not (hhead c rfl) t
  rcases List.eq_nil_or_concat' t with rfl | ⟨s, c, rfl⟩
  · rfl
  · have hc : isBlank c = false := hlast c (by simp)
    rw [trim, hstart, trimEnd_append, if_neg (by simp [hc])]
    simp [trimEnd, dropEndWhile, hc]

/-- Words with single spaces between them are trimmed. -/
theorem trim_join {words : List Text} (h : ∀ word ∈ words, word.IsWord) :
    (join [' '] words).trim = join [' '] words :=
  trim_of_ends (ends_join h).1 (ends_join h).2

/-! ### Collapsed blanks -/

/-- The text with each run of blanks replaced by one space, which stands for the last blank of the
run. -/
def collapseBlanks : Text → Text
  | [] => []
  | c :: rest =>
    if isBlank c then
      if rest.head?.any isBlank then collapseBlanks rest else ' ' :: collapseBlanks rest
    else c :: collapseBlanks rest

/-- What is no blank stays. -/
theorem collapseBlanks_append {word : Text} (h : word.any isBlank = false) (t : Text) :
    (word ++ t).collapseBlanks = word ++ t.collapseBlanks := by
  induction word with
  | nil => rfl
  | cons c word ih =>
    rw [List.any_cons, Bool.or_eq_false_iff] at h
    rw [List.cons_append, collapseBlanks, h.1, ih h.2]
    simp

/-- A run of blanks becomes one space. -/
theorem collapseBlanks_gap {gap : Text} (hne : gap ≠ []) (hgap : gap.all isBlank = true) {t : Text}
    (ht : ∀ c ∈ t.head?, isBlank c = false) :
    (gap ++ t).collapseBlanks = ' ' :: t.collapseBlanks := by
  induction gap with
  | nil => exact absurd rfl hne
  | cons c gap ih =>
    rw [List.all_cons, Bool.and_eq_true] at hgap
    rw [List.cons_append, collapseBlanks, if_pos hgap.1]
    rcases gap with _ | ⟨d, gap⟩
    · rw [List.nil_append, if_neg]
      rw [Option.any_eq_true]
      rintro ⟨d, hd, hblank⟩
      rw [ht d hd] at hblank
      cases hblank
    · have hd : isBlank d = true := List.all_eq_true.mp hgap.2 d List.mem_cons_self
      rw [if_pos (by simpa using hd)]
      exact ih (List.cons_ne_nil d gap) hgap.2

/-- A text with a blank in it can be cut at the first one. -/
theorem exists_first_blank {t : Text} (h : t.any isBlank = true) :
    ∃ (word : Text) (c : Char) (rest : Text),
      t = word ++ c :: rest ∧ word.any isBlank = false ∧ isBlank c = true := by
  induction t with
  | nil => cases h
  | cons d t ih =>
    rcases hd : isBlank d with _ | _
    · rw [List.any_cons, hd, Bool.false_or] at h
      obtain ⟨word, c, rest, rfl, hword, hc⟩ := ih h
      exact ⟨d :: word, c, rest, rfl, by rw [List.any_cons, hd, hword, Bool.false_or], hc⟩
    · exact ⟨[], d, t, rfl, rfl, hd⟩

/-- Collapsing the blanks of a text that starts and ends with a word leaves its words with single
spaces between them. -/
theorem collapseBlanks_of_ends {t : Text} (hhead : ∀ c ∈ t.head?, isBlank c = false)
    (hlast : ∀ c ∈ t.getLast?, isBlank c = false) : t.collapseBlanks = join [' '] t.words := by
  rcases hblank : t.any isBlank with _ | _
  · have hcollapse := collapseBlanks_append hblank []
    rw [List.append_nil, collapseBlanks, List.append_nil] at hcollapse
    rcases t with _ | ⟨c, t⟩
    · rfl
    · rw [hcollapse, words_of_word (List.cons_ne_nil c t) hblank, join_singleton]
  -- the text is cut at its first run of blanks
  obtain ⟨word, c, rest, rfl, hword, hc⟩ := exists_first_blank hblank
  have hne : word ≠ [] := by
    rintro rfl
    simp [hc] at hhead
  obtain ⟨gap, tail, hrest, hgap, htail⟩ : ∃ gap tail, rest = gap ++ tail ∧
      gap.all isBlank = true ∧ ∀ d ∈ tail.head?, isBlank d = false := by
    refine ⟨rest.takeWhile isBlank, rest.dropWhile isBlank, ?_, List.all_takeWhile, ?_⟩
    · exact List.takeWhile_append_dropWhile.symm
    · intro d hd
      have hnot := List.head?_dropWhile_not isBlank rest
      rw [Option.mem_def.mp hd] at hnot
      exact hnot
  have hrun : (c :: gap).all isBlank = true := by simp [hc, hgap]
  have htext : c :: rest = (c :: gap) ++ tail := by rw [hrest, List.cons_append]
  have hne' : tail ≠ [] := by
    rintro rfl
    have hend : (c :: gap).getLast (List.cons_ne_nil c gap) ∈ (word ++ c :: rest).getLast? := by
      rw [htext, List.append_nil, List.getLast?_append_of_ne_nil _ (List.cons_ne_nil c gap)]
      exact List.getLast?_eq_some_getLast _
    have hnot := hlast _ hend
    rw [List.all_eq_true.mp hrun _ (List.getLast_mem _)] at hnot
    cases hnot
  have hlength : tail.length < (word ++ c :: rest).length := by
    rw [htext]
    simp only [List.length_append, List.length_cons]
    omega
  have ih : tail.collapseBlanks = join [' '] tail.words := by
    refine collapseBlanks_of_ends htail fun d hd => hlast d ?_
    rw [htext, ← List.append_assoc, List.getLast?_append_of_ne_nil _ hne']
    exact hd
  have hwords : tail.words ≠ [] := by
    intro hnil
    rw [words_eq_nil_iff] at hnil
    obtain ⟨d, tail, rfl⟩ := List.exists_cons_of_ne_nil hne'
    rw [List.all_cons, htail d rfl] at hnil
    cases hnil
  rw [htext, collapseBlanks_append hword, collapseBlanks_gap (List.cons_ne_nil c gap) hrun htail,
    ih, words_append_gap (List.cons_ne_nil c gap) hrun, words_of_word hne hword,
    List.singleton_append, join_cons_of_ne_nil _ _ hwords, List.singleton_append]
termination_by t.length

/-- Trimming a text and collapsing its blanks leaves its words with single spaces between them. -/
theorem collapseBlanks_trim (t : Text) : t.trim.collapseBlanks = join [' '] t.words := by
  rw [collapseBlanks_of_ends (head?_of_trim t.trim_trim) (getLast?_of_trim t.trim_trim), words_trim]

/-! ### Single spaces -/

/-- Whether the only blanks of a text are spaces, and no two of them stand side by side. -/
structure SingleSpaced (t : Text) : Prop where
  /-- No other blanks. -/
  spaces : ∀ c ∈ t, isBlank c = true → c = ' '
  /-- No two blanks. -/
  single : t.IsChain fun a b => isBlank a = true → isBlank b = false

instance (t : Text) : Decidable t.SingleSpaced :=
  decidable_of_iff (t.all (fun c => !isBlank c || c == ' ') = true ∧
      t.IsChain fun a b => isBlank a = true → isBlank b = false) <| by
    simp only [List.all_eq_true, Bool.or_eq_true, Bool.not_eq_true', beq_iff_eq]
    constructor
    · rintro ⟨hspaces, hsingle⟩
      refine ⟨fun c hc hblank => (hspaces c hc).resolve_left ?_, hsingle⟩
      simp [hblank]
    · intro h
      refine ⟨fun c hc => ?_, h.single⟩
      rw [or_iff_not_imp_left, Bool.not_eq_false]
      exact h.spaces c hc

/-- Where every run of blanks is a single space, none is replaced. -/
theorem SingleSpaced.collapseBlanks_eq {t : Text} (h : t.SingleSpaced) : t.collapseBlanks = t := by
  induction t with
  | nil => rfl
  | cons c t ih =>
    have hrest : collapseBlanks t = t := by
      apply ih
      exact ⟨fun d hd => h.spaces d (List.mem_cons_of_mem c hd), h.single.tail⟩
    rw [collapseBlanks]
    split
    next hc =>
      obtain rfl : c = ' ' := h.spaces c List.mem_cons_self hc
      rw [if_neg, hrest]
      rw [Option.any_eq_true]
      rintro ⟨d, hd, hblank⟩
      rw [h.single.rel_head? hd hc] at hblank
      cases hblank
    next => rw [hrest]

/-- A trimmed text whose blanks are single spaces is its words with spaces between them. -/
theorem join_words {t : Text} (h : t.SingleSpaced) (htrim : t.trim = t) :
    join [' '] t.words = t := by
  rw [← collapseBlanks_trim, htrim, h.collapseBlanks_eq]

end Text

end ExplicitInstantiation
