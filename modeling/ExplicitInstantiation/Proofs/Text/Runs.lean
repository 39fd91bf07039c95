import ExplicitInstantiation.Text.Search

/-!
# Runs of identifier characters

A line falls into maximal runs of identifier characters (`Text.identifierRuns`,
`mem_identifierRuns_iff`). Searching the line for a name passes over an occurrence as a whole, also
over one that is no word, and so might step over a word that starts inside it. For names that
consist of identifier characters this never happens: the words it finds are exactly the runs that
are equal to the name (`wordOccurrences_eq_runs`).

A text can also be taken apart run by run (`runInduction`), each run and each character outside the
runs in its turn; the words that are met on the way are those of the runs (`runWords`). What follows
the first word of some name is found in the same way (`StartsRun.afterWord?_eq`).
-/

namespace ExplicitInstantiation

namespace Text

/-- A name that can stand as a word: it is not empty, and it consists of identifier characters. -/
def IsIdentifier (name : Text) : Prop :=
  name ≠ [] ∧ ∀ c ∈ name, isIdentifierChar c = true

instance (name : Text) : Decidable name.IsIdentifier :=
  decidable_of_iff (name ≠ [] ∧ name.all isIdentifierChar = true) (by
    rw [IsIdentifier, List.all_eq_true])

/-- A maximal run of identifier characters, at the place where it stands. -/
structure Run extends Occurrence where
  /-- The characters of the run. -/
  word : Text
  deriving Repr, DecidableEq

/-- The runs of a text, when `column` characters, the last of them `previous`, are behind. A run
starts at an identifier character that does not follow another one. -/
def runsFrom (column : Nat) (previous : Option Char) : Text → List Run
  | [] => []
  | c :: rest =>
    if isIdentifierChar c && !previous.any isIdentifierChar then
      { column, previous
        rest := (c :: rest).dropWhile isIdentifierChar
        word := (c :: rest).takeWhile isIdentifierChar } :: runsFrom (column + 1) (some c) rest
    else runsFrom (column + 1) (some c) rest

/-- The maximal runs of identifier characters of a line, from left to right. -/
def identifierRuns (line : Text) : List Run :=
  runsFrom 0 none line

/-- A name is a word where no identifier character touches it on either side. -/
theorem Occurrence.isWord_iff {place : Occurrence} :
    place.isWord = true ↔
      place.previous.any isIdentifierChar = false ∧
        place.rest.head?.any isIdentifierChar = false := by
  simp [isWord]

/-! ### Where the runs stand -/

/-- No run starts before the text that is searched for runs. -/
theorem column_le_of_mem_runsFrom {column : Nat} {previous : Option Char} {t : Text} {run : Run}
    (h : run ∈ runsFrom column previous t) : column ≤ run.column := by
  induction t generalizing column previous with
  | nil => simp [runsFrom] at h
  | cons c rest ih =>
    rw [runsFrom] at h
    split at h
    · rcases List.mem_cons.mp h with rfl | h
      · exact Nat.le_refl _
      · exact Nat.le_of_succ_le (ih h)
    · exact Nat.le_of_succ_le (ih h)

/-- Behind an identifier character, the next run starts after the rest of the run that the
character belongs to. -/
theorem takeWhile_le_of_mem_runsFrom {column : Nat} {previous : Char} {t : Text} {run : Run}
    (hprevious : isIdentifierChar previous = true)
    (h : run ∈ runsFrom column (some previous) t) :
    column + (t.takeWhile isIdentifierChar).length ≤ run.column := by
  induction t generalizing column previous with
  | nil => simp [runsFrom] at h
  | cons c rest ih =>
    rw [runsFrom, if_neg (by simp [hprevious])] at h
    rw [List.takeWhile_cons]
    split
    next hc =>
      have := ih hc h
      rw [List.length_cons]
      omega
    next =>
      exact Nat.le_of_succ_le (column_le_of_mem_runsFrom h)

/-- The runs stand one behind the other. -/
theorem pairwise_runsFrom (column : Nat) (previous : Option Char) (t : Text) :
    (runsFrom column previous t).Pairwise fun a b => a.column + a.word.length ≤ b.column := by
  induction t generalizing column previous with
  | nil => exact .nil
  | cons c rest ih =>
    rw [runsFrom]
    split
    next hstarts =>
      have hc : isIdentifierChar c = true := (Bool.and_eq_true_iff.mp hstarts).1
      refine .cons ?_ (ih _ _)
      intro run hrun
      have := takeWhile_le_of_mem_runsFrom hc hrun
      simp only [List.takeWhile_cons, hc, if_true, List.length_cons]
      omega
    next => exact ih _ _

/-- The runs of a line stand one behind the other. -/
theorem pairwise_identifierRuns (line : Text) :
    line.identifierRuns.Pairwise fun a b => a.column + a.word.length ≤ b.column :=
  pairwise_runsFrom 0 none line

/-! ### What the runs are -/

/-- Where an identifier is followed by something else, it is cut off as a whole. -/
theorem span_isIdentifierChar {word rest : Text} (hword : ∀ c ∈ word, isIdentifierChar c = true)
    (hrest : rest.head?.any isIdentifierChar = false) :
    (word ++ rest).takeWhile isIdentifierChar = word ∧
      (word ++ rest).dropWhile isIdentifierChar = rest := by
  rw [List.takeWhile_append_of_pos hword, List.dropWhile_append_of_pos hword]
  cases rest with
  | nil => simp
  | cons c rest =>
    have hc : isIdentifierChar c = false := hrest
    simp [hc]

/-- Behind all identifier characters in front there is none. -/
theorem head?_dropWhile_isIdentifierChar (t : Text) :
    (t.dropWhile isIdentifierChar).head?.any isIdentifierChar = false := by
  have h := List.head?_dropWhile_not isIdentifierChar t
  cases hhead : (t.dropWhile isIdentifierChar).head? with
  | none => rfl
  | some c =>
    rw [hhead] at h
    exact h

/-- The run that starts right here. -/
theorem run_starts_iff {column : Nat} {previous : Option Char} {c : Char} {t : Text} {run : Run} :
    (isIdentifierChar c && !previous.any isIdentifierChar) = true ∧
        run = ⟨⟨column, previous, (c :: t).dropWhile isIdentifierChar⟩,
          (c :: t).takeWhile isIdentifierChar⟩ ↔
      run.word.IsIdentifier ∧ run.isWord = true ∧ c :: t = run.word ++ run.rest ∧
        run.column = column ∧ run.previous = previous := by
  constructor
  · rintro ⟨hstarts, rfl⟩
    obtain ⟨hc, hprevious⟩ : isIdentifierChar c = true ∧ previous.any isIdentifierChar = false := by
      simpa using hstarts
    exact ⟨⟨by simp [hc], List.all_eq_true.mp List.all_takeWhile⟩,
      Occurrence.isWord_iff.mpr ⟨hprevious, head?_dropWhile_isIdentifierChar _⟩,
      List.takeWhile_append_dropWhile.symm, rfl, rfl⟩
  · rintro ⟨hword, hisWord, ht, rfl, rfl⟩
    obtain ⟨hprevious, hrest⟩ := Occurrence.isWord_iff.mp hisWord
    obtain ⟨htake, hdrop⟩ := span_isIdentifierChar hword.2 hrest
    have hc : isIdentifierChar c = true := by
      rcases hchars : run.word with _ | ⟨d, word⟩
      · exact absurd hchars hword.1
      · rw [hchars, List.cons_append] at ht
        obtain ⟨rfl, -⟩ := List.cons.inj ht
        exact hword.2 c (by simp [hchars])
    rw [ht, htake, hdrop]
    exact ⟨by simp [hc, hprevious], rfl⟩

/-- The runs behind some text are the identifiers that no identifier character touches. -/
theorem mem_runsFrom_iff {column : Nat} {previous : Option Char} {t : Text} {run : Run} :
    run ∈ runsFrom column previous t ↔
      run.word.IsIdentifier ∧ run.isWord = true ∧
        ∃ before, t = before ++ (run.word ++ run.rest) ∧ run.column = column + before.length ∧
          run.previous = before.getLast?.or previous := by
  induction t generalizing column previous with
  | nil =>
    simp only [runsFrom, List.not_mem_nil, false_iff]
    rintro ⟨hword, -, before, ht, -, -⟩
    exact hword.1 (by simp_all)
  | cons c t ih =>
    have hmem : run ∈ runsFrom column previous (c :: t) ↔
        ((isIdentifierChar c && !previous.any isIdentifierChar) = true ∧
          run = ⟨⟨column, previous, (c :: t).dropWhile isIdentifierChar⟩,
            (c :: t).takeWhile isIdentifierChar⟩) ∨ run ∈ runsFrom (column + 1) (some c) t := by
      rw [runsFrom]
      split <;> simp_all
    have hlength (before : Text) : column + (c :: before).length = column + 1 + before.length := by
      rw [List.length_cons]
      omega
    have hlast (before : Text) :
        (c :: before).getLast?.or previous = before.getLast?.or (some c) := by
      rw [List.getLast?_cons]
      cases before.getLast? <;> rfl
    rw [hmem, run_starts_iff, ih]
    constructor
    · rintro (⟨hword, hisWord, ht, hcolumn, hprevious⟩ |
        ⟨hword, hisWord, before, rfl, hcolumn, hprevious⟩)
      · exact ⟨hword, hisWord, [], ht, hcolumn, hprevious⟩
      · rw [← hlength] at hcolumn
        rw [← hlast] at hprevious
        exact ⟨hword, hisWord, c :: before, rfl, hcolumn, hprevious⟩
    · rintro ⟨hword, hisWord, before, ht, hcolumn, hprevious⟩
      rcases before with _ | ⟨d, before⟩
      · exact .inl ⟨hword, hisWord, ht, hcolumn, hprevious⟩
      · obtain ⟨rfl, rfl⟩ := List.cons.inj ht
        rw [hlength] at hcolumn
        rw [hlast] at hprevious
        exact .inr ⟨hword, hisWord, before, rfl, hcolumn, hprevious⟩

/-- The runs of a line are the identifiers in it that no identifier character touches. -/
theorem mem_identifierRuns_iff {line : Text} {run : Run} :
    run ∈ line.identifierRuns ↔
      run.word.IsIdentifier ∧ run.isWord = true ∧
        ∃ before, line = before ++ (run.word ++ run.rest) ∧ run.column = before.length ∧
          run.previous = before.getLast? := by
  simp [identifierRuns, mem_runsFrom_iff]

/-- The columns of the runs of a line increase. -/
theorem pairwise_column_identifierRuns (line : Text) :
    line.identifierRuns.Pairwise fun a b => a.column < b.column := by
  refine (pairwise_identifierRuns line).imp_of_mem fun {a b} ha _ h => ?_
  have := List.length_pos_iff.mpr (mem_identifierRuns_iff.mp ha).1.1
  omega

/-! ### Words are runs -/

/-- An identifier at the start of a text is a word there exactly if it is the whole run. -/
theorem takeWhile_eq_iff_of_isPrefixOf {name t : Text} (hname : name.IsIdentifier)
    (h : name.isPrefixOf t = true) :
    t.takeWhile isIdentifierChar = name ↔
      (t.drop name.length).head?.any isIdentifierChar = false := by
  obtain ⟨rest, rfl⟩ := List.isPrefixOf_iff_prefix.mp h
  rw [List.drop_left]
  constructor
  · intro htake
    have hrest : (name ++ rest).dropWhile isIdentifierChar = rest := by
      have := List.takeWhile_append_dropWhile (p := isIdentifierChar) (l := name ++ rest)
      rw [htake] at this
      exact List.append_cancel_left this
    rw [← hrest]
    exact head?_dropWhile_isIdentifierChar _
  · intro hrest
    exact (span_isIdentifierChar hname.2 hrest).1

/-- What holds of the characters of a name holds where the name stands, of the first character and
of those that are passed with it. -/
theorem forall_of_isPrefixOf {P : Char → Prop} {name t : Text} {c : Char} (hne : name ≠ [])
    (hname : ∀ c ∈ name, P c) (h : name.isPrefixOf (c :: t) = true) :
    P c ∧ ∀ d ∈ t.take (name.length - 1), P d := by
  rcases name with _ | ⟨d, name⟩
  · exact absurd rfl hne
  · obtain ⟨rest, ht⟩ := List.isPrefixOf_iff_prefix.mp h
    obtain ⟨rfl, rfl⟩ := List.cons.inj ht
    refine ⟨hname d List.mem_cons_self, fun e he => hname e (List.mem_cons_of_mem d ?_)⟩
    simpa using he

/-- The search for a name and the runs of a text keep step. While the search passes the characters
of an occurrence, no run starts: they are identifier characters, and so is the one before them. -/
theorem filter_occurrencesFrom {name : Text} (hname : name.IsIdentifier) {column skip : Nat}
    {previous : Option Char} {t : Text}
    (hskip : 0 < skip → previous.any isIdentifierChar = true)
    (hpassed : ∀ c ∈ t.take skip, isIdentifierChar c = true) :
    (occurrencesFrom name column previous skip t).filter Occurrence.isWord =
      ((runsFrom column previous t).filter (·.word = name)).map Run.toOccurrence := by
  induction t generalizing column previous skip with
  | nil => simp [occurrencesFrom, runsFrom]
  | cons c t ih =>
    cases skip with
    | succ skip =>
      have hc : isIdentifierChar c = true := hpassed c (by simp)
      rw [occurrencesFrom, runsFrom, if_neg (by simp [hskip (Nat.succ_pos skip)])]
      exact ih (fun _ => hc) fun d hd => hpassed d (by simp [hd])
    | zero =>
      rw [occurrencesFrom, runsFrom]
      by_cases hstands : name.isPrefixOf (c :: t) = true
      · have hrun := takeWhile_eq_iff_of_isPrefixOf hname hstands
        obtain ⟨hc, hinside⟩ := forall_of_isPrefixOf hname.1 hname.2 hstands
        have htail : (occurrencesFrom name (column + 1) (some c) (name.length - 1) t).filter
            Occurrence.isWord =
            ((runsFrom (column + 1) (some c) t).filter (·.word = name)).map Run.toOccurrence :=
          ih (fun _ => hc) hinside
        rw [if_pos hstands]
        -- The occurrence is a word if it starts a run and is all of it.
        by_cases hprevious : previous.any isIdentifierChar = true
        · rw [List.filter_cons_of_neg (by simp [Occurrence.isWord, hprevious]),
            if_neg (by simp [hprevious]), htail]
        rw [Bool.not_eq_true] at hprevious
        rw [if_pos (by simp [hc, hprevious])]
        by_cases hword : (c :: t).takeWhile isIdentifierChar = name
        · have hcut := List.takeWhile_append_dropWhile (p := isIdentifierChar) (l := c :: t)
          rw [hword] at hcut
          have hdrop : (c :: t).drop name.length = (c :: t).dropWhile isIdentifierChar :=
            (congrArg (List.drop name.length) hcut.symm).trans List.drop_left
          rw [List.filter_cons_of_pos (Occurrence.isWord_iff.mpr ⟨hprevious, hrun.mp hword⟩),
            List.filter_cons_of_pos (by simpa using hword), List.map_cons, htail, hdrop]
        · have hinner : ¬ Occurrence.isWord ⟨column, previous, (c :: t).drop name.length⟩ = true :=
            fun h => hword (hrun.mpr (Occurrence.isWord_iff.mp h).2)
          rw [List.filter_cons_of_neg hinner, List.filter_cons_of_neg (by simpa using hword), htail]
      · rw [if_neg hstands, ih (by simp) (by simp)]
        split
        · rw [List.filter_cons_of_neg]
          intro hdecide
          have hword : (c :: t).takeWhile isIdentifierChar = name := of_decide_eq_true hdecide
          apply hstands
          rw [List.isPrefixOf_iff_prefix, ← hword]
          exact List.takeWhile_prefix isIdentifierChar
        · rfl

/-- **Words are runs.** The search for a name that consists of identifier characters finds it as a
word exactly where it is a maximal run of them. -/
theorem wordOccurrences_eq_runs {name : Text} (hname : name.IsIdentifier) (line : Text) :
    line.wordOccurrences name =
      (line.identifierRuns.filter (·.word = name)).map Run.toOccurrence :=
  filter_occurrencesFrom hname (by simp) (by simp)

/-- The places where a name is found as a word are those where it stands and no identifier character
touches it. -/
theorem mem_wordOccurrences_iff {line word : Text} (hword : word.IsIdentifier)
    {place : Occurrence} :
    place ∈ line.wordOccurrences word ↔
      place.isWord = true ∧ ∃ before, line = before ++ (word ++ place.rest) ∧
        place.column = before.length ∧ place.previous = before.getLast? := by
  rw [wordOccurrences_eq_runs hword, List.mem_map]
  constructor
  · rintro ⟨run, hrun, rfl⟩
    obtain ⟨hmem, hname⟩ := List.mem_filter.mp hrun
    obtain rfl : run.word = word := of_decide_eq_true hname
    exact (mem_identifierRuns_iff.mp hmem).2
  · intro h
    refine ⟨⟨place, word⟩, List.mem_filter.mpr ⟨?_, decide_eq_true rfl⟩, rfl⟩
    exact mem_identifierRuns_iff.mpr ⟨hword, h⟩

/-! ### Run by run -/

/-- The words of the runs of a text, from left to right. -/
def runWords (t : Text) : List Text :=
  t.identifierRuns.map Run.word

/-- Whether a text starts with `word` as a run, behind which `rest` follows. -/
structure StartsRun (t word rest : Text) : Prop where
  /-- The run is an identifier. -/
  isIdentifier : word.IsIdentifier
  /-- What follows belongs to no run that starts earlier. -/
  ends : rest.head?.any isIdentifierChar = false
  /-- Nothing else stands there. -/
  text_eq : t = word ++ rest

/-- A text starts with one run at most. -/
theorem StartsRun.unique {t word rest word' rest' : Text} (h : StartsRun t word rest)
    (h' : StartsRun t word' rest') : word = word' ∧ rest = rest' := by
  obtain ⟨htake, hdrop⟩ := span_isIdentifierChar h.isIdentifier.2 h.ends
  obtain ⟨htake', hdrop'⟩ := span_isIdentifierChar h'.isIdentifier.2 h'.ends
  rw [← h.text_eq] at htake hdrop
  rw [← h'.text_eq] at htake' hdrop'
  exact ⟨htake.symm.trans htake', hdrop.symm.trans hdrop'⟩

/-- A text that starts with a run is not empty. -/
theorem StartsRun.ne_nil {t word rest : Text} (h : StartsRun t word rest) : t ≠ [] := by
  rw [h.text_eq]
  exact List.append_ne_nil_of_left_ne_nil h.isIdentifier.1 rest

/-- A run starts with an identifier character. -/
theorem StartsRun.isIdentifierChar_head {c : Char} {t word rest : Text}
    (h : StartsRun (c :: t) word rest) : isIdentifierChar c = true := by
  rcases hword : word with _ | ⟨d, word'⟩
  · exact absurd hword h.isIdentifier.1
  · have ht := h.text_eq
    rw [hword, List.cons_append] at ht
    obtain ⟨rfl, -⟩ := List.cons.inj ht
    exact h.isIdentifier.2 c (by simp [hword])

/-- A run that a text starts with is a run of more text, if that does not go on with it. -/
theorem StartsRun.append {s t word rest : Text} (h : StartsRun s word rest)
    (ht : t.head?.any isIdentifierChar = false) : StartsRun (s ++ t) word (rest ++ t) where
  isIdentifier := h.isIdentifier
  ends := by
    have hends := h.ends
    rcases rest with _ | ⟨c, rest⟩
    · exact ht
    · exact hends
  text_eq := by rw [h.text_eq, List.append_assoc]

/-- A text is empty, or it starts with a character that belongs to no run, or with a run. -/
theorem run_cases (t : Text) :
    t = [] ∨ (∃ c rest, t = c :: rest ∧ isIdentifierChar c = false) ∨
      ∃ word rest, StartsRun t word rest := by
  rcases t with _ | ⟨c, rest⟩
  · exact .inl rfl
  · rcases hc : isIdentifierChar c with _ | _
    · exact .inr (.inl ⟨c, rest, rfl, hc⟩)
    · refine .inr (.inr ⟨(c :: rest).takeWhile isIdentifierChar,
        (c :: rest).dropWhile isIdentifierChar, ⟨by simp [hc], ?_⟩, ?_, ?_⟩)
      · exact List.all_eq_true.mp List.all_takeWhile
      · exact head?_dropWhile_isIdentifierChar _
      · exact List.takeWhile_append_dropWhile.symm

/-- Induction on a text run by run. -/
@[elab_as_elim]
theorem runInduction {motive : Text → Prop} (nil : motive [])
    (plain : ∀ c rest, isIdentifierChar c = false → motive rest → motive (c :: rest))
    (run : ∀ t word rest, StartsRun t word rest → motive rest → motive t) (t : Text) :
    motive t := by
  induction hlength : t.length using Nat.strongRecOn generalizing t with
  | ind length ih =>
    subst hlength
    rcases run_cases t with rfl | ⟨c, rest, rfl, hc⟩ | ⟨word, rest, hstarts⟩
    · exact nil
    · exact plain c rest hc (ih rest.length (by simp) rest rfl)
    · have hword := List.length_pos_iff.mpr hstarts.isIdentifier.1
      have hshorter : rest.length < t.length := by
        rw [hstarts.text_eq, List.length_append]
        omega
      exact run t word rest hstarts (ih rest.length hshorter rest rfl)

/-- The words of the runs of a text, from left to right, each with what follows it. -/
def runTails (t : Text) : List (Text × Text) :=
  t.identifierRuns.map fun run => (run.word, run.rest)

/-- Without what follows them, the runs are the words of the text. -/
theorem map_fst_runTails (t : Text) : (runTails t).map Prod.fst = runWords t :=
  List.map_map

/-- Which runs there are does not depend on the column, and on the character before only if it is
an identifier character. -/
theorem map_runsFrom_congr {column column' : Nat} {previous previous' : Option Char}
    (h : previous.any isIdentifierChar = previous'.any isIdentifierChar) (t : Text) :
    (runsFrom column previous t).map (fun run => (run.word, run.rest)) =
      (runsFrom column' previous' t).map fun run => (run.word, run.rest) := by
  induction t generalizing column column' previous previous' with
  | nil => rfl
  | cons c rest ih =>
    rw [runsFrom, runsFrom, h]
    split
    · rw [List.map_cons, List.map_cons, ih rfl]
    · exact ih rfl

/-- A character that belongs to no run changes nothing of the runs behind it. -/
theorem runTails_cons_of_not {c : Char} (hc : isIdentifierChar c = false) (rest : Text) :
    runTails (c :: rest) = runTails rest := by
  rw [runTails, identifierRuns, runsFrom, if_neg (by simp [hc])]
  exact map_runsFrom_congr (by simpa using hc) rest

/-- Inside a run no other run starts. -/
theorem map_runsFrom_append {column : Nat} {previous : Char} {word rest : Text}
    (hprevious : isIdentifierChar previous = true) (hword : ∀ c ∈ word, isIdentifierChar c = true)
    (hrest : rest.head?.any isIdentifierChar = false) :
    (runsFrom column (some previous) (word ++ rest)).map (fun run => (run.word, run.rest)) =
      runTails rest := by
  induction word generalizing column previous with
  | nil =>
    rcases rest with _ | ⟨c, rest⟩
    · rfl
    · have hc : isIdentifierChar c = false := hrest
      rw [List.nil_append, runsFrom, if_neg (by simp [hc]), runTails_cons_of_not hc]
      exact map_runsFrom_congr (by simpa using hc) rest
  | cons c word ih =>
    rw [List.forall_mem_cons] at hword
    rw [List.cons_append, runsFrom, if_neg (by simp [hprevious])]
    exact ih hword.1 hword.2

/-- A text that starts with a run has it and the runs behind it. -/
theorem StartsRun.runTails_eq {t word rest : Text} (h : StartsRun t word rest) :
    t.runTails = (word, rest) :: rest.runTails := by
  obtain ⟨hword, hrest, rfl⟩ := h
  obtain ⟨htake, hdrop⟩ := span_isIdentifierChar hword.2 hrest
  rcases word with _ | ⟨c, word⟩
  · exact absurd rfl hword.1
  · have hchars := List.forall_mem_cons.mp hword.2
    rw [List.cons_append] at htake hdrop ⊢
    rw [runTails, identifierRuns, runsFrom, if_pos (by simp [hchars.1]), List.map_cons, htake,
      hdrop, map_runsFrom_append hchars.1 hchars.2 hrest]

/-- The empty text has no word. -/
@[simp] theorem runWords_nil : runWords [] = [] := rfl

/-- A character that belongs to no run changes nothing of the words behind it. -/
theorem runWords_cons_of_not {c : Char} (hc : isIdentifierChar c = false) (rest : Text) :
    runWords (c :: rest) = runWords rest := by
  rw [← map_fst_runTails, runTails_cons_of_not hc, map_fst_runTails]

/-- A text that starts with a run has its word and the words behind it. -/
theorem StartsRun.runWords_eq {t word rest : Text} (h : StartsRun t word rest) :
    t.runWords = word :: rest.runWords := by
  rw [← map_fst_runTails, h.runTails_eq, List.map_cons, map_fst_runTails]

/-- An identifier is the only word in it. -/
theorem IsIdentifier.runWords_eq {word : Text} (h : word.IsIdentifier) : word.runWords = [word] :=
  StartsRun.runWords_eq ⟨h, rfl, (List.append_nil word).symm⟩

/-- At the end of a run a text can be cut, and its pieces have the runs of the whole. -/
theorem runWords_append {t : Text} (ht : t.head?.any isIdentifierChar = false) (s : Text) :
    runWords (s ++ t) = runWords s ++ runWords t := by
  induction s using runInduction with
  | nil => rfl
  | plain c rest hc ih =>
    rw [List.cons_append, runWords_cons_of_not hc, runWords_cons_of_not hc, ih]
  | run s word rest hrun ih =>
    rw [(hrun.append ht).runWords_eq, hrun.runWords_eq, ih, List.cons_append]

/-! ### The first word -/

/-- What follows the first run that is equal to a name. -/
theorem afterWord?_eq_find? {name : Text} (hname : name.IsIdentifier) (line : Text) :
    line.afterWord? name = (line.runTails.find? (·.1 = name)).map Prod.snd := by
  rw [afterWord?, wordOccurrences_eq_runs hname, List.head?_map, List.head?_filter, runTails,
    List.find?_map, Option.map_map, Option.map_map]
  rfl

/-- The first run is the name that is looked for, or the search goes on behind it. -/
theorem StartsRun.afterWord?_eq {t word rest name : Text} (h : StartsRun t word rest)
    (hname : name.IsIdentifier) :
    t.afterWord? name = if word = name then some rest else rest.afterWord? name := by
  rw [afterWord?_eq_find? hname, h.runTails_eq, List.find?_cons, afterWord?_eq_find? hname]
  by_cases hword : word = name <;> simp [hword]

/-- A name is found exactly if it is a word of the text. -/
theorem afterWord?_eq_none_iff {name : Text} (hname : name.IsIdentifier) {line : Text} :
    line.afterWord? name = none ↔ name ∉ line.runWords := by
  rw [afterWord?_eq_find? hname, Option.map_eq_none_iff, List.find?_eq_none, ← map_fst_runTails,
    List.mem_map]
  constructor
  · rintro h ⟨pair, hpair, rfl⟩
    exact h pair hpair (decide_eq_true rfl)
  · intro h pair hpair heq
    exact h ⟨pair, hpair, of_decide_eq_true heq⟩

end Text

end ExplicitInstantiation
