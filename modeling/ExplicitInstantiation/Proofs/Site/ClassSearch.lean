import ExplicitInstantiation.Proofs.Site.WordSearch

/-!
# The search for a class, word by word

`LineSearch.searchClass` walks through all words of a line that are the name of a class and passes
over those whose columns are taken. It comes to the same to search for the next word that is free,
take it in, and go on behind it until there is no further one (`wordByWord_iff`).

What is taken are columns there and bytes here, which makes no difference for a word
(`isFree_iff_columns`).
-/

namespace ExplicitInstantiation

/-- The bytes of some columns of a line. -/
def Span.inBytes (line : Text) (span : Span) : Span :=
  ⟨Text.byteLength (line.take span.first), Text.byteLength (line.take span.stop)⟩

/-- Columns and bytes overlap alike. -/
theorem Span.overlaps_inBytes {line : Text} {a b : Span} (hb : b.first < b.stop)
    (hwithin : b.stop ≤ line.length) :
    (a.inBytes line).overlaps (b.inBytes line) = a.overlaps b := by
  rw [Bool.eq_iff_iff, overlaps_iff, overlaps_iff]
  simp only [inBytes]
  rw [Text.byteLength_take_lt_iff (.inr hwithin), Text.byteLength_take_lt_iff (.inl (by omega))]

namespace LineSearch

/-- The search for the name of a class that shares no byte with the columns taken. -/
def wordSearch (code : Text) (templateClass : TemplateClass) (search : LineSearch) : WordSearch :=
  ⟨code, templateClass.name, search.taken.map (Span.inBytes code)⟩

variable {code : Text} {location : Location} {templateClass : TemplateClass}

/-- A word is free in bytes exactly if its columns are. -/
theorem isFree_iff_columns (hname : templateClass.name.IsIdentifier) (search : LineSearch)
    {place : Text.Occurrence} (hplace : place ∈ code.wordOccurrences templateClass.name) :
    (search.wordSearch code templateClass).isFree (place.offset code) =
      !search.taken.any (·.overlaps ⟨place.column, place.column + templateClass.name.length⟩) := by
  obtain ⟨before, hline, hcolumn, htake, hbehind⟩ :=
    Text.exists_cut_of_mem_wordOccurrences hname hplace
  let columns : Span := ⟨place.column, place.column + templateClass.name.length⟩
  have hbytes : (search.wordSearch code templateClass).span (place.offset code) =
      columns.inBytes code := by
    rw [WordSearch.span, Span.inBytes, hbehind, Text.byteLength_append, ← htake]
    rfl
  have hpos : columns.first < columns.stop :=
    Nat.lt_add_of_pos_right (List.length_pos_iff.mpr hname.1)
  have hwithin : columns.stop ≤ code.length := by
    have hlength := congrArg List.length hline
    rw [List.length_append, List.length_append, ← hcolumn] at hlength
    exact hlength ▸ Nat.add_le_add_left (Nat.le_add_right _ _) _
  rw [WordSearch.isFree, hbytes, wordSearch, List.any_map]
  congr 2
  funext span
  exact Span.overlaps_inBytes hpos hwithin

/-- Whether the search from an offset on ends with the word at a place. -/
structure IsNextWord (code : Text) (templateClass : TemplateClass) (search : LineSearch)
    (start : Nat) (place : Text.Occurrence) : Prop where
  /-- The name of the class stands there as a word. -/
  mem : place ∈ code.wordOccurrences templateClass.name
  /-- The search ends there. -/
  endsWith : (search.wordSearch code templateClass).EndsWith start (some (place.offset code))

/-- There is one next word at most. -/
theorem IsNextWord.unique (hname : templateClass.name.IsIdentifier) {search : LineSearch}
    {start : Nat} {place place' : Text.Occurrence}
    (h : IsNextWord code templateClass search start place)
    (h' : IsNextWord code templateClass search start place') : place = place' :=
  Text.eq_of_offset_eq hname h.mem h'.mem (Option.some.inj (h.endsWith.unique h'.endsWith))

/-- Where there is a next word, the search does not end with nothing. -/
theorem IsNextWord.not_endsWith_none {search : LineSearch} {start : Nat} {place : Text.Occurrence}
    (h : IsNextWord code templateClass search start place) :
    ¬ (search.wordSearch code templateClass).EndsWith start none := by
  intro hnone
  cases h.endsWith.unique hnone

/-- How the search for a class goes word by word, from an offset on. -/
inductive WordByWord (code : Text) (location : Location) (templateClass : TemplateClass) :
    (start : Nat) → LineSearch → Except TooFewArguments LineSearch → Prop
  /-- There is no further word that is free. -/
  | finished {start : Nat} {search : LineSearch}
    (hnone : (search.wordSearch code templateClass).EndsWith start none) :
    WordByWord code location templateClass start search (.ok search)
  /-- The site at the next word passes too few arguments. -/
  | refused {start : Nat} {search : LineSearch} {place : Text.Occurrence} {fault : TooFewArguments}
    (hnext : IsNextWord code templateClass search start place)
    (hvisit : visit code location templateClass search place = .error fault) :
    WordByWord code location templateClass start search (.error fault)
  /-- The next word is taken in, and the search goes on behind it. -/
  | takenIn {start : Nat} {search search' : LineSearch} {place : Text.Occurrence}
    {result : Except TooFewArguments LineSearch}
    (hnext : IsNextWord code templateClass search start place)
    (hvisit : visit code location templateClass search place = .ok search')
    (hrest : WordByWord code location templateClass
      (place.offset code + templateClass.name.byteLength) search' result) :
    WordByWord code location templateClass start search result

/-- What is to be found are the places of the walk that are free. -/
theorem mem_offsets_wordSearch (hname : templateClass.name.IsIdentifier) {search : LineSearch}
    {start offset : Nat} :
    offset ∈ (search.wordSearch code templateClass).offsets start ↔
      ∃ place ∈ code.wordOccurrences templateClass.name, place.offset code = offset ∧
        start ≤ offset ∧ (search.wordSearch code templateClass).isFree offset = true := by
  have hmem : code.HasWordAt templateClass.name offset ↔
      ∃ place ∈ code.wordOccurrences templateClass.name, place.offset code = offset := by
    rw [← Text.mem_wordOffsets_iff hname, Text.wordOffsets, List.mem_map]
  rw [WordSearch.isFree_iff]
  constructor
  · rintro ⟨hstart, hword, hfree⟩
    obtain ⟨place, hplace, hoffset⟩ := hmem.mp hword
    exact ⟨place, hplace, hoffset, hstart, hfree⟩
  · rintro ⟨place, hplace, hoffset, hstart, hfree⟩
    exact ⟨hstart, hmem.mpr ⟨place, hplace, hoffset⟩, hfree⟩

/-- Where the places passed so far are not free from the offset on, the walk through the others goes
word by word. -/
theorem wordByWord_foldlM (hname : templateClass.name.IsIdentifier)
    {passed places : List Text.Occurrence} {start : Nat} {search : LineSearch}
    (hwords : code.wordOccurrences templateClass.name = passed ++ places)
    (hstart : code.IsBoundary start)
    (hpassed : ∀ place ∈ passed, start ≤ place.offset code →
      (search.wordSearch code templateClass).isFree (place.offset code) = false)
    (hplaces : ∀ place ∈ places, start ≤ place.offset code) :
    WordByWord code location templateClass start search
      (places.foldlM (visit code location templateClass) search) := by
  induction places generalizing passed start search with
  | nil =>
    refine .finished (WordSearch.endsWith_of_isFirstOf hname hstart ?_)
    refine Set.eq_empty_of_forall_notMem fun offset hoffset => ?_
    obtain ⟨place, hplace, rfl, hle, hfree⟩ := (mem_offsets_wordSearch hname).mp hoffset
    rw [hwords, List.append_nil] at hplace
    rw [hpassed place hplace hle] at hfree
    cases hfree
  | cons place places ih =>
    rw [List.forall_mem_cons] at hplaces
    have hplace : place ∈ code.wordOccurrences templateClass.name := by simp [hwords]
    have hwords' : code.wordOccurrences templateClass.name = passed ++ [place] ++ places := by
      rw [hwords, List.append_assoc, List.singleton_append]
    have hcolumns := isFree_iff_columns hname search hplace
    rw [List.foldlM_cons]
    rcases hfree : (search.wordSearch code templateClass).isFree (place.offset code) with _ | _
    · -- A place that is not free is passed over.
      have hvisit : visit code location templateClass search place = .ok search := by
        rw [hfree, eq_comm, Bool.not_eq_false'] at hcolumns
        rw [visit_eq, if_pos hcolumns]
      rw [hvisit]
      refine ih hwords' hstart (fun other hother hle => ?_) hplaces.2
      rcases List.mem_append.mp hother with hother | hother
      · exact hpassed other hother hle
      · rwa [List.mem_singleton.mp hother]
    · -- A place that is free is the next word, and the others stand behind it.
      have hapart : (code.wordOccurrences templateClass.name).Pairwise _ :=
        Text.pairwise_wordOccurrences hname
      rw [hwords, List.pairwise_append, List.pairwise_cons] at hapart
      obtain ⟨-, ⟨hbehind, -⟩, hbefore⟩ := hapart
      have hfirst : IsFirstOf ((search.wordSearch code templateClass).offsets start)
          (some (place.offset code)) := by
        refine ⟨(mem_offsets_wordSearch hname).mpr ⟨place, hplace, rfl, hplaces.1, hfree⟩, ?_⟩
        intro offset hoffset
        obtain ⟨other, hother, rfl, hle, hfree'⟩ := (mem_offsets_wordSearch hname).mp hoffset
        rw [hwords, List.mem_append, List.mem_cons] at hother
        rcases hother with hother | rfl | hother
        · rw [hpassed other hother hle] at hfree'
          cases hfree'
        · exact Nat.le_refl _
        · exact Nat.le_of_add_right_le (hbehind other hother)
      have hnext : IsNextWord code templateClass search start place :=
        ⟨hplace, WordSearch.endsWith_of_isFirstOf hname hstart hfirst⟩
      rcases hvisit : visit code location templateClass search place with fault | search'
      · exact .refused hnext hvisit
      · refine .takenIn hnext hvisit (ih hwords' ?_ (fun other hother hle => ?_) hbehind)
        · obtain ⟨before, hline, -, htake, -⟩ := Text.exists_cut_of_mem_wordOccurrences hname hplace
          refine ⟨before ++ templateClass.name, place.rest, ?_, ?_⟩
          · rw [List.append_assoc, hline]
          · rw [Text.byteLength_append, Text.Occurrence.offset, htake]
        · have hpos := Text.byteLength_pos hname.1
          rcases List.mem_append.mp hother with hother | hother
          · have := hbefore other hother place List.mem_cons_self
            omega
          · rw [List.mem_singleton.mp hother] at hle
            omega

/-- Word by word a search comes to one result only. -/
theorem WordByWord.unique (hname : templateClass.name.IsIdentifier) {start : Nat}
    {search : LineSearch} {result result' : Except TooFewArguments LineSearch}
    (h : WordByWord code location templateClass start search result)
    (h' : WordByWord code location templateClass start search result') : result = result' := by
  induction h with
  | finished hnone =>
    cases h' with
    | finished => rfl
    | refused hnext => exact absurd hnone hnext.not_endsWith_none
    | takenIn hnext => exact absurd hnone hnext.not_endsWith_none
  | refused hnext hvisit =>
    cases h' with
    | finished hnone => exact absurd hnone hnext.not_endsWith_none
    | refused hnext' hvisit' =>
      obtain rfl := hnext.unique hname hnext'
      rw [← hvisit, hvisit']
    | takenIn hnext' hvisit' =>
      obtain rfl := hnext.unique hname hnext'
      cases hvisit.symm.trans hvisit'
  | takenIn hnext hvisit _ ih =>
    cases h' with
    | finished hnone => exact absurd hnone hnext.not_endsWith_none
    | refused hnext' hvisit' =>
      obtain rfl := hnext.unique hname hnext'
      cases hvisit.symm.trans hvisit'
    | takenIn hnext' hvisit' hrest' =>
      obtain rfl := hnext.unique hname hnext'
      cases hvisit.symm.trans hvisit'
      exact ih hrest'

/-- **The search for a class goes word by word.** To walk through all words of the line and pass
over those that are taken comes to the same as to search for the next free word again and again. -/
theorem wordByWord_iff (hname : templateClass.name.IsIdentifier) {search : LineSearch}
    {result : Except TooFewArguments LineSearch} :
    WordByWord code location templateClass 0 search result ↔
      searchClass code location search templateClass = result := by
  have hwalk : WordByWord code location templateClass 0 search
      (searchClass code location search templateClass) :=
    wordByWord_foldlM hname (List.nil_append _).symm ⟨[], code, rfl, rfl⟩ (by simp) (by simp)
  constructor
  · intro h
    exact hwalk.unique hname h
  · rintro rfl
    exact hwalk

end LineSearch

end ExplicitInstantiation
