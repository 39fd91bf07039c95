import Mathlib.Order.Bounds.Basic
import ExplicitInstantiation.Site.WordSearch
import ExplicitInstantiation.Proofs.Site.Line
import ExplicitInstantiation.Proofs.Text.Bytes

/-!
# The search for the next word ends with it

The places where a name stands as a word may be searched one at a time, turn by turn.

* **Nothing is lost in a turn** (`turn_cases`). Inside an occurrence of a name that consists of
  identifier characters no word starts (`HasWordAt.le_of_occurrence`), so the words ahead are the
  same when it is passed.
* **The search ends, and with the first word** (`run_eq_of_isFirstOf`). Every turn leaves less of
  the line ahead.
* **The walk through the line comes to the same** (`isFirstOf_next?`). The occurrences that are
  words stand in it from left to right, so the first of them that is free is the next word.

`ends_with_least` puts this together, for a search that starts anywhere and for one of the whole
line with nothing taken, which is how the first word of a line is found.
-/

namespace ExplicitInstantiation

/-! ### The first of some numbers -/

/-- Whether something is the first of some numbers: the least one, or nothing if there is none. -/
def IsFirstOf (numbers : Set Nat) : Option Nat → Prop
  | some n => IsLeast numbers n
  | none => numbers = ∅

section

variable {numbers : Set Nat} {result : Option Nat}

/-- A number is the first of some numbers exactly if it is the least of them. -/
theorem IsFirstOf.eq_some_iff (h : IsFirstOf numbers result) {n : Nat} :
    result = some n ↔ IsLeast numbers n := by
  constructor
  · rintro rfl
    exact h
  · intro hleast
    rcases result with _ | other
    · have hempty : numbers = ∅ := h
      rw [hempty] at hleast
      exact absurd hleast.1 (Set.notMem_empty n)
    · have hother : IsLeast numbers other := h
      rw [hother.unique hleast]

/-- There is no first number exactly if there is no number. -/
theorem IsFirstOf.eq_none_iff (h : IsFirstOf numbers result) :
    result = none ↔ ∀ n, n ∉ numbers := by
  rw [← Set.eq_empty_iff_forall_notMem]
  constructor
  · rintro rfl
    exact h
  · intro hempty
    rcases result with _ | n
    · rfl
    · have hleast : IsLeast numbers n := h
      rw [hempty] at hleast
      exact absurd hleast.1 (Set.notMem_empty n)

/-- Some numbers have one first number at most. -/
theorem IsFirstOf.unique {result' : Option Nat} (h : IsFirstOf numbers result)
    (h' : IsFirstOf numbers result') : result = result' := by
  rcases result' with _ | n
  · exact h.eq_none_iff.mpr (h'.eq_none_iff.mp rfl)
  · exact h.eq_some_iff.mpr h'

end

/-- In a list that increases, the first element with a property is the least. -/
theorem isFirstOf_find? {l : List Nat} (hl : l.Pairwise (· < ·)) (p : Nat → Bool) :
    IsFirstOf { n | n ∈ l ∧ p n = true } (l.find? p) := by
  rcases hfind : l.find? p with _ | n
  · rw [List.find?_eq_none] at hfind
    exact Set.eq_empty_of_forall_notMem fun n hn => hfind n hn.1 hn.2
  · obtain ⟨hn, before, after, rfl, hbefore⟩ := List.find?_eq_some_iff_append.mp hfind
    refine ⟨⟨by simp, hn⟩, fun m hm => ?_⟩
    rcases List.mem_append.mp hm.1 with hmem | hmem
    · have hnot := hbefore m hmem
      rw [hm.2] at hnot
      cases hnot
    · rcases List.mem_cons.mp hmem with rfl | hmem
      · exact Nat.le_refl m
      · exact Nat.le_of_lt (List.rel_of_pairwise_cons (List.pairwise_append.mp hl).2.1 hmem)

/-! ### Words and their offsets -/

namespace Text

/-- Whether a text stands at an offset of a line and no identifier character touches it. -/
def HasWordAt (line word : Text) (offset : Nat) : Prop :=
  ∃ before after, line = before ++ (word ++ after) ∧ before.byteLength = offset ∧
    before.getLast?.any isIdentifierChar = false ∧ after.head?.any isIdentifierChar = false

/-- Where a text stands, it is a word if no identifier character touches it. -/
theorem hasWordAt_iff {line word before after : Text} (hline : line = before ++ (word ++ after))
    (column : Nat) :
    line.HasWordAt word before.byteLength ↔
      Occurrence.isWord ⟨column, before.getLast?, after⟩ = true := by
  rw [Occurrence.isWord_iff]
  constructor
  · rintro ⟨before', after', hline', hlength, hbefore, hafter⟩
    obtain ⟨rfl, hrest⟩ := append_inj_of_byteLength_eq (hline'.symm.trans hline) hlength
    rw [List.append_cancel_left hrest] at hafter
    exact ⟨hbefore, hafter⟩
  · rintro ⟨hbefore, hafter⟩
    exact ⟨before, after, hline, rfl, hbefore, hafter⟩

/-- No word starts inside an occurrence of a name that consists of identifier characters: the
character before it would be one of them. -/
theorem HasWordAt.le_of_occurrence {line word name before after : Text} {offset : Nat}
    (h : line.HasWordAt word offset) (hname : ∀ c ∈ name, isIdentifierChar c = true)
    (hline : line = before ++ (name ++ after)) (hlt : before.byteLength < offset) :
    (before ++ name).byteLength ≤ offset := by
  obtain ⟨before', after', hline', rfl, hprevious, -⟩ := h
  rw [← Nat.not_lt]
  intro hinside
  have hstart : before <+: line := ⟨name ++ after, hline.symm⟩
  have hend : before ++ name <+: line := ⟨after, by rw [hline, List.append_assoc]⟩
  have hword : before' <+: line := ⟨word ++ after', hline'.symm⟩
  obtain ⟨passed, rfl⟩ := isPrefix_of_byteLength_le hstart hword (Nat.le_of_lt hlt)
  have hpassed : passed <+: name := by
    have := isPrefix_of_byteLength_le hword hend (Nat.le_of_lt hinside)
    exact (List.prefix_append_right_inj before).mp this
  rcases List.eq_nil_or_concat' passed with rfl | ⟨front, last, rfl⟩
  · rw [List.append_nil] at hlt
    exact Nat.lt_irrefl _ hlt
  · have hlast : isIdentifierChar last = true := hname last (hpassed.subset (by simp))
    rw [← List.append_assoc, List.getLast?_concat, Option.any_some, hlast] at hprevious
    cases hprevious

/-- Nothing is found only where the text does not stand. -/
theorem not_infix_of_cutAtFirst {t needle : Text} (h : t.cutAtFirst needle = none) :
    ¬ needle <:+: t := by
  induction t with
  | nil =>
    rw [cutAtFirst] at h
    rintro ⟨before, after, heq⟩
    simp_all
  | cons c rest ih =>
    rw [cutAtFirst] at h
    split at h
    next => cases h
    next hstands =>
      rw [List.isPrefixOf_iff_prefix] at hstands
      rw [List.infix_cons_iff, not_or]
      exact ⟨hstands, ih (Option.map_eq_none_iff.mp h)⟩

/-- What is found is the first occurrence. -/
theorem isPrefix_of_cutAtFirst {t needle before after : Text}
    (h : t.cutAtFirst needle = some (before, after)) :
    t = before ++ (needle ++ after) ∧
      ∀ before' after', t = before' ++ (needle ++ after') → before <+: before' := by
  induction t generalizing before with
  | nil =>
    rw [cutAtFirst] at h
    split at h
    next hempty =>
      obtain ⟨rfl, rfl⟩ : [] = before ∧ [] = after := by simpa using h
      exact ⟨by simpa using hempty, fun _ _ _ => List.nil_prefix⟩
    next => cases h
  | cons c rest ih =>
    rw [cutAtFirst] at h
    split at h
    next hstands =>
      obtain ⟨rfl, rfl⟩ : [] = before ∧ (c :: rest).drop needle.length = after := by simpa using h
      obtain ⟨after, hafter⟩ := List.isPrefixOf_iff_prefix.mp hstands
      refine ⟨?_, fun _ _ _ => List.nil_prefix⟩
      rw [← hafter, List.drop_left, List.nil_append]
    next hstands =>
      obtain ⟨⟨before, after'⟩, hcut, heq⟩ := Option.map_eq_some_iff.mp h
      obtain ⟨rfl, rfl⟩ : c :: before = _ ∧ after' = after := by simpa using heq
      obtain ⟨hrest, hfirst⟩ := ih hcut
      refine ⟨by rw [hrest, List.cons_append], fun before' after' heq => ?_⟩
      rcases before' with _ | ⟨d, before'⟩
      · rw [List.nil_append] at heq
        exact absurd (List.isPrefixOf_iff_prefix.mpr ⟨after', heq.symm⟩) hstands
      · obtain ⟨rfl, hrest'⟩ := List.cons.inj heq
        exact List.cons_prefix_cons.mpr ⟨rfl, hfirst before' after' hrest'⟩

end Text

/-! ### The search -/

/-- Whether two spans stand one behind the other. -/
def Span.Apart (a b : Span) : Prop :=
  a.stop ≤ b.first ∨ b.stop ≤ a.first

/-- Spans that do not overlap stand one behind the other. -/
theorem Span.overlaps_eq_false_iff {a b : Span} : a.overlaps b = false ↔ a.Apart b := by
  rw [Bool.eq_false_iff, ne_eq, overlaps_iff, not_and_or, Nat.not_lt, Nat.not_lt, Apart, or_comm]

namespace WordSearch

/-- The offsets from `start` on at which the word stands and is free. -/
def offsets (search : WordSearch) (start : Nat) : Set Nat :=
  { offset | start ≤ offset ∧ search.line.HasWordAt search.word offset ∧
    ∀ span ∈ search.taken, span.Apart (search.span offset) }

variable {search : WordSearch} {start : Nat}

/-- A place is free exactly if the word there is apart from everything that is taken. -/
theorem isFree_iff {offset : Nat} :
    search.isFree offset = true ↔ ∀ span ∈ search.taken, span.Apart (search.span offset) := by
  rw [isFree, Bool.not_eq_true', List.any_eq_false]
  simp only [Bool.not_eq_true, Span.overlaps_eq_false_iff]

/-- Where the word has been found, a turn ends exactly if it stands there as a word and is free. -/
theorem mem_offsets_iff {behind after : Text}
    (hline : search.line = behind ++ (search.word ++ after)) (hstart : start ≤ behind.byteLength) :
    behind.byteLength ∈ search.offsets start ↔
      (Text.Occurrence.isWord ⟨behind.length, behind.getLast?, after⟩ &&
        search.isFree behind.byteLength) = true := by
  rw [Bool.and_eq_true, isFree_iff, ← Text.hasWordAt_iff hline]
  exact ⟨fun h => h.2, fun h => ⟨hstart, h⟩⟩

/-- Where the word does not stand ahead, there is nothing to be found. -/
theorem offsets_eq_empty {behind ahead : Text} (hline : search.line = behind ++ ahead)
    (hnone : ¬ search.word <:+: ahead) : search.offsets behind.byteLength = ∅ := by
  refine Set.eq_empty_of_forall_notMem ?_
  rintro offset ⟨hle, ⟨before, after, hword, rfl, -, -⟩, -⟩
  obtain ⟨passed, rfl⟩ : behind <+: before :=
    Text.isPrefix_of_byteLength_le ⟨ahead, hline.symm⟩ ⟨search.word ++ after, hword.symm⟩ hle
  apply hnone
  rw [hline, List.append_assoc] at hword
  exact ⟨passed, after, by rw [List.append_cancel_left hword, List.append_assoc]⟩

/-- The first occurrence of the word ahead comes before everything that is to be found. -/
theorem le_of_mem_offsets {behind before after : Text}
    (hline : search.line = behind ++ (before ++ (search.word ++ after)))
    (hfirst : ∀ before' after',
      before ++ (search.word ++ after) = before' ++ (search.word ++ after') → before <+: before')
    {offset : Nat} (h : offset ∈ search.offsets behind.byteLength) :
    (behind ++ before).byteLength ≤ offset := by
  obtain ⟨hle, ⟨before', after', hword, rfl, -, -⟩, -⟩ := h
  obtain ⟨passed, rfl⟩ : behind <+: before' :=
    Text.isPrefix_of_byteLength_le ⟨_, hline.symm⟩ ⟨search.word ++ after', hword.symm⟩ hle
  apply Text.byteLength_le_of_isPrefix
  rw [List.prefix_append_right_inj]
  rw [hline, List.append_assoc] at hword
  exact hfirst passed after' (List.append_cancel_left hword)

/-- A turn ends with nothing where the word does not stand ahead. -/
theorem turn_of_none {behind ahead : Text} (hline : search.line = behind ++ ahead)
    (hcut : ahead.cutAtFirst search.word = none) :
    search.turn behind.byteLength = .ended none := by
  rw [turn, hline, Text.cutAtByte?_append]
  simp only [hcut]

/-- Whether a turn ends where it has found the word. -/
theorem turn_of_some {behind ahead before after : Text} (hline : search.line = behind ++ ahead)
    (hcut : ahead.cutAtFirst search.word = some (before, after)) :
    search.turn behind.byteLength =
      if Text.Occurrence.isWord ⟨(behind ++ before).length, (behind ++ before).getLast?, after⟩ &&
          search.isFree (behind ++ before).byteLength
      then .ended (some (behind ++ before).byteLength)
      else .goesOn (behind ++ before ++ search.word).byteLength := by
  rw [turn, hline, Text.cutAtByte?_append]
  simp only [hcut, Text.byteLength_append]

/-- **Nothing is lost in a turn.** It ends with the first that is to be found, or it goes on where
less of the line is ahead and the same is to be found. -/
theorem turn_cases (hword : search.word.IsIdentifier) {behind ahead : Text}
    (hline : search.line = behind ++ ahead) :
    (∃ result, search.turn behind.byteLength = .ended result ∧
      IsFirstOf (search.offsets behind.byteLength) result) ∨
    ∃ behind' ahead', search.turn behind.byteLength = .goesOn behind'.byteLength ∧
      search.line = behind' ++ ahead' ∧ ahead'.length < ahead.length ∧
      search.offsets behind'.byteLength = search.offsets behind.byteLength := by
  rcases hcut : ahead.cutAtFirst search.word with _ | ⟨before, after⟩
  · have hempty := offsets_eq_empty hline (Text.not_infix_of_cutAtFirst hcut)
    exact .inl ⟨none, turn_of_none hline hcut, hempty⟩
  have hturn := turn_of_some hline hcut
  obtain ⟨rfl, hfirst⟩ := Text.isPrefix_of_cutAtFirst hcut
  have hplace : search.line = (behind ++ before) ++ (search.word ++ after) := by
    rw [hline, List.append_assoc]
  have hbehind : behind.byteLength ≤ (behind ++ before).byteLength :=
    Text.byteLength_le_of_isPrefix (List.prefix_append behind before)
  have hleast {offset : Nat} (h : offset ∈ search.offsets behind.byteLength) :
      (behind ++ before).byteLength ≤ offset := le_of_mem_offsets hline hfirst h
  have hmem := mem_offsets_iff hplace hbehind
  split at hturn
  next hfound => exact .inl ⟨_, hturn, hmem.mpr hfound, fun _ h => hleast h⟩
  next hnot =>
    refine .inr ⟨behind ++ before ++ search.word, after, hturn, ?_, ?_, ?_⟩
    · rw [hplace, List.append_assoc (behind ++ before)]
    · have hpos := List.length_pos_iff.mpr hword.1
      rw [List.length_append, List.length_append]
      omega
    · ext offset
      constructor
      · rintro ⟨hge, h⟩
        rw [Text.byteLength_append] at hge
        exact ⟨by omega, h⟩
      · intro h
        -- The word does not count where it has just been found, and it is passed as a whole.
        have hne : (behind ++ before).byteLength ≠ offset := by
          rintro rfl
          exact hnot (hmem.mp h)
        exact ⟨h.2.1.le_of_occurrence hword.2 hplace (Nat.lt_of_le_of_ne (hleast h) hne), h.2⟩

/-- **The search ends, and with the first word.** As many turns as characters are ahead, and one
more, are enough. -/
theorem run_eq_of_isFirstOf (hword : search.word.IsIdentifier) {result : Option Nat} {turns : Nat}
    {behind ahead : Text} (hline : search.line = behind ++ ahead) (hturns : ahead.length < turns)
    (hresult : IsFirstOf (search.offsets behind.byteLength) result) :
    search.run turns behind.byteLength = some result := by
  induction turns generalizing behind ahead with
  | zero => exact absurd hturns (Nat.not_lt_zero _)
  | succ turns ih =>
    rw [run]
    rcases turn_cases hword hline with
      ⟨found, hturn, hfound⟩ | ⟨behind', ahead', hturn, hline', hless, hsame⟩
    · rw [hturn, hfound.unique hresult]
    · rw [hturn]
      exact ih hline' (by omega) (hsame ▸ hresult)

end WordSearch

/-! ### The walk through the line -/

namespace Text

/-- The number of bytes before a place of a line. -/
def Occurrence.offset (line : Text) (place : Occurrence) : Nat :=
  byteLength (line.take place.column)

/-- The offsets at which the walk through a line comes to a word, from left to right. -/
def wordOffsets (line word : Text) : List Nat :=
  (line.wordOccurrences word).map (Occurrence.offset line)

variable {line word : Text}

/-- Where the walk comes to a word, the line can be cut before and behind it. -/
theorem exists_cut_of_mem_wordOccurrences (hword : word.IsIdentifier) {place : Occurrence}
    (hplace : place ∈ line.wordOccurrences word) :
    ∃ before, line = before ++ (word ++ place.rest) ∧ place.column = before.length ∧
      line.take place.column = before ∧
        line.take (place.column + word.length) = before ++ word := by
  obtain ⟨-, before, hline, hcolumn, -⟩ := (mem_wordOccurrences_iff hword).mp hplace
  refine ⟨before, hline, hcolumn, ?_, ?_⟩
  · rw [hline, hcolumn, List.take_left]
  · rw [hline, hcolumn, ← List.append_assoc, ← List.length_append, List.take_left]

/-- The walk comes to exactly the words of the line. -/
theorem mem_wordOffsets_iff (hword : word.IsIdentifier) {offset : Nat} :
    offset ∈ line.wordOffsets word ↔ line.HasWordAt word offset := by
  rw [wordOffsets, List.mem_map]
  constructor
  · rintro ⟨place, hplace, rfl⟩
    obtain ⟨hisWord, before, hline, hcolumn, hprevious⟩ := (mem_wordOccurrences_iff hword).mp hplace
    obtain ⟨hbefore, hafter⟩ := Occurrence.isWord_iff.mp hisWord
    refine ⟨before, place.rest, hline, ?_, hprevious ▸ hbefore, hafter⟩
    rw [Occurrence.offset, hcolumn, hline, List.take_left]
  · rintro ⟨before, after, hline, rfl, hbefore, hafter⟩
    refine ⟨⟨before.length, before.getLast?, after⟩, ?_, ?_⟩
    · exact (mem_wordOccurrences_iff hword).mpr
        ⟨Occurrence.isWord_iff.mpr ⟨hbefore, hafter⟩, before, hline, rfl, rfl⟩
    · rw [Occurrence.offset, hline, List.take_left]

/-- The words that the walk comes to stand one behind the other. -/
theorem pairwise_wordOccurrences (hword : word.IsIdentifier) :
    (line.wordOccurrences word).Pairwise fun a b =>
      a.offset line + word.byteLength ≤ b.offset line := by
  have hcolumns : (line.wordOccurrences word).Pairwise fun a b =>
      a.column + word.length ≤ b.column := by
    rw [wordOccurrences_eq_runs hword, List.pairwise_map]
    refine ((pairwise_identifierRuns line).filter _).imp_of_mem fun ha _ h => ?_
    rwa [of_decide_eq_true (List.mem_filter.mp ha).2] at h
  refine hcolumns.imp_of_mem fun {a b} ha _ hle => ?_
  obtain ⟨before, -, -, htake, hbehind⟩ := exists_cut_of_mem_wordOccurrences hword ha
  have hprefix : before ++ word <+: line.take b.column :=
    hbehind ▸ List.take_prefix_take_left hle
  rw [Occurrence.offset, htake, ← byteLength_append]
  exact byteLength_le_of_isPrefix hprefix

/-- The offsets of the walk increase. -/
theorem pairwise_wordOffsets (hword : word.IsIdentifier) :
    (line.wordOffsets word).Pairwise (· < ·) := by
  have hpos := byteLength_pos hword.1
  rw [wordOffsets, List.pairwise_map]
  exact (pairwise_wordOccurrences hword).imp fun hle => by omega

/-- The walk comes to each offset once. -/
theorem eq_of_offset_eq (hword : word.IsIdentifier) {a b : Occurrence}
    (ha : a ∈ line.wordOccurrences word) (hb : b ∈ line.wordOccurrences word)
    (h : a.offset line = b.offset line) : a = b := by
  have hnodup : ((line.wordOccurrences word).map (Occurrence.offset line)).Nodup :=
    (pairwise_wordOffsets hword).imp Nat.ne_of_lt
  exact List.inj_on_of_nodup_map hnodup ha hb h

end Text

namespace WordSearch

/-- The first word of the walk that is free and no earlier than `start`. -/
def next? (search : WordSearch) (start : Nat) : Option Nat :=
  (search.line.wordOffsets search.word).find? fun offset =>
    decide (start ≤ offset) && search.isFree offset

/-- The first free word of the walk is the first that is to be found. -/
theorem isFirstOf_next? {search : WordSearch} (hword : search.word.IsIdentifier) (start : Nat) :
    IsFirstOf (search.offsets start) (search.next? start) := by
  have hoffsets : search.offsets start = { offset | offset ∈ search.line.wordOffsets search.word ∧
      (decide (start ≤ offset) && search.isFree offset) = true } := by
    ext offset
    simp only [offsets, Set.mem_ofPred_eq, Text.mem_wordOffsets_iff hword, Bool.and_eq_true,
      decide_eq_true_eq, isFree_iff]
    exact and_left_comm
  rw [hoffsets]
  exact isFirstOf_find? (Text.pairwise_wordOffsets hword) _

/-- What follows the first word of a line stands behind it. -/
theorem afterWord?_eq_next? {line word : Text} (hword : word.IsIdentifier) :
    line.afterWord? word = (next? ⟨line, word, []⟩ 0).bind fun offset =>
      (line.cutAtByte? (offset + word.byteLength)).map Prod.snd := by
  have hnext : next? ⟨line, word, []⟩ 0 = (line.wordOffsets word).head? := by
    rw [next?]
    rcases line.wordOffsets word with _ | ⟨first, rest⟩
    · rfl
    · simp [isFree]
  rw [hnext, Text.afterWord?, Text.wordOffsets, List.head?_map]
  rcases hplace : (line.wordOccurrences word).head? with _ | place
  · rfl
  · obtain ⟨before, hline, -, htake, -⟩ :=
      Text.exists_cut_of_mem_wordOccurrences hword (List.mem_of_mem_head? hplace)
    have hbehind : place.offset line + word.byteLength = (before ++ word).byteLength := by
      rw [Text.Occurrence.offset, htake, Text.byteLength_append]
    have hcut :
        line.cutAtByte? (before ++ word).byteLength = some (before ++ word, place.rest) := by
      rw [hline, ← List.append_assoc, Text.cutAtByte?_append]
    rw [Option.map_some, Option.map_some, Option.bind_some, hbehind, hcut]
    rfl

/-- Whether a search from an offset ends with a result, in at most one turn more than the line has
characters. -/
def EndsWith (search : WordSearch) (start : Nat) (result : Option Nat) : Prop :=
  ∀ turns, search.line.length < turns → search.run turns start = some result

/-- A search ends with one result at most. -/
theorem EndsWith.unique {search : WordSearch} {start : Nat} {result result' : Option Nat}
    (h : search.EndsWith start result) (h' : search.EndsWith start result') : result = result' :=
  Option.some.inj ((h _ (Nat.lt_succ_self _)).symm.trans (h' _ (Nat.lt_succ_self _)))

/-- From any place of the line on, the search ends with the first that is to be found. -/
theorem endsWith_of_isFirstOf {search : WordSearch} (hword : search.word.IsIdentifier)
    {start : Nat} (hstart : search.line.IsBoundary start) {result : Option Nat}
    (hresult : IsFirstOf (search.offsets start) result) : search.EndsWith start result := by
  obtain ⟨behind, ahead, hline, rfl⟩ := hstart
  intro turns hturns
  refine run_eq_of_isFirstOf hword hline ?_ hresult
  rw [hline, List.length_append] at hturns
  omega

/-- **The search for a word skips nothing.** For a word that consists of identifier characters:

* From any place of the line on, and whatever is taken, the search ends. It returns the least offset
  from there on at which the word is touched by no identifier character and is apart from everything
  that is taken, and it returns nothing only if there is none. This is the first free word of the
  walk through the line.
* From the start of the line on, with nothing taken, it returns the least offset at which the word
  is touched by no identifier character. What stands behind it there is what follows the first word
  of the line. -/
theorem ends_with_least {line word : Text} (hword : word.IsIdentifier) (taken : List Span)
    {start : Nat} (hstart : line.IsBoundary start) :
    (∃ result, EndsWith ⟨line, word, taken⟩ start result ∧
      (∀ offset, result = some offset ↔
        IsLeast { offset | start ≤ offset ∧ line.HasWordAt word offset ∧
          ∀ span ∈ taken, span.Apart ⟨offset, offset + word.byteLength⟩ } offset) ∧
      (result = none ↔ ∀ offset, start ≤ offset → line.HasWordAt word offset →
        ∃ span ∈ taken, ¬ span.Apart ⟨offset, offset + word.byteLength⟩) ∧
      result = next? ⟨line, word, taken⟩ start) ∧
    ∃ result, EndsWith ⟨line, word, []⟩ 0 result ∧
      (∀ offset, result = some offset ↔ IsLeast { offset | line.HasWordAt word offset } offset) ∧
      (result = none ↔ ∀ offset, ¬ line.HasWordAt word offset) ∧
      line.afterWord? word = result.bind fun offset =>
        (line.cutAtByte? (offset + word.byteLength)).map Prod.snd := by
  constructor
  · have hfirst : IsFirstOf (offsets ⟨line, word, taken⟩ start) _ := isFirstOf_next? hword start
    refine ⟨_, endsWith_of_isFirstOf hword hstart hfirst, fun _ => hfirst.eq_some_iff, ?_, rfl⟩
    rw [hfirst.eq_none_iff]
    simp only [offsets, Set.mem_ofPred_eq, not_and, not_forall, exists_prop]
    rfl
  · have hfirst : IsFirstOf (offsets ⟨line, word, []⟩ 0) _ := isFirstOf_next? hword 0
    have hends := endsWith_of_isFirstOf hword ⟨[], line, rfl, rfl⟩ hfirst
    have hoffsets : offsets ⟨line, word, []⟩ 0 = { offset | line.HasWordAt word offset } := by
      simp [offsets]
    rw [hoffsets] at hfirst
    exact ⟨_, hends, fun _ => hfirst.eq_some_iff, hfirst.eq_none_iff, afterWord?_eq_next? hword⟩

/-- A line in which a name of two characters, each of them two bytes long, stands inside a longer
one, where it overlaps itself, and then twice as a word. -/
def accentedLine : Text :=
  "ééé éé,éé".toList

/-- The longer name is passed over, from its second character on too. The first word is passed over
as well if its last byte is taken. -/
theorem ends_with_least_accentedLine :
    Text.IsIdentifier "éé".toList ∧ accentedLine.IsBoundary 2 ∧
      EndsWith ⟨accentedLine, "éé".toList, [⟨10, 11⟩]⟩ 2 (some 12) ∧
      IsLeast { offset | 2 ≤ offset ∧ accentedLine.HasWordAt "éé".toList offset ∧
        ∀ span ∈ ([⟨10, 11⟩] : List Span),
          span.Apart ⟨offset, offset + Text.byteLength "éé".toList⟩ } 12 ∧
      EndsWith ⟨accentedLine, "éé".toList, []⟩ 0 (some 7) ∧
      IsLeast { offset | accentedLine.HasWordAt "éé".toList offset } 7 := by
  have hword : Text.IsIdentifier "éé".toList := by decide +kernel
  have hstart : accentedLine.IsBoundary 2 := ⟨"é".toList, "éé éé,éé".toList, rfl, rfl⟩
  obtain ⟨⟨next, hends, hleast, -, hnext⟩, first, hends', hleast', -, -⟩ :=
    ends_with_least hword [⟨10, 11⟩] hstart
  have hnext' : next = some 12 := hnext.trans (by decide +kernel)
  have hfirst : first = some 7 := by
    have hrun : run ⟨accentedLine, "éé".toList, []⟩ 10 0 = some (some 7) := by decide +kernel
    exact Option.some.inj ((hends' 10 (by decide)).symm.trans hrun)
  rw [hnext'] at hends
  rw [hfirst] at hends'
  exact ⟨hword, hstart, hends, (hleast 12).mp hnext', hends', (hleast' 7).mp hfirst⟩

end WordSearch

end ExplicitInstantiation
