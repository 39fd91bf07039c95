import ExplicitInstantiation.Constant.Line
import ExplicitInstantiation.Proofs.Text.Blank

/-!
# Definitions read back

A line that defines a constant has one of three shapes: `#define NAME VALUE` (`MacroLine`),
words, a name, `=`, a value and a semicolon (`Assigned`), or words, a name and a value in braces
with a semicolon behind them (`Braced`). Each shape says which words and blanks may stand where,
and its text takes what follows the definition on the line.

The name is the last word in front of the first `=` or `{` (`Opening.words_front`). The value ends
in front of the last semicolon, or of the last brace that a semicolon follows, and both are looked
for on the whole rest of the line (`Text.beforeLastChar_append`, `beforeClosingBrace?_of_last`). So
a definition is read back if no semicolon stands behind it (`ofLine?_reads_back`). If a further
statement stands there, the value goes on to the end of that statement
(`ofLine?_value_to_last_terminator`).
-/

namespace ExplicitInstantiation

namespace Text

/-! ### Cutting at a character -/

variable {mark : Char}

/-- A text is cut at the first mark, which is the one behind text without a mark. -/
theorem cutAtChar_append {s : Text} (hs : mark ∉ s) (t : Text) :
    (s ++ mark :: t).cutAtChar mark = some (s, t) := by
  induction s with
  | nil => simp [cutAtChar]
  | cons c s ih =>
    rw [List.mem_cons, not_or] at hs
    rw [List.cons_append, cutAtChar, if_neg (Ne.symm hs.1), ih hs.2, Option.map_some]

/-- A text without a mark is not cut. -/
theorem cutAtChar_of_not_mem {t : Text} (ht : mark ∉ t) : t.cutAtChar mark = none := by
  induction t with
  | nil => rfl
  | cons c t ih =>
    rw [List.mem_cons, not_or] at ht
    rw [cutAtChar, if_neg (Ne.symm ht.1), ih ht.2, Option.map_none]

/-- A text without a mark has no last one. -/
theorem beforeLastChar_of_not_mem {t : Text} (ht : mark ∉ t) : t.beforeLastChar mark = none := by
  induction t with
  | nil => rfl
  | cons c t ih =>
    rw [List.mem_cons, not_or] at ht
    rw [beforeLastChar, ih ht.2]
    exact if_neg (Ne.symm ht.1)

/-- The last mark is the one behind which there is none. -/
theorem beforeLastChar_append {t : Text} (ht : mark ∉ t) (s : Text) :
    (s ++ mark :: t).beforeLastChar mark = some s := by
  induction s with
  | nil =>
    rw [List.nil_append, beforeLastChar, beforeLastChar_of_not_mem ht]
    exact if_pos rfl
  | cons c s ih => rw [List.cons_append, beforeLastChar, ih]

/-- A character of a text stands somewhere for the last time. -/
theorem exists_last_of_mem {t : Text} (h : mark ∈ t) :
    ∃ before after, t = before ++ mark :: after ∧ mark ∉ after := by
  obtain ⟨after, before, ht, hafter⟩ :=
    List.eq_append_cons_of_mem (List.mem_reverse.mpr h)
  refine ⟨before.reverse, after.reverse, ?_, by simpa using hafter⟩
  rw [← List.reverse_reverse t, ht]
  simp

/-- A mark is the first character that is no blank exactly if only blanks stand in front of it. -/
theorem head?_trimStart_eq_some_iff (hmark : isBlank mark = false) {t : Text} :
    t.trimStart.head? = some mark ↔
      ∃ gap after, t = gap ++ mark :: after ∧ gap.all isBlank = true := by
  constructor
  · intro h
    obtain ⟨after, hafter⟩ := List.head?_eq_some_iff.mp h
    refine ⟨t.takeWhile isBlank, after, ?_, List.all_takeWhile⟩
    rw [← hafter]
    exact List.takeWhile_append_dropWhile.symm
  · rintro ⟨gap, after, rfl, hgap⟩
    rw [trimStart_append_of_blank hgap, trimStart_cons_of_not hmark]
    rfl

end Text

namespace Constant

/-! ### Closing braces -/

/-- A closing brace that a semicolon follows, possibly after blanks, stands on this line. -/
def ClosesBrace (t : Text) : Prop :=
  ∃ before gap after, t = before ++ '}' :: (gap ++ ';' :: after) ∧ '\n' ∉ before ∧
    gap.all isBlank = true

/-- A closing brace that counts stands further on in the line, or it is the first character and a
semicolon follows. -/
theorem closesBrace_cons_iff {c : Char} {t : Text} :
    ClosesBrace (c :: t) ↔
      (c ≠ '\n' ∧ ClosesBrace t) ∨
        c = '}' ∧ ∃ gap after, t = gap ++ ';' :: after ∧ gap.all isBlank = true := by
  constructor
  · rintro ⟨before, gap, after, ht, hbefore, hgap⟩
    rcases before with _ | ⟨d, before⟩
    · obtain ⟨rfl, rfl⟩ := List.cons.inj ht
      exact .inr ⟨rfl, gap, after, rfl, hgap⟩
    · obtain ⟨rfl, rfl⟩ := List.cons.inj ht
      rw [List.mem_cons, not_or] at hbefore
      exact .inl ⟨Ne.symm hbefore.1, before, gap, after, rfl, hbefore.2, hgap⟩
  · rintro (⟨hc, before, gap, after, rfl, hbefore, hgap⟩ | ⟨rfl, gap, after, rfl, hgap⟩)
    · exact ⟨c :: before, gap, after, rfl, by simp [Ne.symm hc, hbefore], hgap⟩
    · exact ⟨[], gap, after, rfl, by simp, hgap⟩

/-- Without a semicolon no closing brace counts. -/
theorem not_closesBrace_of_not_mem {t : Text} (ht : ';' ∉ t) : ¬ ClosesBrace t := by
  rintro ⟨before, gap, after, rfl, -, -⟩
  simp at ht

/-- Behind blanks and a semicolon a brace is closed only in what follows them. -/
theorem not_closesBrace_behind {gap after : Text} (hgap : gap.all isBlank = true)
    (hafter : ¬ ClosesBrace after) : ¬ ClosesBrace (gap ++ ';' :: after) := by
  induction gap with
  | nil =>
    rw [List.nil_append, closesBrace_cons_iff]
    simp [hafter]
  | cons c gap ih =>
    rw [List.all_cons, Bool.and_eq_true] at hgap
    rw [List.cons_append, closesBrace_cons_iff]
    rintro (⟨-, h⟩ | ⟨rfl, -⟩)
    · exact ih hgap.2 h
    · exact absurd hgap.1 (by decide)

/-- Where no closing brace counts, nothing is found before one. -/
theorem beforeClosingBrace?_of_not {t : Text} (ht : ¬ ClosesBrace t) :
    beforeClosingBrace? t = none := by
  induction t with
  | nil => rfl
  | cons c t ih =>
    rw [closesBrace_cons_iff, not_or, not_and, not_and] at ht
    rw [beforeClosingBrace?]
    split
    · rfl
    next hc =>
      rw [ih (ht.1 hc)]
      refine if_neg ?_
      rw [Bool.and_eq_true, decide_eq_true_eq, beq_iff_eq,
        Text.head?_trimStart_eq_some_iff (by decide)]
      exact fun h => ht.2 h.1 h.2

/-- The value in braces ends at the last brace that a semicolon follows. -/
theorem beforeClosingBrace?_of_last {before gap after : Text} (hbefore : '\n' ∉ before)
    (hgap : gap.all isBlank = true) (hlast : ¬ ClosesBrace (gap ++ ';' :: after)) :
    beforeClosingBrace? (before ++ '}' :: (gap ++ ';' :: after)) = some before := by
  -- the search prefers what it finds further on, so a brace before this one is passed over
  induction before with
  | nil =>
    have hfollows : (Text.trimStart (gap ++ ';' :: after)).head? = some ';' :=
      (Text.head?_trimStart_eq_some_iff (by decide)).mpr ⟨gap, after, rfl, hgap⟩
    rw [List.nil_append, beforeClosingBrace?, if_neg (by decide),
      beforeClosingBrace?_of_not hlast]
    simp [hfollows]
  | cons c before ih =>
    rw [List.mem_cons, not_or] at hbefore
    rw [List.cons_append, beforeClosingBrace?, if_neg (Ne.symm hbefore.1), ih hbefore.2]

/-- Of the closing braces that count, one is the last. -/
theorem exists_last_of_closesBrace {t : Text} (h : ClosesBrace t) :
    ∃ before gap after, t = before ++ '}' :: (gap ++ ';' :: after) ∧ '\n' ∉ before ∧
      gap.all isBlank = true ∧ ¬ ClosesBrace (gap ++ ';' :: after) := by
  induction t with
  | nil =>
    obtain ⟨before, gap, after, ht, -, -⟩ := h
    simp at ht
  | cons c t ih =>
    by_cases hclose : ClosesBrace t
    · obtain ⟨before, gap, after, rfl, hbefore, hgap, hlast⟩ := ih hclose
      have hc : c ≠ '\n' := by
        rcases closesBrace_cons_iff.mp h with h | h
        · exact h.1
        · rw [h.1]
          decide
      exact ⟨c :: before, gap, after, rfl, by simp [Ne.symm hc, hbefore], hgap, hlast⟩
    · rcases closesBrace_cons_iff.mp h with h | ⟨rfl, gap, after, rfl, hgap⟩
      · exact absurd h.2 hclose
      · exact ⟨[], gap, after, rfl, by simp, hgap, hclose⟩

/-! ### Branches -/

section

variable {line before after : Text}

/-- A line with a semicolon that is no macro and has the word `using`, `const` or `constexpr`
assigns at its first equals sign. -/
theorem ofLine?_of_assignment (hstart : line.words.head? ≠ some "#define".toList)
    (hend : ';' ∈ line)
    (hword : "using".toList ∈ line.words ∨ "const".toList ∈ line.words ∨
      "constexpr".toList ∈ line.words)
    (hcut : line.cutAtChar '=' = some (before, after)) :
    ofLine? line = ofAssignment? before after := by
  simp only [ofLine?]
  rw [if_neg hstart, if_neg (by simpa using hend)]
  by_cases husing : "using".toList ∈ line.words
  · rw [if_pos (by simpa using husing), hcut]
    rfl
  · -- the word `using` decides the branch, but both branches assign
    have hconst := hword.resolve_left husing
    rw [if_neg (by simpa using husing), if_pos (by simpa using hconst), hcut]

/-- Without an equals sign the word `const` or `constexpr` has braces looked for. -/
theorem ofLine?_of_braces (hstart : line.words.head? ≠ some "#define".toList) (hend : ';' ∈ line)
    (husing : "using".toList ∉ line.words)
    (hword : "const".toList ∈ line.words ∨ "constexpr".toList ∈ line.words)
    (hassign : '=' ∉ line) (hcut : line.cutAtChar '{' = some (before, after)) :
    ofLine? line = ofBraces? before after := by
  simp only [ofLine?]
  rw [if_neg hstart, if_neg (by simpa using hend), if_neg (by simpa using husing),
    if_pos (by simpa using hword), Text.cutAtChar_of_not_mem hassign, hcut]
  rfl

/-- The word `using` without an equals sign on the line makes it no definition. -/
theorem ofLine?_of_using (hstart : line.words.head? ≠ some "#define".toList)
    (husing : "using".toList ∈ line.words) (hassign : '=' ∉ line) : ofLine? line = none := by
  simp only [ofLine?]
  rw [if_neg hstart, Text.cutAtChar_of_not_mem hassign]
  split
  · rfl
  · rw [if_pos (by simpa using husing)]
    rfl

/-- A name and a value that are not empty make a constant. -/
theorem ofParts?_eq_some {name value : Text} (hname : name ≠ []) (hvalue : value ≠ []) :
    ofParts? name value = some ⟨name, value⟩ := by
  simp [ofParts?, hname, hvalue]

end

/-! ### Shapes of definitions -/

/-- A macro with a value, and what follows it on the line. -/
structure MacroLine where
  /-- What stands in front of `#define`. -/
  indent : Text
  /-- What stands between `#define` and the name. -/
  gap : Text
  /-- The name. -/
  name : Text
  /-- What stands between the name and the value. -/
  space : Text
  /-- The value. -/
  value : Text
  /-- What stands behind the value. -/
  rest : Text
  /-- Only blanks stand in front. -/
  isBlank_indent : indent.all isBlank = true := by decide
  /-- A blank separates the name from what stands in front of it. -/
  gap_ne_nil : gap ≠ [] := by decide
  /-- Nothing but blanks stands there. -/
  isBlank_gap : gap.all isBlank = true := by decide
  /-- There is a name. -/
  name_ne_nil : name ≠ [] := by decide
  /-- The name is one word. -/
  not_blank_name : name.any isBlank = false := by decide
  /-- The macro has no parameters. -/
  no_parameters : '(' ∉ name := by decide
  /-- A blank separates the value from the name. -/
  space_ne_nil : space ≠ [] := by decide
  /-- Nothing but blanks stands between them. -/
  isBlank_space : space.all isBlank = true := by decide
  /-- There is a value. -/
  value_ne_nil : value ≠ [] := by decide
  /-- The value is one word. -/
  not_blank_value : value.any isBlank = false := by decide
  /-- A blank separates the value from what stands behind it. -/
  separated : rest.head?.all isBlank = true := by decide

namespace MacroLine

variable (d : MacroLine)

/-- The line. -/
def text : Text :=
  d.indent ++ ("#define".toList ++ (d.gap ++ (d.name ++ (d.space ++ (d.value ++ d.rest)))))

/-- The value of a macro is the first of the words from it on. -/
theorem words_value_append : (d.value ++ d.rest).words = d.value :: d.rest.words := by
  have hvalue := Text.words_of_word d.value_ne_nil d.not_blank_value
  rcases hrest : d.rest with _ | ⟨c, rest⟩
  · rw [List.append_nil, hvalue]
    rfl
  · have hc : isBlank c = true := by simpa [hrest] using d.separated
    rw [Text.words_append_cons hc, hvalue, ← List.nil_append (c :: rest),
      Text.words_append_cons hc]
    rfl

/-- The words of a macro: the directive, the name, the value and the rest. -/
theorem words_text : d.text.words = "#define".toList :: d.name :: d.value :: d.rest.words := by
  have hkey : Text.words "#define".toList = ["#define".toList] :=
    Text.words_of_word (by decide) (by decide)
  unfold text
  rw [Text.words_append_of_blank d.isBlank_indent, Text.words_append_gap d.gap_ne_nil d.isBlank_gap,
    Text.words_append_gap d.space_ne_nil d.isBlank_space, hkey,
    Text.words_of_word d.name_ne_nil d.not_blank_name, words_value_append]
  rfl

/-- A macro line is read back as its name and its value. -/
theorem ofLine?_text : ofLine? d.text = some ⟨d.name, d.value⟩ := by
  simp only [ofLine?, words_text]
  rw [if_pos List.head?_cons, List.tail_cons, ofMacro?, if_neg (by simpa using d.no_parameters)]
  exact ofParts?_eq_some d.name_ne_nil d.value_ne_nil

end MacroLine

/-- What stands in front of the value in the other shapes: words, then the name, with no equals
sign among them. -/
structure Opening where
  /-- The words in front of the name. -/
  lead : Text
  /-- What stands between them and the name. -/
  gap : Text
  /-- The name. -/
  name : Text
  /-- What stands behind the name. -/
  margin : Text
  /-- The line is no macro. -/
  head_ne_define : lead.words.head? ≠ some "#define".toList := by decide
  /-- A blank separates the name from what stands in front of it. -/
  gap_ne_nil : gap ≠ [] := by decide
  /-- Nothing but blanks stands there. -/
  isBlank_gap : gap.all isBlank = true := by decide
  /-- There is a name. -/
  name_ne_nil : name ≠ [] := by decide
  /-- The name is one word. -/
  not_blank_name : name.any isBlank = false := by decide
  /-- Only blanks stand behind the name. -/
  isBlank_margin : margin.all isBlank = true := by decide

namespace Opening

variable (d : Opening)

/-- The text in front of the sign that starts the value. -/
def front : Text :=
  d.lead ++ (d.gap ++ (d.name ++ d.margin))

/-- The name is the last word in front of the sign. -/
theorem words_front : d.front.words = d.lead.words ++ [d.name] := by
  unfold front
  rw [Text.words_append_gap d.gap_ne_nil d.isBlank_gap, Text.words_append_blank d.isBlank_margin,
    Text.words_of_word d.name_ne_nil d.not_blank_name]

/-- The words in front of the name stay the same, whatever follows. -/
theorem words_front_append (t : Text) :
    (d.front ++ t).words = d.lead.words ++ (d.name ++ (d.margin ++ t)).words := by
  unfold front
  rw [← Text.words_append_gap d.gap_ne_nil d.isBlank_gap]
  simp only [List.append_assoc]

/-- The words in front of the name are words of the line. -/
theorem mem_words_append {word : Text} (h : word ∈ d.lead.words) (t : Text) :
    word ∈ (d.front ++ t).words := by
  rw [words_front_append]
  exact List.mem_append_left _ h

/-- A line with a word in front of the name is no macro. -/
theorem head?_words_append {word : Text} (h : word ∈ d.lead.words) (t : Text) :
    (d.front ++ t).words.head? ≠ some "#define".toList := by
  rw [words_front_append, List.head?_append_of_ne_nil _ (List.ne_nil_of_mem h)]
  exact d.head_ne_define

/-- A sign that is neither a blank nor in the words or in the name is not in front. -/
theorem not_mem_front {c : Char} (hc : isBlank c = false) (hlead : c ∉ d.lead)
    (hname : c ∉ d.name) : c ∉ d.front := by
  have hgap := Text.not_mem_of_blank hc d.isBlank_gap
  have hmargin := Text.not_mem_of_blank hc d.isBlank_margin
  simp [front, hlead, hgap, hname, hmargin]

end Opening

/-- A value with blanks around it. -/
structure Framed where
  /-- What stands in front of the value. -/
  indent : Text
  /-- The value. -/
  value : Text
  /-- What stands behind it. -/
  trail : Text
  /-- Only blanks stand in front. -/
  isBlank_indent : indent.all isBlank = true := by decide
  /-- There is a value. -/
  value_ne_nil : value ≠ [] := by decide
  /-- The value neither starts nor ends with a blank. -/
  trim_value : value.trim = value := by decide
  /-- Only blanks stand behind the value. -/
  isBlank_trail : trail.all isBlank = true := by decide

/-- A definition with an equals sign. -/
structure Assigned extends Opening, Framed where
  /-- The words in front of the name tell that a constant is defined. -/
  keyword : "using".toList ∈ lead.words ∨ "const".toList ∈ lead.words ∨
    "constexpr".toList ∈ lead.words := by decide
  /-- The equals sign is the first one. -/
  assign_not_mem : '=' ∉ lead ∧ '=' ∉ name := by decide

/-- A definition with braces, which are closed on the line. -/
structure Braced extends Opening, Framed where
  /-- What stands between the closing brace and the semicolon. -/
  clasp : Text
  /-- Only blanks stand between the brace and the semicolon. -/
  isBlank_clasp : clasp.all isBlank = true := by decide
  /-- The words in front of the name tell that a constant is defined. -/
  keyword : "const".toList ∈ lead.words ∨ "constexpr".toList ∈ lead.words := by decide
  /-- The opening brace is the first one. -/
  brace_not_mem : '{' ∉ lead ∧ '{' ∉ name := by decide
  /-- The line does not end between the braces. -/
  inline : '\n' ∉ indent ++ (value ++ trail) := by decide

/-! ### Values -/

/-- The name is the last word in front, and the value is what was found, trimmed. -/
theorem ofParts?_of_found (opening : Opening) (framed : Framed) {found : Option Text} {t : Text}
    (hfound : found = some (framed.indent ++ (framed.value ++ t))) :
    (do
      let name ← opening.front.words.getLast?
      let value ← found
      ofParts? name value.trim) = some ⟨opening.name, framed.value ++ t.trimEnd⟩ := by
  have hvalue : framed.value ++ t.trimEnd ≠ [] := by simp [framed.value_ne_nil]
  rw [opening.words_front, List.getLast?_concat, hfound]
  simp only [Option.bind_eq_bind, Option.bind_some]
  rw [Text.trim_append_append framed.value_ne_nil framed.trim_value framed.isBlank_indent]
  exact ofParts?_eq_some opening.name_ne_nil hvalue

namespace Assigned

variable (d : Assigned)

/-- The line, with `rest` behind the semicolon. -/
def text (rest : Text) : Text :=
  d.front ++ '=' :: (d.indent ++ (d.value ++ (d.trail ++ ';' :: rest)))

/-- The value goes on to the last semicolon of the line. -/
theorem ofLine?_text {rest t after : Text} (hlast : d.trail ++ ';' :: rest = t ++ ';' :: after)
    (hafter : ';' ∉ after) : ofLine? (d.text rest) = some ⟨d.name, d.value ++ t.trimEnd⟩ := by
  have hfront : '=' ∉ d.front :=
    d.not_mem_front (by decide) d.assign_not_mem.1 d.assign_not_mem.2
  have hwords : "using".toList ∈ (d.text rest).words ∨ "const".toList ∈ (d.text rest).words ∨
      "constexpr".toList ∈ (d.text rest).words :=
    d.keyword.imp (d.mem_words_append · _) (.imp (d.mem_words_append · _) (d.mem_words_append · _))
  have hstart : (d.text rest).words.head? ≠ some "#define".toList := by
    rcases d.keyword with h | h | h <;> exact d.head?_words_append h _
  rw [ofLine?_of_assignment hstart (by simp [text]) hwords (Text.cutAtChar_append hfront _)]
  refine ofParts?_of_found d.toOpening d.toFramed ?_
  -- the semicolon that counts is the last one, which need not be that of the definition
  rw [hlast, ← List.append_assoc d.value, ← List.append_assoc d.indent,
    Text.beforeLastChar_append hafter]

/-- Without a further semicolon the definition is read back. -/
theorem ofLine?_text_of_not_mem {rest : Text} (hrest : ';' ∉ rest) :
    ofLine? (d.text rest) = some ⟨d.name, d.value⟩ := by
  rw [d.ofLine?_text rfl hrest, Text.trimEnd_eq_nil_iff.mpr d.isBlank_trail, List.append_nil]

/-- With one, what stands before it belongs to the value. -/
theorem ofLine?_text_append {after : Text} (hafter : ';' ∉ after) (before : Text) :
    ofLine? (d.text (before ++ ';' :: after)) =
      some ⟨d.name, d.value ++ Text.trimEnd (d.trail ++ ';' :: before)⟩ := by
  refine d.ofLine?_text ?_ hafter
  simp

end Assigned

namespace Braced

variable (d : Braced)

/-- The line, with `rest` behind the semicolon. -/
def text (rest : Text) : Text :=
  d.front ++ '{' :: (d.indent ++ (d.value ++ (d.trail ++ '}' :: (d.clasp ++ ';' :: rest))))

/-- A definition with braces is no macro. -/
theorem head?_words_text (rest : Text) :
    (d.text rest).words.head? ≠ some "#define".toList := by
  rcases d.keyword with h | h <;> exact d.head?_words_append h _

/-- The value goes on to the last brace of the line that a semicolon follows. -/
theorem ofLine?_text {rest t clasp after : Text} (hassign : '=' ∉ d.text rest)
    (husing : "using".toList ∉ (d.text rest).words)
    (hlast : d.trail ++ '}' :: (d.clasp ++ ';' :: rest) = t ++ '}' :: (clasp ++ ';' :: after))
    (ht : '\n' ∉ t) (hclasp : clasp.all isBlank = true)
    (hafter : ¬ ClosesBrace (clasp ++ ';' :: after)) :
    ofLine? (d.text rest) = some ⟨d.name, d.value ++ t.trimEnd⟩ := by
  have hfront : '{' ∉ d.front :=
    d.not_mem_front (by decide) d.brace_not_mem.1 d.brace_not_mem.2
  have hwords : "const".toList ∈ (d.text rest).words ∨ "constexpr".toList ∈ (d.text rest).words :=
    d.keyword.imp (d.mem_words_append · _) (d.mem_words_append · _)
  have hinline : '\n' ∉ d.indent ++ (d.value ++ t) := by
    have := d.inline
    simp_all
  rw [ofLine?_of_braces (d.head?_words_text rest) (by simp [text]) husing hwords hassign
      (Text.cutAtChar_append hfront _)]
  refine ofParts?_of_found d.toOpening d.toFramed ?_
  rw [hlast, ← List.append_assoc d.value, ← List.append_assoc d.indent,
    beforeClosingBrace?_of_last hinline hclasp hafter]

/-- The line does not end behind the value. -/
theorem newline_not_mem_trail : '\n' ∉ d.trail := by
  have := d.inline
  simp_all

/-- Unless braces are closed behind it, the definition is read back. -/
theorem ofLine?_text_of_not {rest : Text} (hassign : '=' ∉ d.text rest)
    (husing : "using".toList ∉ (d.text rest).words) (hrest : ¬ ClosesBrace rest) :
    ofLine? (d.text rest) = some ⟨d.name, d.value⟩ := by
  rw [d.ofLine?_text hassign husing rfl d.newline_not_mem_trail d.isBlank_clasp
      (not_closesBrace_behind d.isBlank_clasp hrest),
    Text.trimEnd_eq_nil_iff.mpr d.isBlank_trail, List.append_nil]

/-- If they are, what stands before the last of them belongs to the value. -/
theorem ofLine?_text_append {before clasp after : Text}
    (hassign : '=' ∉ d.text (before ++ '}' :: (clasp ++ ';' :: after)))
    (husing : "using".toList ∉ (d.text (before ++ '}' :: (clasp ++ ';' :: after))).words)
    (hline : '\n' ∉ d.clasp ++ before) (hclasp : clasp.all isBlank = true)
    (hafter : ¬ ClosesBrace (clasp ++ ';' :: after)) :
    ofLine? (d.text (before ++ '}' :: (clasp ++ ';' :: after))) =
      some ⟨d.name, d.value ++ Text.trimEnd (d.trail ++ '}' :: (d.clasp ++ ';' :: before))⟩ := by
  refine d.ofLine?_text hassign husing ?_ ?_ hclasp hafter
  · simp
  · have := d.newline_not_mem_trail
    simp_all

end Braced

/-! ### Reading back -/

/-- The constant has a name, which is one word, and a value, which is trimmed. -/
def Clean (constant : Constant) : Prop :=
  constant.name ≠ [] ∧ constant.name.any isBlank = false ∧ constant.value ≠ [] ∧
    constant.value.trim = constant.value

/-- A constant with a name of one word and a trimmed value is clean. -/
theorem clean_of_ofParts? {name value : Text} {constant : Constant}
    (h : ofParts? name value = some constant) (hname : name.any isBlank = false)
    (hvalue : value.trim = value) : constant.Clean := by
  have hne := ne_nil_of_ofParts? h
  rw [ofParts?] at h
  split at h
  · cases h
  · cases h
    exact ⟨hne.1, hname, hne.2, hvalue⟩

/-- A constant that a macro defines is clean. -/
theorem clean_of_ofMacro? {line : Text} {constant : Constant}
    (h : ofMacro? line.words.tail = some constant) : constant.Clean := by
  have hword : ∀ word ∈ line.words.tail, word.any isBlank = false :=
    fun word hword => Text.any_isBlank_of_mem_words (List.mem_of_mem_tail hword)
  generalize line.words.tail = words at h hword
  rw [ofMacro?.eq_def] at h
  split at h
  next name value _ =>
    split at h
    · cases h
    · exact clean_of_ofParts? h (hword _ (by simp)) (Text.trim_of_word (hword _ (by simp)))
  next => cases h

/-- A name that is the last word of a text and a value that was found somewhere and is trimmed. -/
theorem clean_of_found {before : Text} {found : Option Text} {constant : Constant}
    (h : (do
      let name ← before.words.getLast?
      let value ← found
      ofParts? name value.trim) = some constant) : constant.Clean := by
  obtain ⟨name, hname, h⟩ := Option.bind_eq_some_iff.mp h
  obtain ⟨value, -, h⟩ := Option.bind_eq_some_iff.mp h
  have hword := Text.any_isBlank_of_mem_words (List.mem_of_getLast? hname)
  exact clean_of_ofParts? h hword value.trim_trim

/-- Whatever the line, what is read from it is a word and a trimmed value. -/
theorem clean_of_ofLine? {line : Text} {constant : Constant} (h : ofLine? line = some constant) :
    constant.Clean := by
  simp only [ofLine?] at h
  split at h
  · exact clean_of_ofMacro? h
  split at h
  · cases h
  split at h
  · obtain ⟨_, -, h⟩ := Option.bind_eq_some_iff.mp h
    exact clean_of_found h
  split at h
  · split at h
    · exact clean_of_found h
    · obtain ⟨_, -, h⟩ := Option.bind_eq_some_iff.mp h
      exact clean_of_found h
  · cases h

/-- Every definition of the three shapes is read back, with any text without a semicolon behind
the last two. Conversely, what is read from a line has the form of a definition's parts. -/
theorem ofLine?_reads_back :
    (∀ d : MacroLine, ofLine? d.text = some ⟨d.name, d.value⟩) ∧
    (∀ (d : Assigned) (rest : Text), ';' ∉ rest →
      ofLine? (d.text rest) = some ⟨d.name, d.value⟩) ∧
    (∀ (d : Braced) (rest : Text), ';' ∉ rest → '=' ∉ d.text rest →
      "using".toList ∉ (d.text rest).words → ofLine? (d.text rest) = some ⟨d.name, d.value⟩) ∧
    ∀ line constant, ofLine? line = some constant → constant.Clean := by
  refine ⟨MacroLine.ofLine?_text, ?_, ?_, fun line constant => clean_of_ofLine?⟩
  · intro d rest hrest
    exact d.ofLine?_text_of_not_mem hrest
  · intro d rest hrest hassign husing
    exact d.ofLine?_text_of_not hassign husing (not_closesBrace_of_not_mem hrest)

/-- `constexpr bool Same = (A == B) ;` -/
def sampleAssigned : Assigned where
  lead := "constexpr bool".toList
  gap := [' ']
  name := "Same".toList
  margin := [' ']
  indent := [' ']
  value := "(A == B)".toList
  trail := [' ']

/-- `static const Box Unit {{1}, {2}};` -/
def sampleBraced : Braced where
  lead := "static const Box".toList
  gap := [' ']
  name := "Unit".toList
  margin := [' ']
  indent := []
  value := "\x7b1\x7d, \x7b2\x7d".toList
  trail := []
  clasp := []

/-- A macro with a rest, an assignment with a comparison in its value, and braces with a value that
has braces and a comma in it. -/
theorem ofLine?_reads_back_samples :
    ofLine? "#define SIZE (4+1) rest".toList = some ⟨"SIZE".toList, "(4+1)".toList⟩ ∧
    ofLine? "constexpr bool Same = (A == B) ;".toList =
      some ⟨"Same".toList, "(A == B)".toList⟩ ∧
    ofLine? "static const Box Unit \x7b\x7b1\x7d, \x7b2\x7d\x7d; \x7d".toList =
      some ⟨"Unit".toList, "\x7b1\x7d, \x7b2\x7d".toList⟩ :=
  ⟨ofLine?_reads_back.1
      { indent := [], gap := [' '], name := "SIZE".toList, space := [' '],
        value := "(4+1)".toList, rest := " rest".toList },
    ofLine?_reads_back.2.1 sampleAssigned [] (by decide),
    ofLine?_reads_back.2.2.1 sampleBraced " \x7d".toList (by decide) (by decide +kernel)
      (by decide +kernel)⟩

/-! ### Further statements on the line -/

/-- A semicolon behind the value stays when the blanks at the end are taken off. -/
theorem Framed.mem_append_trimEnd (d : Framed) {t : Text} (ht : ';' ∈ t) :
    ';' ∈ d.value ++ t.trimEnd :=
  List.mem_append_right _ ((Text.mem_trimEnd_iff (by decide)).mpr ht)

/-- A semicolon behind the value makes another value of it. -/
theorem Framed.append_trimEnd_ne (d : Framed) {t : Text} (ht : ';' ∈ t) :
    d.value ++ t.trimEnd ≠ d.value := by
  intro h
  have hmem : ';' ∈ t.trimEnd := (Text.mem_trimEnd_iff (by decide)).mpr ht
  rw [List.append_right_eq_self.mp h] at hmem
  simp at hmem

/-- The value of an assignment is kept exactly if no semicolon stands behind it. Otherwise the
value goes on to the last one. -/
theorem Assigned.exists_value (d : Assigned) (rest : Text) :
    ∃ value, ofLine? (d.text rest) = some ⟨d.name, value⟩ ∧
      (value = d.value ↔ ';' ∉ rest) ∧ (';' ∈ value ↔ ';' ∈ d.value ∨ ';' ∈ rest) := by
  by_cases hrest : ';' ∈ rest
  · obtain ⟨before, after, rfl, hafter⟩ := Text.exists_last_of_mem hrest
    have hend : ';' ∈ d.trail ++ ';' :: before := by simp
    refine ⟨_, d.ofLine?_text_append hafter before, ?_, ?_⟩
    · simp [hrest, d.append_trimEnd_ne hend]
    · simp [hrest, d.mem_append_trimEnd hend]
  · exact ⟨d.value, d.ofLine?_text_of_not_mem hrest, by simp [hrest], by simp [hrest]⟩

/-- The value in braces is kept exactly if no brace is closed behind them. -/
theorem Braced.exists_value (d : Braced) {rest : Text} (hline : '\n' ∉ d.clasp ++ rest)
    (hassign : '=' ∉ d.text rest) (husing : "using".toList ∉ (d.text rest).words) :
    ∃ value, ofLine? (d.text rest) = some ⟨d.name, value⟩ ∧
      (value = d.value ↔ ¬ ClosesBrace rest) ∧
      (';' ∈ value ↔ ';' ∈ d.value ∨ ClosesBrace rest) := by
  by_cases hrest : ClosesBrace rest
  · obtain ⟨before, clasp, after, rfl, hbefore, hclasp, hafter⟩ := exists_last_of_closesBrace hrest
    have hend : ';' ∈ d.trail ++ '}' :: (d.clasp ++ ';' :: before) := by simp
    have hline : '\n' ∉ d.clasp ++ before := by simp_all
    refine ⟨_, d.ofLine?_text_append hassign husing hline hclasp hafter, ?_, ?_⟩
    · simp [hrest, d.append_trimEnd_ne hend]
    · simp [hrest, d.mem_append_trimEnd hend]
  · exact ⟨d.value, d.ofLine?_text_of_not hassign husing hrest, by simp [hrest], by simp [hrest]⟩

/-- What is recorded of a definition with `rest` behind its semicolon. The value is kept exactly
if no further statement ends the way the definition does, and goes on to the end of the last such
statement otherwise; and a definition with braces is lost where the word `using` stands on the
line. -/
theorem ofLine?_value_to_last_terminator (rest : Text) :
    (∀ d : Assigned, ∃ value, ofLine? (d.text rest) = some ⟨d.name, value⟩ ∧
      (value = d.value ↔ ';' ∉ rest) ∧ (';' ∈ value ↔ ';' ∈ d.value ∨ ';' ∈ rest) ∧
      ∀ before after, rest = before ++ ';' :: after → ';' ∉ after →
        value = d.value ++ Text.trimEnd (d.trail ++ ';' :: before)) ∧
    ∀ d : Braced, '\n' ∉ d.clasp ++ rest → '=' ∉ d.text rest →
      ("using".toList ∈ (d.text rest).words → ofLine? (d.text rest) = none) ∧
      ("using".toList ∉ (d.text rest).words →
        ∃ value, ofLine? (d.text rest) = some ⟨d.name, value⟩ ∧
          (value = d.value ↔ ¬ ClosesBrace rest) ∧
          (';' ∈ value ↔ ';' ∈ d.value ∨ ClosesBrace rest) ∧
          ∀ before clasp after, rest = before ++ '}' :: (clasp ++ ';' :: after) →
            clasp.all isBlank = true → ¬ ClosesBrace after →
            value = d.value ++ Text.trimEnd (d.trail ++ '}' :: (d.clasp ++ ';' :: before))) := by
  constructor
  · intro d
    obtain ⟨value, hread, hkept, hmem⟩ := d.exists_value rest
    refine ⟨value, hread, hkept, hmem, ?_⟩
    rintro before after rfl hafter
    -- the same line read in two ways
    have hlast := d.ofLine?_text_append hafter before
    rw [hread] at hlast
    cases hlast
    rfl
  · intro d hline hassign
    refine ⟨fun husing => ofLine?_of_using (d.head?_words_text rest) husing hassign, ?_⟩
    intro husing
    obtain ⟨value, hread, hkept, hmem⟩ := d.exists_value hline hassign husing
    refine ⟨value, hread, hkept, hmem, ?_⟩
    rintro before clasp after rfl hclasp hafter
    have hlast := d.ofLine?_text_append hassign husing (by simp_all) hclasp
      (not_closesBrace_behind hclasp hafter)
    rw [hread] at hlast
    cases hlast
    rfl

/-- A second statement on the line goes into the value, behind an assignment and behind braces. -/
theorem ofLine?_value_to_last_terminator_samples :
    (∃ value, ofLine? (sampleAssigned.text " int n = 0;".toList) = some ⟨"Same".toList, value⟩ ∧
      ';' ∈ value) ∧
    ∃ value, ofLine? (sampleBraced.text " Box b \x7b\x7d;".toList) = some ⟨"Unit".toList, value⟩ ∧
      ';' ∈ value := by
  constructor
  · obtain ⟨value, hread, -, hmem, -⟩ :=
      (ofLine?_value_to_last_terminator " int n = 0;".toList).1 sampleAssigned
    exact ⟨value, hread, hmem.mpr (.inr (by decide))⟩
  · have hcloses : ClosesBrace " Box b \x7b\x7d;".toList :=
      ⟨" Box b \x7b".toList, [], [], by decide, by decide, rfl⟩
    obtain ⟨value, hread, -, hmem, -⟩ :=
      ((ofLine?_value_to_last_terminator " Box b \x7b\x7d;".toList).2 sampleBraced (by decide)
        (by decide +kernel)).2 (by decide +kernel)
    exact ⟨value, hread, hmem.mpr (.inr hcloses)⟩

/-- A further statement is taken into the value, and a `using` directive behind a definition with
braces hides it. -/
theorem ofLine?_further_statements :
    ofLine? "using A = int; f();".toList = some ⟨"A".toList, "int; f()".toList⟩ ∧
    ofLine? "constexpr int N = 3; f();".toList = some ⟨"N".toList, "3; f()".toList⟩ ∧
    ofLine? "constexpr int N \x7b 3 \x7d; T t \x7b4\x7d;".toList =
      some ⟨"N".toList, "3 \x7d; T t \x7b4".toList⟩ ∧
    ofLine? "constexpr int N \x7b 3 \x7d; using namespace std;".toList = none := by
  decide +kernel

end Constant

end ExplicitInstantiation
