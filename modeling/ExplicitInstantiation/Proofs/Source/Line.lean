import Mathlib.Data.List.Infix
import ExplicitInstantiation.Proofs.Text.Blank
import ExplicitInstantiation.Proofs.Text.Lines
import ExplicitInstantiation.Source.Line

/-!
# Lines and the code on them

The lines of code of a file are those of its lines, without the line breaks that end them, on which
some code is left when blanks and comment are taken away (`codeLines_eq_numbered`). How a line is
ended does not matter: with a newline, with a carriage return before it, or, for the last line, not
at all. So a file can be cut at any line break (`codesOf_lines_append_break`).

A line is often known as some code with blanks in front of it and, behind it, more text, blanks and
a comment. Code that keeps clear of comments and blanks at its ends (`Solid`) is found as it was
written, followed by what is code in the text behind it (`Solid.codeOf_around`).
-/

namespace ExplicitInstantiation

/-! ### The code on a line -/

/-- What stands before the comment on a line. -/
def beforeComment : Text → Text
  | [] => []
  | c :: rest => if ['/', '/'].isPrefixOf (c :: rest) then [] else c :: beforeComment rest

/-- The code of a line is what stands before its comment, trimmed. -/
theorem codeOf_eq_trim (line : Text) : codeOf line = (beforeComment line).trim := by
  have hcut : (line.cutAtFirst ['/', '/'] = none ∧ beforeComment line = line) ∨
      ∃ after, line.cutAtFirst ['/', '/'] = some (beforeComment line, after) := by
    induction line with
    | nil => exact .inl ⟨rfl, rfl⟩
    | cons c rest ih =>
      rw [Text.cutAtFirst, beforeComment]
      split
      · exact .inr ⟨_, rfl⟩
      · rcases ih with ⟨hnone, hrest⟩ | ⟨after, hsome⟩
        · exact .inl ⟨by rw [hnone]; rfl, by rw [hrest]⟩
        · exact .inr ⟨after, by rw [hsome]; rfl⟩
  rcases hcut with ⟨hnone, hline⟩ | ⟨after, hsome⟩
  · rw [codeOf, hnone, hline]
  · rw [codeOf, hsome]

/-- Whether a text is nothing or a comment. -/
def IsComment (t : Text) : Prop :=
  t = [] ∨ ['/', '/'] <+: t

instance (t : Text) : Decidable (IsComment t) :=
  inferInstanceAs (Decidable (_ ∨ _))

/-- Nothing stands before a comment that starts the text. -/
theorem beforeComment_of_isComment {t : Text} (h : IsComment t) : beforeComment t = [] := by
  rcases h with rfl | ⟨rest, rfl⟩ <;> rfl

/-- Where no comment starts, not even with the first character of what follows, a line is cut behind
that place. -/
theorem beforeComment_append {s : Text} (hs : ¬ ['/', '/'] <:+: s) (hlast : s.getLast? ≠ some '/')
    (t : Text) : beforeComment (s ++ t) = s ++ beforeComment t := by
  induction s with
  | nil => rfl
  | cons c s ih =>
    rw [List.infix_cons_iff, not_or] at hs
    have hstarts : ¬ ['/', '/'].isPrefixOf (c :: (s ++ t)) = true := by
      rw [List.isPrefixOf_iff_prefix, List.cons_prefix_cons]
      rintro ⟨rfl, hnext⟩
      rcases s with _ | ⟨d, s⟩
      · exact hlast rfl
      · obtain ⟨rfl, -⟩ := List.cons_prefix_cons.mp hnext
        exact hs.1 (by simp)
    have hrest : s.getLast? ≠ some '/' := by
      rcases s with _ | ⟨d, s⟩
      · simp
      · rwa [List.getLast?_cons_cons] at hlast
    rw [List.cons_append, beforeComment, if_neg hstarts, ih hs.2 hrest, List.cons_append]

/-- A comment behind a text leaves the text, or what stands before the comment that it holds. -/
theorem exists_eq_beforeComment (t : Text) {comment : Text} (h : IsComment comment) :
    ∃ rest, t = beforeComment (t ++ comment) ++ rest ∧ ∀ c ∈ rest.head?, c = '/' := by
  induction t with
  | nil => exact ⟨[], by rw [List.nil_append, beforeComment_of_isComment h]; rfl, by simp⟩
  | cons c t ih =>
    rw [List.cons_append, beforeComment]
    split
    next hstarts =>
      refine ⟨c :: t, rfl, ?_⟩
      rw [List.isPrefixOf_iff_prefix, List.cons_prefix_cons] at hstarts
      simp [← hstarts.1]
    next =>
      obtain ⟨rest, ht, hrest⟩ := ih
      exact ⟨rest, by rw [List.cons_append, ← ht], hrest⟩

/-- No comment starts in blanks. -/
theorem slash_not_mem_of_blank {blanks : Text} (h : blanks.all isBlank = true) : '/' ∉ blanks :=
  Text.not_mem_of_blank (by decide) h

/-- Text without a slash stands before every comment behind it. -/
theorem beforeComment_append_of_not_mem {s : Text} (hs : '/' ∉ s) (t : Text) :
    beforeComment (s ++ t) = s ++ beforeComment t :=
  beforeComment_append (fun h => hs (h.subset (by simp))) (fun h => hs (List.mem_of_getLast? h)) t

/-- Blanks at the end of a line belong to the comment on it, or they stay as they are. -/
theorem beforeComment_append_blank {blanks : Text} (h : blanks.all isBlank = true) (line : Text) :
    beforeComment (line ++ blanks) = beforeComment line ∨
      beforeComment (line ++ blanks) = beforeComment line ++ blanks := by
  have hblanks : beforeComment blanks = blanks := by
    have hcut := beforeComment_append_of_not_mem (slash_not_mem_of_blank h) []
    rwa [List.append_nil, beforeComment, List.append_nil] at hcut
  induction line with
  | nil => exact .inr hblanks
  | cons c line ih =>
    have hstarts : ['/', '/'].isPrefixOf (c :: (line ++ blanks)) =
        ['/', '/'].isPrefixOf (c :: line) := by
      rcases line with _ | ⟨d, line⟩
      · rcases blanks with _ | ⟨d, blanks⟩
        · rfl
        · have hd : ('/' == d) = false := by
            rw [beq_eq_false_iff_ne]
            rintro rfl
            exact slash_not_mem_of_blank h List.mem_cons_self
          simp [List.isPrefixOf, hd]
      · rfl
    rw [List.cons_append, beforeComment, beforeComment, hstarts]
    split
    · exact .inl rfl
    · rcases ih with ih | ih
      · exact .inl (by rw [ih])
      · exact .inr (by rw [ih, List.cons_append])

/-- Blanks at the end of a line do not matter for its code. -/
theorem codeOf_append_of_blank {blanks : Text} (h : blanks.all isBlank = true) (line : Text) :
    codeOf (line ++ blanks) = codeOf line := by
  rw [codeOf_eq_trim, codeOf_eq_trim]
  rcases beforeComment_append_blank h line with hcut | hcut
  · rw [hcut]
  · rw [hcut, Text.trim_append_of_blank h]

/-! ### Lines of code -/

/-- The codes of those lines that have one. -/
def codesOf (lines : List Text) : List Text :=
  (lines.map codeOf).filter fun code => !code.isEmpty

/-- The codes of two groups of lines are those of the one and of the other. -/
theorem codesOf_append (upper lower : List Text) :
    codesOf (upper ++ lower) = codesOf upper ++ codesOf lower := by
  rw [codesOf, List.map_append, List.filter_append, codesOf, codesOf]

/-- The code of a single line that has one. -/
theorem codesOf_singleton {line : Text} (h : codeOf line ≠ []) :
    codesOf [line] = [codeOf line] := by
  simp [codesOf, h]

/-- Lines without code have no codes. -/
theorem codesOf_of_forall {lines : List Text} (h : ∀ line ∈ lines, codeOf line = []) :
    codesOf lines = [] := by
  simpa [codesOf] using h

/-- The line of code that a numbered line is, if there is code on it. -/
def codeLine? (line : Text × Nat) : Option CodeLine :=
  if (codeOf line.1).isEmpty then none else some ⟨line.2, codeOf line.1⟩

/-- The lines of a file that have code, numbered from 1. -/
def numberedCode (content : Text) : List CodeLine :=
  (content.lines.zipIdx 1).filterMap codeLine?

/-- The lines with code are those among the numbered lines that have code. -/
theorem codeLinesFrom_eq_filterMap (number : Nat) (lines : List Text) :
    codeLinesFrom number lines = (lines.zipIdx number).filterMap codeLine? := by
  induction lines generalizing number with
  | nil => rfl
  | cons line lines ih =>
    rw [codeLinesFrom, List.zipIdx_cons, List.filterMap_cons, codeLine?, ih]
    split <;> rfl

/-- Without their numbers, the lines with code are the codes of the lines. -/
theorem map_code_codeLinesFrom (number : Nat) (lines : List Text) :
    (codeLinesFrom number lines).map CodeLine.code = codesOf lines := by
  induction lines generalizing number with
  | nil => rfl
  | cons line lines ih =>
    rw [codeLinesFrom, codesOf, List.map_cons, List.filter_cons, ← codesOf, ← ih (number + 1)]
    split <;> simp_all

/-- Lines that are cut at newlines alone have the same code as those of the text: what a carriage
return adds is a blank, and what an empty last line adds is no code. -/
theorem codeLinesFrom_splitOn (number : Nat) (content : Text) :
    codeLinesFrom number (content.splitOn '\n') = codeLinesFrom number content.lines := by
  induction content using Text.lineInduction generalizing number with
  | last line hline =>
    rw [List.splitOn_eq_singleton hline, Text.lines]
    rcases line with _ | ⟨c, line⟩
    · rfl
    · rw [Text.fullLines_of_not_mem (by simp) hline, List.map_singleton,
        Text.withoutBreak_of_not_mem hline]
  | newline line rest hline ih =>
    have hcode : codeOf (Text.withoutBreak (line ++ ['\n'])) = codeOf line := by
      rcases Text.withoutBreak_append_newline line with h | h
      · rw [← h]
      · nth_rewrite 2 [h]
        rw [codeOf_append_of_blank (by decide)]
    rw [List.splitOn_append_cons_self, List.splitOn_eq_singleton hline, List.singleton_append,
      Text.lines, Text.fullLines_line_append hline, List.map_cons, ← Text.lines]
    rw [codeLinesFrom, codeLinesFrom, hcode, ih]

/-- **The lines of code of a file** are its lines with code, numbered from 1. -/
theorem codeLines_eq_numbered (content : Text) : codeLines content = numberedCode content := by
  rw [codeLines, codeLinesFrom_splitOn, codeLinesFrom_eq_filterMap, numberedCode]

/-- The lines with code of a file are the codes of its lines. -/
theorem map_code_codeLines (content : Text) :
    (codeLines content).map CodeLine.code = codesOf content.lines := by
  rw [codeLines, codeLinesFrom_splitOn, map_code_codeLinesFrom]

/-! ### Cutting a file -/

/-- Whether a text ends a line: a newline, possibly behind a carriage return. -/
def IsBreak (t : Text) : Prop :=
  t = ['\n'] ∨ t = ['\r', '\n']

/-- It does not matter for the codes how the line breaks are taken off. -/
theorem codesOf_lines (t : Text) : codesOf t.lines = codesOf (t.splitOn '\n') := by
  rw [← map_code_codeLines, codeLines, map_code_codeLinesFrom]

/-- A carriage return at the end of a file does not matter for the codes. -/
theorem codesOf_lines_append_return (t : Text) :
    codesOf (t ++ ['\r']).lines = codesOf t.lines := by
  rw [codesOf_lines, codesOf_lines]
  induction t using Text.lineInduction with
  | last line hline =>
    rw [List.splitOn_eq_singleton hline, List.splitOn_eq_singleton (by simpa using hline), codesOf,
      codesOf, List.map_singleton, List.map_singleton, codeOf_append_of_blank (by decide)]
  | newline line rest hline ih =>
    rw [List.append_assoc, List.cons_append, List.splitOn_append_cons_self, codesOf_append, ih,
      List.splitOn_append_cons_self, codesOf_append]

/-- At a line break a file falls into two, and the codes of its lines are those of the two. -/
theorem codesOf_lines_append_break {ending : Text} (h : IsBreak ending) (s t : Text) :
    codesOf (s ++ (ending ++ t)).lines = codesOf s.lines ++ codesOf t.lines := by
  have hnewline (s : Text) :
      codesOf (s ++ '\n' :: t).lines = codesOf s.lines ++ codesOf t.lines := by
    simp only [codesOf_lines, List.splitOn_append_cons_self, codesOf_append]
  rcases h with rfl | rfl
  · exact hnewline s
  · rw [← codesOf_lines_append_return s, ← hnewline (s ++ ['\r']), List.append_assoc]
    rfl

/-! ### Code with blanks and a comment around it -/

/-- Whether a text has no code: blanks, and possibly a comment behind them. -/
def IsRemark (t : Text) : Prop :=
  IsComment t.trimStart

instance (t : Text) : Decidable (IsRemark t) :=
  inferInstanceAs (Decidable (IsComment t.trimStart))

/-- A remark consists of blanks and a comment behind them. -/
theorem IsRemark.exists_eq {t : Text} (h : IsRemark t) :
    ∃ blanks comment, t = blanks ++ comment ∧ blanks.all isBlank = true ∧ IsComment comment :=
  ⟨t.takeWhile isBlank, t.trimStart, List.takeWhile_append_dropWhile.symm, List.all_takeWhile, h⟩

/-- The code in a text that follows other code on its line. -/
def codeBehind (t : Text) : Text :=
  (beforeComment t).trimEnd

/-- Behind other code a remark adds none. -/
theorem IsRemark.codeBehind_eq {t : Text} (h : IsRemark t) : codeBehind t = [] := by
  obtain ⟨blanks, comment, rfl, hblanks, hcomment⟩ := h.exists_eq
  rw [codeBehind, beforeComment_append_of_not_mem (slash_not_mem_of_blank hblanks),
    beforeComment_of_isComment hcomment, List.append_nil, Text.trimEnd_eq_nil_iff]
  exact hblanks

/-- Behind other code, blanks in front count. -/
theorem exists_codeBehind_eq (t : Text) :
    ∃ blanks, codeBehind t = blanks ++ codeOf t ∧ blanks.all isBlank = true := by
  have hlead : ((beforeComment t).takeWhile isBlank).all isBlank = true := List.all_takeWhile
  rw [codeBehind, codeOf_eq_trim, Text.trim]
  nth_rewrite 1 [← List.takeWhile_append_dropWhile (p := isBlank) (l := beforeComment t)]
  rw [← Text.trimStart, Text.trimEnd_append]
  split
  next hblank =>
    refine ⟨[], ?_, rfl⟩
    rw [Text.trimEnd_eq_nil_iff.mpr hblank, Text.trimEnd_eq_nil_iff.mpr hlead]
    rfl
  next => exact ⟨_, rfl, hlead⟩

/-- A remark has no code. -/
theorem IsRemark.codeOf_eq {t : Text} (h : IsRemark t) : codeOf t = [] := by
  obtain ⟨blanks, hcode, -⟩ := exists_codeBehind_eq t
  rw [h.codeBehind_eq] at hcode
  exact (List.append_eq_nil_iff.mp hcode.symm).2

/-- What is code of a text before a remark ends where the text or one of its words does. -/
theorem IsRemark.exists_append_eq {remark : Text} (h : IsRemark remark) (t : Text) :
    ∃ blanks rest, t ++ blanks = codeBehind (t ++ remark) ++ rest ∧ blanks.all isBlank = true ∧
      rest.head?.any isIdentifierChar = false := by
  obtain ⟨blanks, comment, rfl, hblanks, hcomment⟩ := h.exists_eq
  obtain ⟨after, hcut, hafter⟩ := exists_eq_beforeComment (t ++ blanks) hcomment
  obtain ⟨trail, htrim, htrail⟩ := (beforeComment (t ++ blanks ++ comment)).exists_eq_trimEnd
  refine ⟨blanks, trail ++ after, ?_, hblanks, ?_⟩
  · rw [codeBehind, ← List.append_assoc t, ← List.append_assoc, ← htrim, ← hcut]
  · rcases trail with _ | ⟨c, trail⟩
    · rcases after with _ | ⟨c, after⟩
      · rfl
      · have hslash : isIdentifierChar '/' = false := by decide
        rw [hafter c rfl]
        exact hslash
    · exact Text.isIdentifierChar_of_isBlank (List.all_eq_true.mp htrail c List.mem_cons_self)

/-- The words of the code of a text are words of the text. -/
theorem IsRemark.mem_runWords {remark t word : Text} (h : IsRemark remark)
    (hword : word ∈ (codeBehind (t ++ remark)).runWords) : word ∈ t.runWords := by
  obtain ⟨blanks, rest, ht, hblanks, hrest⟩ := h.exists_append_eq t
  have hwords := congrArg Text.runWords ht
  rw [Text.runWords_append (Text.head?_any_of_blank hblanks), Text.runWords_of_blank hblanks,
    List.append_nil, Text.runWords_append hrest] at hwords
  rw [hwords]
  exact List.mem_append_left _ hword

/-- The code of a text starts as the text does, or with a blank. -/
theorem IsRemark.head?_codeBehind {remark t : Text} (h : IsRemark remark) {c : Char}
    (hc : c ∈ (codeBehind (t ++ remark)).head?) : c ∈ t.head? ∨ isBlank c = true := by
  obtain ⟨blanks, rest, ht, hblanks, -⟩ := h.exists_append_eq t
  have hhead : c ∈ (t ++ blanks).head? := by
    rw [ht, List.head?_append, Option.mem_def.mp hc]
    rfl
  rcases t with _ | ⟨d, t⟩
  · exact .inr (List.all_eq_true.mp hblanks c (List.mem_of_mem_head? hhead))
  · exact .inl hhead

/-- Code that is read as it stands, whatever follows it: it holds no comment, and a blank or the
beginning of a comment stands at neither end. -/
structure Solid (code : Text) : Prop where
  /-- No comment starts in it. -/
  uncommented : ¬ ['/', '/'] <:+: code
  /-- It starts with a character that is not blank. -/
  first : ∃ c ∈ code.head?, isBlank c = false
  /-- It ends with a character that is not blank and does not begin a comment. -/
  last : ∃ c ∈ code.getLast?, isBlank c = false ∧ c ≠ '/'

/-- What stands on a line around the code. -/
structure Margins where
  /-- What stands in front of the code. -/
  indent : Text
  /-- What stands behind it. -/
  remark : Text
  /-- Only blanks stand in front. -/
  isBlank_indent : indent.all isBlank = true := by decide
  /-- Only blanks and a comment stand behind. -/
  isRemark : IsRemark remark := by decide

/-- The line with `code` on it. -/
def Margins.around (margins : Margins) (code : Text) : Text :=
  margins.indent ++ (code ++ margins.remark)

/-- Where no comment can start, none is joined to the text behind. -/
theorem comment_infix_append_left {s : Text} (hs : '/' ∉ s) (t : Text) :
    ['/', '/'] <:+: s ++ t ↔ ['/', '/'] <:+: t := by
  induction s with
  | nil => rfl
  | cons c s ih =>
    rw [List.mem_cons, not_or] at hs
    rw [List.cons_append, List.infix_cons_iff, ih hs.2, or_iff_right_iff_imp, List.cons_prefix_cons]
    exact fun h => absurd h.1 hs.1

/-- Text without a slash, put behind another one, starts no comment. -/
theorem comment_infix_append_right {t : Text} (ht : '/' ∉ t) (s : Text) :
    ['/', '/'] <:+: s ++ t ↔ ['/', '/'] <:+: s := by
  have hreverse (u : Text) : ['/', '/'] <:+: u.reverse ↔ ['/', '/'] <:+: u :=
    @List.reverse_infix _ ['/', '/'] u
  rw [← hreverse, List.reverse_append, comment_infix_append_left (by simpa using ht), hreverse]

/-- Without a slash, and with no blank at either end, code is read as it stands. -/
theorem Solid.of_not_mem {code : Text} (h : '/' ∉ code)
    (first : ∃ c ∈ code.head?, isBlank c = false)
    (hlast : ∃ c ∈ code.getLast?, isBlank c = false) : Solid code := by
  obtain ⟨c, hc, hblank⟩ := hlast
  refine ⟨fun hstarts => h (hstarts.subset (by simp)), first, c, hc, hblank, ?_⟩
  rintro rfl
  exact h (List.mem_of_getLast? hc)

/-- Text that can hold no comment may be added to solid code. -/
theorem Solid.append {code s : Text} (h : Solid code) (hs : '/' ∉ s)
    (hlast : ∃ c ∈ s.getLast?, isBlank c = false) : Solid (code ++ s) := by
  obtain ⟨c, hc, hblank⟩ := hlast
  refine ⟨?_, ?_, c, ?_, hblank, ?_⟩
  · rw [comment_infix_append_right hs]
    exact h.uncommented
  · obtain ⟨d, hd, hfirst⟩ := h.first
    exact ⟨d, by rw [List.head?_append, Option.mem_def.mp hd]; rfl, hfirst⟩
  · rw [List.getLast?_append, Option.mem_def.mp hc]
    rfl
  · rintro rfl
    exact hs (List.mem_of_getLast? hc)

/-- Code that is read as it stands is not empty. -/
theorem Solid.ne_nil {code : Text} (h : Solid code) : code ≠ [] := by
  rintro rfl
  obtain ⟨c, hc, -⟩ := h.first
  cases hc

/-- No blank is taken off before such code. -/
theorem Solid.trimStart_append {code : Text} (h : Solid code) (t : Text) :
    (code ++ t).trimStart = code ++ t := by
  obtain ⟨c, hc, hblank⟩ := h.first
  rcases code with _ | ⟨d, code⟩
  · cases hc
  · obtain rfl : d = c := by simpa using hc
    exact Text.trimStart_cons_of_not hblank _

/-- Blanks at the end are taken off only behind such code. -/
theorem Solid.trimEnd_append {code : Text} (h : Solid code) (t : Text) :
    (code ++ t).trimEnd = code ++ t.trimEnd := by
  obtain ⟨c, hc, hblank, -⟩ := h.last
  obtain ⟨before, rfl⟩ := List.getLast?_eq_some_iff.mp hc
  have hcode : Text.trimEnd (before ++ [c]) = before ++ [c] := by
    rw [Text.trimEnd_append, if_neg (by simp [hblank]), Text.trimEnd, Text.dropEndWhile]
    simp [hblank]
  rw [Text.trimEnd_append]
  split
  next hall => rw [hcode, Text.trimEnd_eq_nil_iff.mpr hall, List.append_nil]
  next => rfl

/-- Solid code is found on its line, followed by the code in what stands behind it. -/
theorem Solid.codeOf_around {code : Text} (h : Solid code) (margins : Margins) (tail : Text) :
    codeOf (margins.around (code ++ tail)) = code ++ codeBehind (tail ++ margins.remark) := by
  have hlast : code.getLast? ≠ some '/' := by
    obtain ⟨c, hc, -, hslash⟩ := h.last
    rw [Option.mem_def.mp hc]
    simpa using hslash
  rw [codeOf_eq_trim, Margins.around,
    beforeComment_append_of_not_mem (slash_not_mem_of_blank margins.isBlank_indent), Text.trim,
    Text.trimStart_append_of_blank margins.isBlank_indent, List.append_assoc,
    beforeComment_append h.uncommented hlast, h.trimStart_append, h.trimEnd_append, codeBehind]

/-- A line that starts with such code has it for its code, with the code behind it. -/
theorem Solid.codesOf_around {code : Text} (h : Solid code) (margins : Margins) (tail : Text) :
    codesOf [margins.around (code ++ tail)] = [code ++ codeBehind (tail ++ margins.remark)] := by
  have hcode := h.codeOf_around margins tail
  rw [codesOf_singleton, hcode]
  rw [hcode]
  exact List.append_ne_nil_of_left_ne_nil h.ne_nil _

/-- A line that holds such code and margins has it for its code. -/
theorem Solid.codesOf_around_self {code : Text} (h : Solid code) (margins : Margins) :
    codesOf [margins.around code] = [code] := by
  have hcodes := h.codesOf_around margins []
  rwa [List.append_nil, List.nil_append, margins.isRemark.codeBehind_eq, List.append_nil] at hcodes

end ExplicitInstantiation
