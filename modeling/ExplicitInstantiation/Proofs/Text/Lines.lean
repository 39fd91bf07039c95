import ExplicitInstantiation.Text.Search

/-!
# Lines of a text

A text that ends at the end of a line (`Text.EndsLine`) can be cut there: its lines come first and
the lines of what follows come after them (`fullLines_append`). The lines before some line of a
text form such a text, and cutting it again gives the same lines (`fullLines_flatten_of_append`).

A piece without a newline stands in a text if and only if it stands in one of its lines
(`exists_mem_fullLines_infix_iff`), so a search line by line misses nothing.

Where the line breaks do not matter, the lines are taken without them (`Text.lines`): a newline, or
a carriage return and a newline.
-/

namespace ExplicitInstantiation

namespace Text

/-- Whether a text stops where a line does: it is empty or its last character is a newline. -/
def EndsLine (t : Text) : Prop :=
  t = [] ∨ t.getLast? = some '\n'

/-! ### Cutting at the end of a line -/

/-- A newline that starts a text is a line of its own. -/
@[simp] theorem fullLines_newline_cons (rest : Text) :
    fullLines ('\n' :: rest) = ['\n'] :: fullLines rest := by
  simp [fullLines]

/-- Any other character goes to the first line behind it. -/
theorem fullLines_cons_of_cons {c : Char} {rest line : Text} {lines : List Text} (hc : c ≠ '\n')
    (h : fullLines rest = line :: lines) : fullLines (c :: rest) = (c :: line) :: lines := by
  simp [fullLines, hc, h]

/-- Only the empty text has no line. -/
theorem fullLines_eq_nil_iff {t : Text} : fullLines t = [] ↔ t = [] := by
  constructor
  · intro h
    rw [← flatten_fullLines t, h, List.flatten_nil]
  · rintro rfl
    rfl

/-- One character is one line. -/
theorem fullLines_singleton (c : Char) : fullLines [c] = [[c]] := by
  by_cases hc : c = '\n' <;> simp [fullLines, hc]

/-- Without its first character a text stops where it stopped before. -/
theorem EndsLine.tail {c : Char} {rest : Text} (h : EndsLine (c :: rest)) : EndsLine rest := by
  rcases rest with _ | ⟨d, rest⟩
  · exact Or.inl rfl
  · rcases h with h | h
    · cases h
    · exact Or.inr (by simpa [List.getLast?_cons_cons] using h)

/-- With one more character in front a text stops where it stopped before. -/
theorem EndsLine.cons {rest : Text} (c : Char) (hne : rest ≠ []) (h : EndsLine rest) :
    EndsLine (c :: rest) := by
  obtain ⟨d, rest, rfl⟩ := List.exists_cons_of_ne_nil hne
  rcases h with h | h
  · cases h
  · exact Or.inr (by simpa [List.getLast?_cons_cons] using h)

/-- A text with a newline behind it stops where a line does. -/
theorem EndsLine.append_newline (t : Text) : EndsLine (t ++ ['\n']) :=
  Or.inr (by simp)

/-- At the end of a line a text falls into the lines before and the lines after. -/
theorem fullLines_append {s : Text} (h : EndsLine s) (t : Text) :
    fullLines (s ++ t) = fullLines s ++ fullLines t := by
  induction s with
  | nil => rfl
  | cons c rest ih =>
    have ih := ih h.tail
    by_cases hc : c = '\n'
    · subst hc
      rw [List.cons_append, fullLines_newline_cons, fullLines_newline_cons, ih, List.cons_append]
    · -- the line that `c` starts goes on in `rest`, which cannot be empty
      rcases hlines : fullLines rest with _ | ⟨line, lines⟩
      · rw [fullLines_eq_nil_iff] at hlines
        subst hlines
        rcases h with h | h
        · cases h
        · simp_all
      · rw [hlines, List.cons_append] at ih
        rw [List.cons_append, fullLines_cons_of_cons hc ih, fullLines_cons_of_cons hc hlines,
          List.cons_append]

/-- A line with its newline in front is the first line of a text. -/
theorem fullLines_line_append {line : Text} (h : '\n' ∉ line) (rest : Text) :
    fullLines (line ++ '\n' :: rest) = (line ++ ['\n']) :: fullLines rest := by
  induction line with
  | nil => exact fullLines_newline_cons rest
  | cons c line ih =>
    have hc : c ≠ '\n' := fun heq => h (heq ▸ List.mem_cons_self)
    have hline : '\n' ∉ line := fun hmem => h (List.mem_cons_of_mem c hmem)
    exact fullLines_cons_of_cons hc (ih hline)

/-- Text without a newline is one line. -/
theorem fullLines_of_not_mem {line : Text} (hne : line ≠ []) (h : '\n' ∉ line) :
    fullLines line = [line] := by
  induction line with
  | nil => exact absurd rfl hne
  | cons c rest ih =>
    rw [List.mem_cons, not_or] at h
    rcases rest with _ | ⟨d, rest⟩
    · exact fullLines_singleton c
    · exact fullLines_cons_of_cons (Ne.symm h.1) (ih (by simp) h.2)

/-- The lines before some line of a text are the lines of the text they form, and that text ends
where a line does. -/
theorem fullLines_flatten_of_append {t : Text} {before : List Text} {line : Text}
    {after : List Text} (h : fullLines t = before ++ line :: after) :
    fullLines before.flatten = before ∧ EndsLine before.flatten := by
  induction t generalizing before with
  | nil => simp [fullLines] at h
  | cons c rest ih =>
    rcases before with _ | ⟨first, before⟩
    · exact ⟨rfl, Or.inl rfl⟩
    by_cases hc : c = '\n'
    · subst hc
      rw [fullLines_newline_cons, List.cons_append, List.cons.injEq] at h
      obtain ⟨rfl, h⟩ := h
      obtain ⟨hlines, hends⟩ := ih h
      refine ⟨?_, ?_⟩
      · rw [List.flatten_cons, List.singleton_append, fullLines_newline_cons, hlines]
      · rcases hrest : before.flatten with _ | ⟨d, ds⟩
        · exact Or.inr (by simp [hrest])
        · rw [List.flatten_cons, List.singleton_append]
          exact hends.cons '\n' (by simp [hrest])
    · rcases hlines : fullLines rest with _ | ⟨head, lines⟩
      · rw [fullLines_eq_nil_iff] at hlines
        subst hlines
        simp [fullLines_singleton] at h
      · rw [fullLines_cons_of_cons hc hlines, List.cons_append, List.cons.injEq] at h
        obtain ⟨rfl, rfl⟩ := h
        -- `rest` has the same lines, the first of them without `c`
        have hsplit : fullLines rest = (head :: before) ++ line :: after := hlines
        obtain ⟨hcut, hends⟩ := ih hsplit
        have hne : (head :: before).flatten ≠ [] := fun hnil => by
          rw [hnil] at hcut
          cases hcut
        exact ⟨fullLines_cons_of_cons hc hcut, hends.cons c hne⟩

/-! ### Searching line by line -/

/-- A line of a text stands in it. -/
theorem infix_of_mem_fullLines {t line : Text} (h : line ∈ fullLines t) : line <:+: t := by
  rw [← flatten_fullLines t]
  exact List.infix_of_mem_flatten h

/-- What a text starts with, short of a newline, its first line starts with. -/
theorem exists_fullLines_cons_of_start {needle t : Text} (hne : needle ≠ [])
    (hline : '\n' ∉ needle) (h : needle <+: t) :
    ∃ first others, fullLines t = first :: others ∧ needle <+: first := by
  induction needle generalizing t with
  | nil => exact absurd rfl hne
  | cons c needle ih =>
    have hc : c ≠ '\n' := fun heq => hline (heq ▸ List.mem_cons_self)
    have hrest : '\n' ∉ needle := fun hmem => hline (List.mem_cons_of_mem c hmem)
    obtain ⟨after, rfl⟩ := h
    rw [List.cons_append]
    rcases hlines : fullLines (needle ++ after) with _ | ⟨first, others⟩
    · have hempty := fullLines_eq_nil_iff.mp hlines
      rw [hempty, fullLines_singleton]
      exact ⟨[c], [], rfl, by simp [(List.append_eq_nil_iff.mp hempty).1]⟩
    · refine ⟨c :: first, others, fullLines_cons_of_cons hc hlines, ?_⟩
      by_cases hnil : needle = []
      · simp [hnil]
      · obtain ⟨first', others', heq, hstart⟩ := ih hnil hrest (List.prefix_append needle after)
        rw [hlines, List.cons.injEq] at heq
        rw [heq.1]
        exact List.cons_prefix_cons.mpr ⟨rfl, hstart⟩

/-- A line of the rest of a text is part of a line of the text. -/
theorem exists_mem_fullLines_cons {c : Char} {rest line : Text} (h : line ∈ fullLines rest) :
    ∃ full ∈ fullLines (c :: rest), line <:+: full := by
  by_cases hc : c = '\n'
  · subst hc
    exact ⟨line, by simp [h], List.infix_refl line⟩
  · obtain ⟨first, others, hlines⟩ := List.exists_cons_of_ne_nil (List.ne_nil_of_mem h)
    rw [fullLines_cons_of_cons hc hlines]
    rw [hlines] at h
    rcases List.mem_cons.mp h with rfl | hmem
    · exact ⟨c :: line, List.mem_cons_self, (List.suffix_cons c line).isInfix⟩
    · exact ⟨line, List.mem_cons_of_mem _ hmem, List.infix_refl line⟩

/-- A piece without a newline stands in some line of a text exactly when it stands in the text. -/
theorem exists_mem_fullLines_infix_iff {needle : Text} (hne : needle ≠ [])
    (hline : '\n' ∉ needle) (t : Text) :
    (∃ line ∈ fullLines t, needle <:+: line) ↔ needle <:+: t := by
  constructor
  · rintro ⟨line, hmem, hpiece⟩
    exact hpiece.trans (infix_of_mem_fullLines hmem)
  · intro h
    induction t with
    | nil => exact absurd (List.eq_nil_of_infix_nil h) hne
    | cons c rest ih =>
      rcases List.infix_cons_iff.mp h with hstart | hpiece
      · obtain ⟨first, others, heq, hfirst⟩ := exists_fullLines_cons_of_start hne hline hstart
        exact ⟨first, by simp [heq], hfirst.isInfix⟩
      · obtain ⟨line, hmem, hin⟩ := ih hpiece
        obtain ⟨full, hfull, hpart⟩ := exists_mem_fullLines_cons (c := c) hmem
        exact ⟨full, hfull, hin.trans hpart⟩

/-- Newlines behind a text hold no piece of it that the text does not hold. -/
theorem infix_of_infix_append_newlines {needle t : Text} (hline : '\n' ∉ needle) (n : Nat)
    (h : needle <:+: t ++ List.replicate n '\n') : needle <:+: t := by
  obtain ⟨before, after, heq⟩ := h
  rw [List.append_assoc, List.append_eq_append_iff] at heq
  rcases heq with ⟨u, rfl, heq⟩ | ⟨u, rfl, heq⟩
  · -- the piece starts in `t`
    rw [List.append_eq_append_iff] at heq
    rcases heq with ⟨v, rfl, -⟩ | ⟨v, rfl, hv⟩
    · exact ⟨before, v, by simp⟩
    · have hnil : v = [] := by
        rw [List.eq_nil_iff_forall_not_mem]
        intro c hc
        have hmem : c ∈ List.replicate n '\n' := hv ▸ List.mem_append_left after hc
        rw [List.eq_of_mem_replicate hmem] at hc
        exact hline (List.mem_append_right u hc)
      exact ⟨before, [], by simp [hnil]⟩
  · -- the piece lies in the newlines, so it is empty
    have hnil : needle = [] := by
      rw [List.eq_nil_iff_forall_not_mem]
      intro c hc
      have hmem : c ∈ List.replicate n '\n' :=
        heq ▸ List.mem_append_right u (List.mem_append_left after hc)
      rw [List.eq_of_mem_replicate hmem] at hc
      exact hline hc
    rw [hnil]
    exact List.nil_infix

/-! ### Line breaks -/

/-- A line without the line break that ends it: a newline, possibly behind a carriage return. -/
def withoutBreak (line : Text) : Text :=
  match line.reverse with
  | '\n' :: '\r' :: rest => rest.reverse
  | '\n' :: rest => rest.reverse
  | _ => line

/-- The lines of a text, without the line breaks that end them. -/
def lines (t : Text) : List Text :=
  t.fullLines.map withoutBreak

/-- Together with a newline, at most a carriage return is taken off a line. -/
theorem withoutBreak_append_newline (line : Text) :
    line = withoutBreak (line ++ ['\n']) ∨ line = withoutBreak (line ++ ['\n']) ++ ['\r'] := by
  rw [withoutBreak, List.reverse_append, List.reverse_singleton, List.singleton_append]
  rcases hreverse : line.reverse with _ | ⟨c, rest⟩
  · exact .inl (by simpa using hreverse)
  · have hline : line = rest.reverse ++ [c] := by
      rw [← List.reverse_cons, ← hreverse, List.reverse_reverse]
    by_cases hc : c = '\r'
    · subst hc
      exact .inr hline
    · left
      split
      next heq =>
        obtain ⟨rfl, -⟩ := List.cons.inj (List.cons.inj heq).2
        exact absurd rfl hc
      next heq =>
        obtain rfl := (List.cons.inj heq).2
        rw [hline, List.reverse_cons]
      next h => exact absurd rfl (h _)

/-- Where there is no newline, nothing is taken off. -/
theorem withoutBreak_of_not_mem {line : Text} (h : '\n' ∉ line) : withoutBreak line = line := by
  unfold withoutBreak
  split
  next heq => exact absurd (List.mem_reverse.mp (heq ▸ List.mem_cons_self)) h
  next heq => exact absurd (List.mem_reverse.mp (heq ▸ List.mem_cons_self)) h
  next => rfl

/-- Induction on a text line by line. -/
@[elab_as_elim]
theorem lineInduction {motive : Text → Prop} (last : ∀ line, '\n' ∉ line → motive line)
    (newline : ∀ line rest, '\n' ∉ line → motive rest → motive (line ++ '\n' :: rest)) (t : Text) :
    motive t := by
  induction hlength : t.length using Nat.strongRecOn generalizing t with
  | ind length ih =>
    subst hlength
    by_cases hmem : '\n' ∈ t
    · obtain ⟨line, rest, rfl, hline⟩ := List.eq_append_cons_of_mem hmem
      refine newline line rest hline (ih rest.length ?_ rest rfl)
      rw [List.length_append, List.length_cons]
      omega
    · exact last t hmem

end Text

end ExplicitInstantiation
