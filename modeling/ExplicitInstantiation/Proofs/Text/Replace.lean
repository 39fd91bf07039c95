import ExplicitInstantiation.Proofs.Text.Runs

/-!
# Replacing a name

`Text.replaceAll` replaces a name wherever its characters stand. A name that consists of identifier
characters stands inside one run of them, so a text can be cut at the end of a run, and at every
character outside the runs, and its pieces can be treated one by one (`replaceAll_append`,
`replaceAll_cons_of_not`). Where the name stands in no longer run, the replacement exchanges whole
runs (`mem_runWords_replaceAll`).
-/

namespace ExplicitInstantiation

namespace Text

/-- Where a name does not stand, there is nothing to replace. -/
theorem replaceAll_of_not_hasText {t name : Text} (value : Text) (h : t.hasText name = false) :
    t.replaceAll name value = t := by
  rw [replaceAll]
  induction t with
  | nil => rfl
  | cons c t ih =>
    obtain ⟨hstands, hrest⟩ := Bool.or_eq_false_iff.mp h
    rw [replaceFrom, if_neg (by simp [hstands]), ih hrest]

/-- A replacement by text that is not empty leaves something of a text. -/
theorem replaceAll_ne_nil {t value : Text} (ht : t ≠ []) (name : Text) (hvalue : value ≠ []) :
    t.replaceAll name value ≠ [] := by
  rcases t with _ | ⟨c, t⟩
  · exact absurd rfl ht
  · rw [replaceAll, replaceFrom]
    split <;> simp [hvalue]

/-! ### The name itself -/

/-- Of a text that is all to be passed nothing is left. -/
theorem replaceFrom_length (name value t : Text) : replaceFrom name value t.length t = [] := by
  induction t with
  | nil => rfl
  | cons c t ih => exact ih

/-- A name is replaced as a whole. -/
theorem replaceAll_self {name : Text} (hname : name ≠ []) (value : Text) :
    name.replaceAll name value = value := by
  obtain ⟨c, rest, rfl⟩ := List.exists_cons_of_ne_nil hname
  have hstands : (c :: rest).isPrefixOf (c :: rest) = true :=
    List.isPrefixOf_iff_prefix.mpr (List.prefix_refl _)
  rw [replaceAll, replaceFrom, if_pos hstands, List.length_cons, Nat.add_sub_cancel,
    replaceFrom_length, List.append_nil]

/-! ### Cutting a text -/

/-- A name that stands at the start of a text does not reach beyond the end of a run. -/
theorem isPrefixOf_append {name t : Text} (hname : ∀ c ∈ name, isIdentifierChar c = true)
    (ht : t.head?.any isIdentifierChar = false) (s : Text) :
    name.isPrefixOf (s ++ t) = name.isPrefixOf s := by
  induction s generalizing name with
  | nil =>
    rcases name with _ | ⟨c, name⟩
    · simp
    · rcases t with _ | ⟨d, t⟩
      · rfl
      · have hc : isIdentifierChar c = true := hname c List.mem_cons_self
        have hd : isIdentifierChar d = false := ht
        have hne : c ≠ d := fun heq => by simp [heq, hd] at hc
        rw [List.nil_append, List.isPrefixOf_cons_cons, beq_false_of_ne hne, Bool.false_and]
        rfl
  | cons d s ih =>
    rcases name with _ | ⟨c, name⟩
    · simp
    · rw [List.forall_mem_cons] at hname
      simp only [List.cons_append, List.isPrefixOf_cons_cons, ih hname.2]

/-- The pieces before and after the end of a run are treated one by one, also when some characters
of the first one are still to be passed. -/
theorem replaceFrom_append {name t : Text} (hname : ∀ c ∈ name, isIdentifierChar c = true)
    (ht : t.head?.any isIdentifierChar = false) (value : Text) {skip : Nat} {s : Text}
    (hskip : skip ≤ s.length) :
    replaceFrom name value skip (s ++ t) =
      replaceFrom name value skip s ++ replaceFrom name value 0 t := by
  induction s generalizing skip with
  | nil =>
    obtain rfl := Nat.le_zero.mp hskip
    rfl
  | cons c s ih =>
    cases skip with
    | succ skip => exact ih (Nat.le_of_succ_le_succ hskip)
    | zero =>
      have hstands := isPrefixOf_append hname ht (c :: s)
      rw [List.cons_append] at hstands ⊢
      rw [replaceFrom, replaceFrom, hstands]
      split
      next hprefix =>
        have hlength := (List.isPrefixOf_iff_prefix.mp hprefix).length_le
        rw [List.length_cons] at hlength
        rw [ih (by omega), List.append_assoc]
      next => rw [ih (Nat.zero_le _), List.cons_append]

/-- At the end of a run a text can be cut and its pieces treated one by one. -/
theorem replaceAll_append {name t : Text} (hname : name.IsIdentifier)
    (ht : t.head?.any isIdentifierChar = false) (value s : Text) :
    (s ++ t).replaceAll name value = s.replaceAll name value ++ t.replaceAll name value :=
  replaceFrom_append hname.2 ht value (Nat.zero_le _)

/-- Characters outside the runs are kept. -/
theorem replaceAll_cons_of_not {name : Text} (hname : name.IsIdentifier) {c : Char}
    (hc : isIdentifierChar c = false) (value rest : Text) :
    replaceAll (c :: rest) name value = c :: rest.replaceAll name value := by
  have hstands : ¬ name.isPrefixOf (c :: rest) = true := by
    intro h
    have hchar := (forall_of_isPrefixOf hname.1 hname.2 h).1
    rw [hc] at hchar
    cases hchar
  rw [replaceAll, replaceFrom, if_neg hstands]
  rfl

/-- What follows the end of a run still does so after a replacement. -/
theorem head?_replaceAll {name t : Text} (hname : name.IsIdentifier)
    (ht : t.head?.any isIdentifierChar = false) (value : Text) :
    (t.replaceAll name value).head?.any isIdentifierChar = false := by
  rcases t with _ | ⟨c, rest⟩
  · rfl
  · rw [replaceAll_cons_of_not hname ht]
    exact ht

/-! ### Runs -/

/-- Where a name does not stand, nothing is replaced. -/
theorem replaceAll_eq_self_of_absent {name t : Text} (h : ¬ name <:+: t) (value : Text) :
    t.replaceAll name value = t := by
  apply replaceAll_of_not_hasText
  rwa [← Bool.not_eq_true, hasText_iff]

/-- Where a name stands in no run, there is nothing to replace. -/
theorem replaceAll_of_not_infix_runWords {name t : Text} (hname : name.IsIdentifier)
    (ht : ∀ word ∈ t.runWords, ¬ name <:+: word) (value : Text) :
    t.replaceAll name value = t := by
  induction t using runInduction with
  | nil => rfl
  | plain c rest hc ih =>
    rw [runWords_cons_of_not hc] at ht
    rw [replaceAll_cons_of_not hname hc, ih ht]
  | run t first rest hrun ih =>
    rw [hrun.runWords_eq, List.forall_mem_cons] at ht
    rw [hrun.text_eq, replaceAll_append hname hrun.ends, ih ht.2, replaceAll_eq_self_of_absent ht.1]

/-- Replacing a name that stands in no run but its own puts the runs of the value in its place and
keeps the others. -/
theorem mem_runWords_replaceAll {name t : Text} (hname : name.IsIdentifier)
    (ht : ∀ word ∈ t.runWords, word ≠ name → ¬ name <:+: word) (value : Text) {word : Text} :
    word ∈ (t.replaceAll name value).runWords ↔
      (word ∈ t.runWords ∧ word ≠ name) ∨ (name ∈ t.runWords ∧ word ∈ value.runWords) := by
  induction t using runInduction with
  | nil => simp
  | plain c rest hc ih =>
    rw [runWords_cons_of_not hc] at ht ⊢
    rw [replaceAll_cons_of_not hname hc, runWords_cons_of_not hc]
    exact ih ht
  | run t first rest hrun ih =>
    rw [hrun.runWords_eq, List.forall_mem_cons] at ht
    have hcut : (t.replaceAll name value).runWords =
        (first.replaceAll name value).runWords ++ (rest.replaceAll name value).runWords := by
      rw [hrun.text_eq, replaceAll_append hname hrun.ends,
        runWords_append (head?_replaceAll hname hrun.ends value)]
    rw [hcut, List.mem_append, ih ht.2, hrun.runWords_eq]
    by_cases hfirst : first = name
    · subst hfirst
      rw [replaceAll_self hname.1]
      grind
    · rw [replaceAll_eq_self_of_absent (ht.1 hfirst), hrun.isIdentifier.runWords_eq]
      grind

end Text

end ExplicitInstantiation
