import Mathlib.Data.List.Forall2
import ExplicitInstantiation.Proofs.Source.Nesting
import ExplicitInstantiation.Proofs.Text.Blank

/-!
# The parts of a list

A list is cut at the commas outside its brackets. `CutsInto t parts` says so without a scan: every
part is unbroken, that is, no comma in it stands at depth zero, every part but the last ends at
depth zero, and the text is the parts with commas between them. It holds of exactly one list of
parts (`cutsInto_iff`), because the depth is zero again where a part starts.

In other words, a list of texts is that of the parts exactly if it makes the text again, if each of
them is a single part, and if each but the last ends at depth zero (`topLevelParts_eq_iff`).

What is done to single parts keeps the cut if it keeps them unbroken and their depth at the end
(`KeepsCut`, `CutsInto.of_forall₂`). Both depend only on the commas and brackets of a part
(`keepsCut_of_marks_eq`), so trimming does (`keepsCut_trim`), and so does putting a text without
commas and brackets in the place of a part (`keepsCut_of_plain`).

In a well bracketed text the depth is the number of brackets that are due (`depthAtEnd_of_foldlM`).
So parts that are well bracketed and unbroken are read back from the list they make
(`topLevelParts_join`).
-/

namespace ExplicitInstantiation

/-! ### Unbroken texts -/

/-- Whether no comma of a text that starts at `depth` stands at depth zero. -/
def Unbroken (depth : Nat) (t : Text) : Prop :=
  ∀ before after, t = before ++ ',' :: after → depthAtEnd depth before ≠ 0

/-- The empty text has no comma that separates. -/
theorem unbroken_nil (depth : Nat) : Unbroken depth [] := by
  intro before after h
  simp at h

/-- No comma separates exactly if the first character is none that does and none behind it does. -/
theorem unbroken_cons_iff {depth : Nat} {c : Char} {rest : Text} :
    Unbroken depth (c :: rest) ↔
      ¬ (c = ',' ∧ depth = 0) ∧ Unbroken (depthAfter depth c) rest := by
  constructor
  · intro h
    constructor
    · rintro ⟨rfl, rfl⟩
      exact h [] rest rfl rfl
    · intro before after hrest
      exact h (c :: before) after (by rw [hrest, List.cons_append])
  · rintro ⟨hfirst, hrest⟩ before after h
    rcases before with _ | ⟨d, before⟩
    · obtain ⟨rfl, -⟩ := List.cons.inj h
      exact fun hdepth => hfirst ⟨rfl, hdepth⟩
    · obtain ⟨rfl, hafter⟩ := List.cons.inj h
      exact hrest before after hafter

/-- No comma separates in two texts in a row exactly if none does in either of them. -/
theorem unbroken_append_iff {depth : Nat} {s t : Text} :
    Unbroken depth (s ++ t) ↔ Unbroken depth s ∧ Unbroken (depthAtEnd depth s) t := by
  induction s generalizing depth with
  | nil => simp [unbroken_nil]
  | cons c s ih => rw [List.cons_append, unbroken_cons_iff, ih, unbroken_cons_iff, and_assoc]; rfl

/-- An unbroken text belongs to one part, with what follows it up to the next cut. -/
theorem partsFrom_append {depth : Nat} {s : Text} (h : Unbroken depth s) (t : Text) :
    partsFrom depth (s ++ t) = (partsFrom (depthAtEnd depth s) t).modifyHead (s ++ ·) := by
  induction s generalizing depth with
  | nil => exact (congrFun List.modifyHead_id _).symm
  | cons c s ih =>
    rw [unbroken_cons_iff] at h
    rw [List.cons_append, partsFrom, if_neg h.1, ih h.2, List.modifyHead_modifyHead]
    rfl

/-- An unbroken text is one part. -/
theorem partsFrom_of_unbroken {depth : Nat} {t : Text} (h : Unbroken depth t) :
    partsFrom depth t = [t] := by
  have hparts := partsFrom_append h []
  rwa [List.append_nil, partsFrom, List.modifyHead_cons, List.append_nil] at hparts

/-- The first part ends at the first comma at depth zero. -/
theorem partsFrom_append_comma {depth : Nat} {part : Text} (h : Unbroken depth part)
    (hend : depthAtEnd depth part = 0) (rest : Text) :
    partsFrom depth (part ++ ',' :: rest) = part :: partsFrom 0 rest := by
  rw [partsFrom_append h, hend, partsFrom, if_pos ⟨rfl, rfl⟩, List.modifyHead_cons,
    List.append_nil]

/-- A text is unbroken, or it can be cut at its first comma at depth zero. -/
theorem unbroken_or_exists_cut (depth : Nat) (t : Text) :
    Unbroken depth t ∨ ∃ part rest, t = part ++ ',' :: rest ∧ Unbroken depth part ∧
      depthAtEnd depth part = 0 := by
  induction t generalizing depth with
  | nil => exact .inl (unbroken_nil depth)
  | cons c rest ih =>
    by_cases hcut : c = ',' ∧ depth = 0
    · obtain ⟨rfl, rfl⟩ := hcut
      exact .inr ⟨[], rest, rfl, unbroken_nil 0, rfl⟩
    · rcases ih (depthAfter depth c) with hrest | ⟨part, after, rfl, hpart, hend⟩
      · exact .inl (unbroken_cons_iff.mpr ⟨hcut, hrest⟩)
      · exact .inr ⟨c :: part, after, rfl, unbroken_cons_iff.mpr ⟨hcut, hpart⟩, hend⟩

/-! ### The cut -/

/-- The cut of a text into parts. -/
inductive CutsInto : Text → List Text → Prop where
  /-- What follows the last comma. -/
  | last {part : Text} (h : Unbroken 0 part) : CutsInto part [part]
  /-- A part, the comma behind it, and the parts behind that. -/
  | comma {part rest : Text} {parts : List Text} (h : Unbroken 0 part)
    (hend : depthAtEnd 0 part = 0) (hrest : CutsInto rest parts) :
    CutsInto (part ++ ',' :: rest) (part :: parts)

/-- A text is cut into at least one part. -/
theorem CutsInto.ne_nil {t : Text} {parts : List Text} (h : CutsInto t parts) : parts ≠ [] := by
  cases h <;> simp

/-- The parts of a text are such that it is cut into them. -/
theorem cutsInto_topLevelParts (t : Text) : CutsInto t (topLevelParts t) := by
  induction hlength : t.length using Nat.strongRecOn generalizing t with
  | ind length ih =>
    subst hlength
    unfold topLevelParts
    rcases unbroken_or_exists_cut 0 t with h | ⟨part, rest, rfl, hpart, hend⟩
    · rw [partsFrom_of_unbroken h]
      exact .last h
    · rw [partsFrom_append_comma hpart hend]
      refine .comma hpart hend (ih rest.length ?_ rest rfl)
      simp only [List.length_append, List.length_cons]
      omega

/-- The parts of a text are the only ones into which it can be cut. -/
theorem cutsInto_iff {t : Text} {parts : List Text} :
    CutsInto t parts ↔ topLevelParts t = parts := by
  constructor
  · intro h
    unfold topLevelParts
    induction h with
    | last h => exact partsFrom_of_unbroken h
    | comma h hend _ ih => rw [partsFrom_append_comma h hend, ih]
  · rintro rfl
    exact cutsInto_topLevelParts t

/-- Nothing is lost but the commas. -/
theorem CutsInto.eq_join {t : Text} {parts : List Text} (h : CutsInto t parts) :
    t = Text.join [','] parts := by
  induction h with
  | last => rw [Text.join_singleton]
  | comma _ _ hrest ih =>
    rw [Text.join_cons_of_ne_nil _ _ hrest.ne_nil, ← ih, List.singleton_append]

/-- Every part of a text is unbroken. -/
theorem CutsInto.unbroken {t : Text} {parts : List Text} (h : CutsInto t parts) :
    ∀ part ∈ parts, Unbroken 0 part := by
  induction h with
  | last h => simpa using h
  | comma h _ _ ih => exact List.forall_mem_cons.mpr ⟨h, ih⟩

/-- A text is one part exactly if it is unbroken. -/
theorem unbroken_zero_iff {t : Text} : Unbroken 0 t ↔ topLevelParts t = [t] := by
  constructor
  · intro h
    exact partsFrom_of_unbroken h
  · intro h
    exact (cutsInto_iff.mpr h).unbroken t List.mem_cons_self

/-- Every part but the last ends at depth zero. -/
theorem CutsInto.depthAtEnd {t : Text} {parts : List Text} (h : CutsInto t parts) :
    ∀ part ∈ parts.dropLast, depthAtEnd 0 part = 0 := by
  induction h with
  | last => simp
  | comma _ hend hrest ih =>
    rw [List.dropLast_cons_of_ne_nil hrest.ne_nil]
    exact List.forall_mem_cons.mpr ⟨hend, ih⟩

/-- Unbroken parts that end at depth zero, the last one apart, are the parts of the text that they
make. -/
theorem cutsInto_join {parts : List Text} (hne : parts ≠ [])
    (hunbroken : ∀ part ∈ parts, Unbroken 0 part)
    (hend : ∀ part ∈ parts.dropLast, depthAtEnd 0 part = 0) :
    CutsInto (Text.join [','] parts) parts := by
  induction parts with
  | nil => exact absurd rfl hne
  | cons part parts ih =>
    obtain ⟨hpart, hparts⟩ := List.forall_mem_cons.mp hunbroken
    rcases parts with _ | ⟨next, parts⟩
    · rw [Text.join_singleton]
      exact .last hpart
    · have hne' : next :: parts ≠ [] := List.cons_ne_nil next parts
      rw [List.dropLast_cons_of_ne_nil hne', List.forall_mem_cons] at hend
      rw [Text.join_cons_of_ne_nil _ _ hne']
      exact .comma hpart hend.1 (ih hne' hparts hend.2)

/-- **The parts of a text are its only decomposition at the commas outside all brackets.** For any
text, with its brackets closed or not, they are the one list of texts that makes the text when
commas are put between them, each of which is a single part when it stands alone, and each of which,
except for the last, ends at depth zero. -/
theorem topLevelParts_eq_iff (t : Text) (parts : List Text) :
    topLevelParts t = parts ↔
      parts ≠ [] ∧ Text.join [','] parts = t ∧
        (∀ part ∈ parts, topLevelParts part = [part]) ∧
        ∀ part ∈ parts.dropLast, depthAtEnd 0 part = 0 := by
  simp only [← unbroken_zero_iff]
  constructor
  · intro h
    have hcut : CutsInto t parts := cutsInto_iff.mpr h
    exact ⟨hcut.ne_nil, hcut.eq_join.symm, hcut.unbroken, hcut.depthAtEnd⟩
  · rintro ⟨hne, rfl, hunbroken, hend⟩
    exact cutsInto_iff.mp (cutsInto_join hne hunbroken hend)

/-- A comma behind a bracket that is not closed belongs to a part, and a closing bracket that was
never opened leaves the next comma a separator. -/
example : topLevelParts "a),b(c,d".toList = ["a)".toList, "b(c,d".toList] := by decide

/-! ### Keeping the cut -/

/-- Whether a text can stand in the place of a part: it is unbroken if the part is, and it ends at
depth zero if the part does. -/
structure KeepsCut (part result : Text) : Prop where
  /-- No comma separates in it, if none does in the part. -/
  unbroken : Unbroken 0 part → Unbroken 0 result
  /-- It ends at depth zero, if the part does. -/
  depth : depthAtEnd 0 part = 0 → depthAtEnd 0 result = 0

/-- Parts that are exchanged one by one are the parts of the text that they make. -/
theorem CutsInto.of_forall₂ {t : Text} {parts results : List Text} (h : CutsInto t parts)
    (hresults : List.Forall₂ KeepsCut parts results) :
    CutsInto (Text.join [','] results) results := by
  induction h generalizing results with
  | last h =>
    obtain ⟨result, _, hkeeps, hnil, rfl⟩ := List.forall₂_cons_left_iff.mp hresults
    obtain rfl := List.forall₂_nil_left_iff.mp hnil
    rw [Text.join_singleton]
    exact .last (hkeeps.unbroken h)
  | comma h hend hrest ih =>
    obtain ⟨result, others, hkeeps, hothers, rfl⟩ := List.forall₂_cons_left_iff.mp hresults
    have hcut := ih hothers
    rw [Text.join_cons_of_ne_nil _ _ hcut.ne_nil, List.singleton_append]
    exact .comma (hkeeps.unbroken h) (hkeeps.depth hend) hcut

/-! ### Plain characters -/

/-- Whether a character is neither a comma nor a bracket. -/
def isPlain (c : Char) : Bool :=
  c != ',' && !isOpener c && !isCloser c

/-- A text over a class of characters without the comma and the brackets is plain. -/
theorem plain_of_class {p : Char → Bool}
    (hp : [',', '<', '(', '[', '{', '>', ')', ']', '}'].any p = false) {t : Text}
    (h : t.all p = true) : t.all isPlain = true := by
  rw [List.all_eq_true] at h ⊢
  rw [List.any_eq_false] at hp
  intro c hc
  by_contra hplain
  have hmark : c ∈ [',', '<', '(', '[', '{', '>', ')', ']', '}'] := by
    simp only [isPlain, isOpener, isCloser] at hplain
    simp only [List.mem_cons]
    grind
  exact hp c hmark (h c hc)

/-- Blanks are plain. -/
theorem plain_of_blank {t : Text} (h : t.all isBlank = true) : t.all isPlain = true :=
  plain_of_class (by decide) h

/-- A plain character leaves the depth as it is. -/
theorem depthAfter_of_isPlain {c : Char} (h : isPlain c = true) (depth : Nat) :
    depthAfter depth c = depth := by
  simp only [isPlain, Bool.and_eq_true, Bool.not_eq_true'] at h
  simp [depthAfter, h.1.2, h.2]

/-! ### Commas and brackets -/

/-- The commas and brackets of a text, in their order. -/
def marks (t : Text) : Text :=
  t.filter fun c => !isPlain c

/-- A plain character is no mark. -/
theorem marks_cons_of_plain {c : Char} (hc : isPlain c = true) (t : Text) :
    marks (c :: t) = marks t :=
  List.filter_cons_of_neg (by simpa using hc)

/-- Every other character is a mark. -/
theorem marks_cons_of_not_plain {c : Char} (hc : ¬ isPlain c = true) (t : Text) :
    marks (c :: t) = c :: marks t :=
  List.filter_cons_of_pos (by simpa using hc)

/-- The marks of two texts in a row are those of the one and of the other. -/
theorem marks_append (s t : Text) : marks (s ++ t) = marks s ++ marks t :=
  List.filter_append s t

/-- Plain text has no marks. -/
theorem marks_of_plain {t : Text} (h : t.all isPlain = true) : marks t = [] := by
  rw [marks, List.filter_eq_nil_iff]
  intro c hc
  simp [List.all_eq_true.mp h c hc]

/-- A reading that passes over plain characters depends on nothing but the commas and brackets. -/
theorem foldlM_marks {σ : Type} {step : σ → Char → Option σ}
    (hplain : ∀ state c, isPlain c = true → step state c = some state) (t : Text) (state : σ) :
    (marks t).foldlM step state = t.foldlM step state := by
  induction t generalizing state with
  | nil => rfl
  | cons c t ih =>
    by_cases hc : isPlain c = true
    · rw [marks_cons_of_plain hc, List.foldlM_cons, hplain state c hc]
      exact ih state
    · rw [marks_cons_of_not_plain hc, List.foldlM_cons, List.foldlM_cons]
      exact bind_congr fun next => ih next

/-- Only commas and brackets count for the depth. -/
theorem depthAtEnd_marks (depth : Nat) (t : Text) :
    depthAtEnd depth (marks t) = depthAtEnd depth t := by
  induction t generalizing depth with
  | nil => rfl
  | cons c t ih =>
    rw [depthAtEnd_cons]
    by_cases hc : isPlain c = true
    · rw [marks_cons_of_plain hc, ih, depthAfter_of_isPlain hc]
    · rw [marks_cons_of_not_plain hc, depthAtEnd_cons, ih]

/-- Whether a comma separates is seen from the marks. -/
theorem unbroken_marks_iff {depth : Nat} {t : Text} :
    Unbroken depth (marks t) ↔ Unbroken depth t := by
  induction t generalizing depth with
  | nil => rfl
  | cons c t ih =>
    rw [unbroken_cons_iff, ← ih]
    by_cases hc : isPlain c = true
    · have hcomma : c ≠ ',' := by
        rintro rfl
        cases hc
      rw [marks_cons_of_plain hc, depthAfter_of_isPlain hc]
      simp [hcomma]
    · rw [marks_cons_of_not_plain hc, unbroken_cons_iff]

/-- Plain text leaves the depth as it is. -/
theorem depthAtEnd_of_plain {t : Text} (h : t.all isPlain = true) (depth : Nat) :
    depthAtEnd depth t = depth := by
  rw [← depthAtEnd_marks, marks_of_plain h, depthAtEnd_nil]

/-- In plain text no comma separates. -/
theorem unbroken_of_plain {t : Text} (h : t.all isPlain = true) (depth : Nat) :
    Unbroken depth t := by
  rw [← unbroken_marks_iff, marks_of_plain h]
  exact unbroken_nil depth

/-- Plain text can stand in the place of any part. -/
theorem keepsCut_of_plain {t : Text} (h : t.all isPlain = true) (part : Text) : KeepsCut part t :=
  ⟨fun _ => unbroken_of_plain h 0, fun _ => depthAtEnd_of_plain h 0⟩

/-- A text with the same commas and brackets can stand in the place of a part. -/
theorem keepsCut_of_marks_eq {part result : Text} (h : marks result = marks part) :
    KeepsCut part result where
  unbroken hpart := by rwa [← unbroken_marks_iff, h, unbroken_marks_iff]
  depth hpart := by rwa [← depthAtEnd_marks, h, depthAtEnd_marks]

/-- To trim a text keeps its marks. -/
theorem marks_trim (t : Text) : marks t.trim = marks t := by
  obtain ⟨lead, trail, ht, hlead, htrail⟩ := t.exists_eq_trim
  have hwhole := congrArg marks ht
  rw [marks_append, marks_append, marks_of_plain (plain_of_blank hlead),
    marks_of_plain (plain_of_blank htrail), List.nil_append, List.append_nil] at hwhole
  exact hwhole.symm

/-- Trimmed parts are cut as before. -/
theorem keepsCut_trim (part : Text) : KeepsCut part part.trim :=
  keepsCut_of_marks_eq (marks_trim part)

/-- What relates parts one by one relates the texts that they make, if it is kept when texts are put
one behind the other. -/
theorem Text.join_related {R : Text → Text → Prop} (hrefl : ∀ t, R t t)
    (happend : ∀ {s s' t t'}, R s s' → R t t' → R (s ++ t) (s' ++ t')) (separator : Text)
    {parts results : List Text} (h : List.Forall₂ R parts results) :
    R (join separator parts) (join separator results) := by
  induction h with
  | nil => exact hrefl []
  | cons h hrest ih =>
    rcases hrest with _ | ⟨-, -⟩
    · rwa [join_singleton, join_singleton]
    · rw [join_cons_of_ne_nil _ _ (List.cons_ne_nil _ _),
        join_cons_of_ne_nil _ _ (List.cons_ne_nil _ _)]
      exact happend h (happend (hrefl separator) ih)

/-- A plain separator adds no commas and brackets. -/
theorem marks_join_of_plain {separator : Text} (h : separator.all isPlain = true)
    (parts : List Text) : marks (Text.join separator parts) = marks parts.flatten := by
  induction parts with
  | nil => rfl
  | cons part parts ih =>
    rcases parts with _ | ⟨next, parts⟩
    · rw [Text.join_singleton, List.flatten_singleton]
    · rw [Text.join_cons_of_ne_nil _ _ (List.cons_ne_nil next parts), marks_append, marks_append,
        marks_of_plain h, ih, List.nil_append, ← marks_append]
      rfl

/-! ### Parts behind other text -/

/-- The text in front fixes all parts but its last one, which the text behind it goes on with. -/
theorem exists_partsFrom_append (depth : Nat) (s : Text) :
    ∃ (parts : List Text) (part : Text), ∀ t, partsFrom depth (s ++ t) =
      parts ++ (partsFrom (depthAtEnd depth s) t).modifyHead (part ++ ·) := by
  induction s generalizing depth with
  | nil => exact ⟨[], [], fun t => (congrFun List.modifyHead_id _).symm⟩
  | cons c s ih =>
    by_cases hcut : c = ',' ∧ depth = 0
    · obtain ⟨rfl, rfl⟩ := hcut
      obtain ⟨parts, part, h⟩ := ih 0
      refine ⟨[] :: parts, part, fun t => ?_⟩
      rw [List.cons_append, partsFrom, if_pos ⟨rfl, rfl⟩, h]
      rfl
    · obtain ⟨parts, part, h⟩ := ih (depthAfter depth c)
      rcases parts with _ | ⟨first, parts⟩
      · refine ⟨[], c :: part, fun t => ?_⟩
        rw [List.cons_append, partsFrom, if_neg hcut, h, List.nil_append,
          List.modifyHead_modifyHead]
        rfl
      · refine ⟨(c :: first) :: parts, part, fun t => ?_⟩
        rw [List.cons_append, partsFrom, if_neg hcut, h]
        rfl

/-! ### Well bracketed parts -/

/-- A plain character leaves the brackets that are due as they are. -/
theorem dueAfter_of_isPlain {c : Char} (h : isPlain c = true) (due : List Char) :
    dueAfter due c = some due := by
  simp only [isPlain, Bool.and_eq_true, Bool.not_eq_true'] at h
  rcases opener_cases c with hc | ⟨hcloser, -⟩
  · rcases hc with rfl | rfl | rfl | rfl <;> exact absurd h.1.2 (by decide)
  · simp [dueAfter, hcloser, h.2]

/-- Whether a text is well bracketed is seen from its marks. -/
theorem wellBracketed_marks_iff {t : Text} : WellBracketed (marks t) ↔ WellBracketed t := by
  unfold WellBracketed
  rw [foldlM_marks fun due c hc => dueAfter_of_isPlain hc due]

/-- Plain text is well bracketed. -/
theorem WellBracketed.of_plain {t : Text} (h : t.all isPlain = true) : WellBracketed t := by
  rw [← wellBracketed_marks_iff, marks_of_plain h]
  rfl

/-- Two well bracketed texts in a row are well bracketed. -/
theorem WellBracketed.append {s t : Text} (hs : WellBracketed s) (ht : WellBracketed t) :
    WellBracketed (s ++ t) := by
  unfold WellBracketed at *
  rw [List.foldlM_append, hs]
  exact ht

/-- The one depth counts the brackets that are due. -/
theorem depthAtEnd_of_foldlM {t : Text} {due due' : List Char}
    (h : t.foldlM dueAfter due = some due') : depthAtEnd due.length t = due'.length := by
  induction t generalizing due with
  | nil =>
    cases h
    rfl
  | cons c t ih =>
    obtain ⟨next, hnext, h⟩ := Option.bind_eq_some_iff.mp h
    have hdepth := (Bracket.depth_after (Bracket.after_of_dueAfter hnext)).2
    rw [List.length_map, List.length_map] at hdepth
    rw [depthAtEnd_cons, hdepth, ih h]

/-- Behind a well bracketed text the depth is zero again. -/
theorem WellBracketed.depthAtEnd {t : Text} (h : WellBracketed t) : depthAtEnd 0 t = 0 :=
  depthAtEnd_of_foldlM h

/-- Parts that are well bracketed make a well bracketed list. -/
theorem wellBracketed_join {parts : List Text} (h : ∀ part ∈ parts, WellBracketed part) :
    WellBracketed (Text.join [','] parts) := by
  induction parts with
  | nil => exact .of_plain rfl
  | cons part parts ih =>
    obtain ⟨hpart, hparts⟩ := List.forall_mem_cons.mp h
    rcases parts with _ | ⟨next, parts⟩
    · rw [Text.join_singleton]
      exact hpart
    · have hcomma : WellBracketed [','] := by decide
      rw [Text.join_cons_of_ne_nil _ _ (List.cons_ne_nil next parts)]
      exact hpart.append (hcomma.append (ih hparts))

/-- Parts that are well bracketed and hold no comma outside their brackets are read back from the
list that they make. -/
theorem topLevelParts_join {parts : List Text} (hne : parts ≠ [])
    (h : ∀ part ∈ parts, WellBracketed part ∧ Unbroken 0 part) :
    topLevelParts (Text.join [','] parts) = parts := by
  rw [← cutsInto_iff]
  apply cutsInto_join hne
  · intro part hpart
    exact (h part hpart).2
  · intro part hpart
    exact (h part (List.dropLast_subset parts hpart)).1.depthAtEnd

end ExplicitInstantiation
