import Mathlib.Data.List.Infix
import ExplicitInstantiation.Proofs.Constant.Table
import ExplicitInstantiation.Proofs.Text.Replace

/-!
# Substitution and expansion

Constants are substituted by replacing the characters of their names, one constant after the other,
in a text that earlier replacements have changed. What is meant is an expansion of words
(`Constants.Expands`): a run of identifier characters that is a name becomes the expansion of its
value, and all else is kept.

The two agree where names stand as whole words and refer to names that come later
(`Constants.Expandable`, `expands_iff_eq_substitute`). The invariant of the substitution is that
every run of the text is the name of a constant whose turn is still to come or holds no name at all
(`AwaitsOnly`). A replacement keeps it: it does not touch other words, since none of the names left
is longer (`Awaits.not_infix`), and the names it brings in come later
(`Expandable.awaitsOnly_value`). It does not join runs either, because a text can be cut at the end
of a run before and after it (`applyAll_append`).
-/

namespace ExplicitInstantiation

namespace Constants

/-! ### Expansion -/

/-- The expansion of a text: every run that is a name is replaced by the expansion of its value, and
everything else is kept. -/
inductive Expands (constants : Constants) : Text → Text → Prop where
  /-- Nothing is left. -/
  | nil : Expands constants [] []
  /-- A character that belongs to no run is kept. -/
  | plain {c : Char} {rest result : Text} (hc : isIdentifierChar c = false)
    (hrest : Expands constants rest result) : Expands constants (c :: rest) (c :: result)
  /-- A run that is no name is kept. -/
  | word {t word rest result : Text} (hrun : t.StartsRun word rest)
    (hword : constants.get? word = none) (hrest : Expands constants rest result) :
    Expands constants t (word ++ result)
  /-- A run that is a name is replaced. -/
  | name {t name rest value expansion result : Text} (hrun : t.StartsRun name rest)
    (hname : constants.get? name = some value) (hvalue : Expands constants value expansion)
    (hrest : Expands constants rest result) : Expands constants t (expansion ++ result)

variable {constants : Constants}

/-- A text has one expansion at most. -/
theorem Expands.unique {t result result' : Text} (h : constants.Expands t result)
    (h' : constants.Expands t result') : result = result' := by
  induction h generalizing result' with
  | nil =>
    cases h' with
    | nil => rfl
    | word hrun => exact absurd rfl hrun.ne_nil
    | name hrun => exact absurd rfl hrun.ne_nil
  | plain hc hrest ih =>
    cases h' with
    | plain _ hrest' => rw [ih hrest']
    | word hrun => simp [hrun.isIdentifierChar_head] at hc
    | name hrun => simp [hrun.isIdentifierChar_head] at hc
  | word hrun hword hrest ih =>
    cases h' with
    | nil => exact absurd rfl hrun.ne_nil
    | plain hc => simp [hrun.isIdentifierChar_head] at hc
    | word hrun' _ hrest' =>
      obtain ⟨rfl, rfl⟩ := hrun.unique hrun'
      rw [ih hrest']
    | name hrun' hname' =>
      obtain ⟨rfl, rfl⟩ := hrun.unique hrun'
      rw [hword] at hname'
      cases hname'
  | name hrun hname hvalue hrest ihvalue ihrest =>
    cases h' with
    | nil => exact absurd rfl hrun.ne_nil
    | plain hc => simp [hrun.isIdentifierChar_head] at hc
    | word hrun' hword' =>
      obtain ⟨rfl, rfl⟩ := hrun.unique hrun'
      rw [hname] at hword'
      cases hword'
    | name hrun' hname' hvalue' hrest' =>
      obtain ⟨rfl, rfl⟩ := hrun.unique hrun'
      rw [hname] at hname'
      cases hname'
      rw [ihvalue hvalue', ihrest hrest']

/-- At the end of a run a text can be cut and its pieces expanded one by one. -/
theorem Expands.append {s t result result' : Text} (h : constants.Expands s result)
    (h' : constants.Expands t result') (ht : t.head?.any isIdentifierChar = false) :
    constants.Expands (s ++ t) (result ++ result') := by
  induction h with
  | nil => exact h'
  | plain hc _ ih => exact .plain hc ih
  | word hrun hword _ ih =>
    rw [List.append_assoc]
    exact .word (hrun.append ht) hword ih
  | name hrun hname hvalue _ _ ih =>
    rw [List.append_assoc]
    exact .name (hrun.append ht) hname hvalue ih

/-- A text without names is its own expansion. -/
theorem expands_self {t : Text} (h : ∀ word ∈ t.runWords, word ∉ constants.names) :
    constants.Expands t t := by
  induction t using Text.runInduction with
  | nil => exact .nil
  | plain c rest hc ih =>
    rw [Text.runWords_cons_of_not hc] at h
    exact .plain hc (ih h)
  | run t word rest hrun ih =>
    rw [hrun.runWords_eq, List.forall_mem_cons] at h
    have hword := Expands.word hrun (get?_of_not_mem h.1) (ih h.2)
    rwa [← hrun.text_eq] at hword

/-! ### Replacing constants in turn -/

/-- Replaces constants in the given order. -/
def applyAll (order : List Constant) (t : Text) : Text :=
  order.foldl (fun t constant => t.replaceAll constant.name constant.value) t

/-- To substitute the constants is to replace them with the longest names first. -/
theorem substitute_eq_applyAll (constants : Constants) (t : Text) :
    constants.substitute t = applyAll constants.longestFirst t := rfl

/-- The first constant is replaced first. -/
theorem applyAll_cons (constant : Constant) (order : List Constant) (t : Text) :
    applyAll (constant :: order) t =
      applyAll order (t.replaceAll constant.name constant.value) := rfl

section

variable {order : List Constant} (horder : ∀ constant ∈ order, constant.name.IsIdentifier)

include horder

/-- A character that belongs to no name stays in front. -/
theorem applyAll_cons_of_not {c : Char} (hc : isIdentifierChar c = false) (rest : Text) :
    applyAll order (c :: rest) = c :: applyAll order rest := by
  induction order generalizing rest with
  | nil => rfl
  | cons constant order ih =>
    rw [List.forall_mem_cons] at horder
    rw [applyAll_cons, Text.replaceAll_cons_of_not horder.1 hc, ih horder.2, ← applyAll_cons]

/-- At the end of a run a text can be cut and the constants replaced in its pieces. -/
theorem applyAll_append {t : Text} (ht : t.head?.any isIdentifierChar = false) (s : Text) :
    applyAll order (s ++ t) = applyAll order s ++ applyAll order t := by
  induction order generalizing s t with
  | nil => rfl
  | cons constant order ih =>
    rw [List.forall_mem_cons] at horder
    rw [applyAll_cons, Text.replaceAll_append horder.1 ht,
      ih horder.2 (Text.head?_replaceAll horder.1 ht constant.value), ← applyAll_cons,
      ← applyAll_cons]

end

/-! ### Where the two agree -/

/-- Whether names stand in a text as whole words only: each of its runs is a name or holds none. -/
def WholeNames (constants : Constants) (t : Text) : Prop :=
  ∀ word ∈ t.runWords, word ∈ constants.names ∨ ∀ name ∈ constants.names, ¬ name <:+: word

instance (constants : Constants) (t : Text) : Decidable (constants.WholeNames t) :=
  inferInstanceAs (Decidable (∀ word ∈ t.runWords,
    word ∈ constants.names ∨ ∀ name ∈ constants.names, ¬ name <:+: word))

/-- Constants that can be expanded in a text by replacing them in turn. -/
structure Expandable (constants : Constants) (t : Text) : Prop where
  /-- The names are identifiers. -/
  identifiers : ∀ constant ∈ constants.entries, constant.name.IsIdentifier
  /-- Names stand in the text as whole words. -/
  text : constants.WholeNames t
  /-- Names stand in the values as whole words. -/
  values : ∀ constant ∈ constants.entries, constants.WholeNames constant.value
  /-- A value refers to names that come later in the order of the substitution. -/
  later : ∀ constant ∈ constants.entries, ∀ other ∈ constants.entries,
    other.name ∈ constant.value.runWords → [constant, other].Sublist constants.longestFirst

/-- Whether a word is the name of one of the constants that are left, or holds no name at all. -/
def Awaits (constants : Constants) (later : List Constant) (word : Text) : Prop :=
  (∃ constant ∈ later, constant.name = word) ∨ ∀ name ∈ constants.names, ¬ name <:+: word

/-- The invariant of the substitution: the text holds no other names than those of the constants
whose turn is still to come. -/
def AwaitsOnly (constants : Constants) (later : List Constant) (t : Text) : Prop :=
  ∀ word ∈ t.runWords, constants.Awaits later word

/-- Before the first replacement, every name is still to come. -/
theorem WholeNames.awaitsOnly {t : Text} (h : constants.WholeNames t) :
    constants.AwaitsOnly constants.longestFirst t := by
  intro word hword
  refine (h word hword).imp_left fun hname => ?_
  obtain ⟨constant, hmem, rfl⟩ := List.mem_map.mp hname
  exact ⟨constant, (perm_longestFirst constants).mem_iff.mpr hmem, rfl⟩

/-- A word that is not the next name is the name of a constant after it, or it holds none. -/
theorem Awaits.of_ne {later : List Constant} {constant : Constant} {word : Text}
    (h : constants.Awaits (constant :: later) word) (hne : word ≠ constant.name) :
    constants.Awaits later word := by
  refine h.imp_left fun ⟨other, hother, hname⟩ => ?_
  rcases List.mem_cons.mp hother with rfl | hother
  · exact absurd hname.symm hne
  · exact ⟨other, hother, hname⟩

/-- The next name does not stand inside a word that is a later name or holds none. -/
theorem Awaits.not_infix {earlier later : List Constant} {constant : Constant} {word : Text}
    (h : constants.Awaits later word) (hnodup : constants.names.Nodup)
    (horder : constants.longestFirst = earlier ++ constant :: later)
    (hconstant : constant ∈ constants.entries) : ¬ constant.name <:+: word := by
  rcases h with ⟨other, hother, rfl⟩ | hnone
  · have hsorted := pairwise_not_infix_longestFirst hnodup
    rw [horder, List.pairwise_append, List.pairwise_cons] at hsorted
    exact hsorted.2.1.1 other hother
  · exact hnone constant.name (List.mem_map_of_mem hconstant)

/-- What comes behind a constant in the order of the substitution is still to come when it is the
turn of that constant. -/
theorem mem_later_of_sublist (hnodup : constants.names.Nodup) {earlier later : List Constant}
    {constant other : Constant}
    (horder : constants.longestFirst = earlier ++ constant :: later)
    (h : [constant, other].Sublist constants.longestFirst) : other ∈ later := by
  have hnames := nodup_map_name_longestFirst hnodup
  rw [horder] at h hnames
  clear horder
  induction earlier with
  | nil =>
    rw [List.nil_append, List.cons_sublist_cons] at h
    exact List.singleton_sublist.mp h
  | cons first earlier ih =>
    rw [List.cons_append, List.map_cons, List.nodup_cons] at hnames
    refine ih ?_ hnames.2
    cases h with
    | cons _ h => exact h
    | cons_cons => exact absurd (by simp) hnames.1

/-- The value of a constant brings in names that are still to come, and no others. -/
theorem Expandable.awaitsOnly_value {t : Text} (h : constants.Expandable t)
    (hnodup : constants.names.Nodup) {earlier later : List Constant} {constant : Constant}
    (horder : constants.longestFirst = earlier ++ constant :: later)
    (hconstant : constant ∈ constants.entries) :
    constants.AwaitsOnly later constant.value := by
  intro word hword
  refine (h.values constant hconstant word hword).imp_left fun hname => ?_
  obtain ⟨other, hother, rfl⟩ := List.mem_map.mp hname
  have hsublist := h.later constant hconstant other hother hword
  exact ⟨other, mem_later_of_sublist hnodup horder hsublist, rfl⟩

/-- Replacing the constants that are left expands a text in which no other names stand. -/
theorem expands_applyAll {t : Text} (h : constants.Expandable t) (hnodup : constants.names.Nodup)
    {earlier later : List Constant} (horder : constants.longestFirst = earlier ++ later) {s : Text}
    (hs : constants.AwaitsOnly later s) : constants.Expands s (applyAll later s) := by
  -- The outer induction is on the constants that are left, the inner one on the runs of the text.
  induction later generalizing earlier s with
  | nil =>
    refine expands_self fun word hword hname => ?_
    rcases hs word hword with ⟨_, hmem, -⟩ | hnone
    · cases hmem
    · exact hnone word hname (List.infix_refl word)
  | cons constant later ih =>
    have hentries : ∀ other ∈ constant :: later, other ∈ constants.entries := by
      intro other hother
      rw [← (perm_longestFirst constants).mem_iff, horder]
      exact List.mem_append_right earlier hother
    have hconstant : constant ∈ constants.entries := hentries constant List.mem_cons_self
    have hidentifiers : ∀ other ∈ constant :: later, other.name.IsIdentifier :=
      fun other hother => h.identifiers other (hentries other hother)
    have hleft {u : Text} (hu : constants.AwaitsOnly later u) :
        constants.Expands u (applyAll later u) :=
      ih (horder.trans (List.append_cons earlier constant later)) hu
    induction s using Text.runInduction with
    | nil =>
      exact hleft (by simp [AwaitsOnly])
    | plain c rest hc ihrest =>
      rw [AwaitsOnly, Text.runWords_cons_of_not hc] at hs
      rw [applyAll_cons_of_not hidentifiers hc]
      exact .plain hc (ihrest hs)
    | run s word rest hrun ihrest =>
      rw [AwaitsOnly, hrun.runWords_eq, List.forall_mem_cons] at hs
      have hrest := ihrest hs.2
      have hcut : applyAll (constant :: later) s =
          applyAll (constant :: later) word ++ applyAll (constant :: later) rest := by
        rw [hrun.text_eq, applyAll_append hidentifiers hrun.ends]
      rw [hcut]
      by_cases hword : word = constant.name
      · -- It is the turn of this name.
        subst hword
        have hvalue := hleft (h.awaitsOnly_value hnodup horder hconstant)
        rw [applyAll_cons, Text.replaceAll_self hrun.isIdentifier.1]
        exact .name hrun (get?_of_mem hnodup hconstant) hvalue hrest
      · -- The run does not change, whether it is a name that comes later or holds none.
        have hkept : constants.Awaits later word := hs.1.of_ne hword
        have habsent : word.hasText constant.name = false := by
          rw [← Bool.not_eq_true, Text.hasText_iff]
          exact hkept.not_infix hnodup horder hconstant
        rw [applyAll_cons, Text.replaceAll_of_not_hasText _ habsent]
        have hexpands : constants.Expands word (applyAll later word) := by
          apply hleft
          rw [AwaitsOnly, hrun.isIdentifier.runWords_eq, List.forall_mem_singleton]
          exact hkept
        have hjoined := hexpands.append hrest hrun.ends
        rwa [← hrun.text_eq] at hjoined

/-- **Substitution expands words.** Where the names of constants stand as whole words, in a text and
in their values, and values refer to names that come later, replacing the constants in turn gives
the expansion of the text, and nothing else is one. -/
theorem expands_iff_eq_substitute (definitions : List Constant) {raw : Text}
    (h : (ofList definitions).Expandable raw) {result : Text} :
    (ofList definitions).Expands raw result ↔ result = (ofList definitions).substitute raw := by
  have hexpands : (ofList definitions).Expands raw ((ofList definitions).substitute raw) := by
    rw [substitute_eq_applyAll]
    exact expands_applyAll h (nodup_names_ofList definitions) (List.nil_append _).symm
      h.text.awaitsOnly
  constructor
  · intro hresult
    exact hresult.unique hexpands
  · rintro rfl
    exact hexpands

/-- A limit that is defined by a constant whose name is the beginning of its own. -/
def sampleLimits : List Constant :=
  [⟨"N".toList, "4".toList⟩, ⟨"NMAX".toList, "2*N".toList⟩]

/-- The longer name is replaced as a whole, the shorter one where it is a word and in the value that
the longer one has left. -/
theorem expands_sampleLimits :
    (ofList sampleLimits).Expandable "NMAX,x,N".toList ∧
      ∀ result, (ofList sampleLimits).Expands "NMAX,x,N".toList result ↔
        result = "2*4,x,4".toList := by
  have horder : (ofList sampleLimits).longestFirst = sampleLimits.reverse := longestFirst_pair _ _
  have hexpandable : (ofList sampleLimits).Expandable "NMAX,x,N".toList := by
    refine ⟨by decide, by decide +kernel, by decide +kernel, ?_⟩
    rw [horder]
    decide +kernel
  have hresult : (ofList sampleLimits).substitute "NMAX,x,N".toList = "2*4,x,4".toList := by
    rw [substitute, horder]
    decide +kernel
  refine ⟨hexpandable, fun result => ?_⟩
  rw [← hresult]
  exact expands_iff_eq_substitute sampleLimits hexpandable

end Constants

end ExplicitInstantiation
