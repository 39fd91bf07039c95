import Mathlib.Data.List.Induction
import Mathlib.Data.List.Nodup
import Mathlib.Logic.Relation
import ExplicitInstantiation.Proofs.Constant.Expansion

/-!
# When a substitution is final

Constants may be defined through one another. They are replaced once each, in the order of
`longestFirst`, so a reference to a constant whose turn is over stays in the text.

* **The names that are left** (`mem_runWords_substitute_iff`). The substitution comes to the
  constants named in the text and to those named in the value of one that it came to, if they have
  a later turn (`Constants.Meets`). A name is left exactly if a constant that was met refers to it
  and its own turn was not later.
* **Fixed points** (`substitute_substitute_eq_iff`). If no constant is defined through itself, a
  second substitution changes nothing exactly if the first one has left no name: of the constants
  that are left, one is not referred to by way of the others, and its name would not come back.
* **A short name for a longer one** is the obstacle (`substitute_shortAlias_not_final`): the longer
  one has its turn first.

The invariant tells the names in the text after some of the turns
(`mem_runWords_applyAll_iff`); a turn exchanges whole runs, since no run holds a name that it is
not, save the names that still have their turn (`Intact`).
-/

namespace ExplicitInstantiation

namespace Constants

/-! ### References -/

/-- Whether a constant refers to another one: the name of that one is a run of its value. -/
def Refers (constants : Constants) (constant other : Constant) : Prop :=
  constant ∈ constants.entries ∧ other ∈ constants.entries ∧ other.name ∈ constant.value.runWords

/-- Whether no constant is defined through itself, directly or by way of others. -/
def Acyclic (constants : Constants) : Prop :=
  ∀ constant, ¬ Relation.TransGen constants.Refers constant constant

/-- Whether a constant has its turn before another one. -/
def Precedes (constants : Constants) (constant other : Constant) : Prop :=
  [constant, other].Sublist constants.longestFirst

/-- Constants whose names are words: they are identifiers, and in a value they stand inside no
longer run. -/
structure NamedByWords (constants : Constants) : Prop where
  /-- The names are identifiers. -/
  identifiers : ∀ constant ∈ constants.entries, constant.name.IsIdentifier
  /-- A name that stands in a run of a value is all of it. -/
  values : ∀ constant ∈ constants.entries, ∀ word ∈ constant.value.runWords,
    ∀ name ∈ constants.names, name <:+: word → name = word

/-- The constants that a substitution comes to: those named in the text, and those named in the
value of one that it came to, if they have a later turn. -/
inductive Meets (constants : Constants) (t : Text) : Constant → Prop where
  /-- The name stands in the text. -/
  | here {constant : Constant} (hmem : constant ∈ constants.entries)
    (hword : constant.name ∈ t.runWords) : Meets constants t constant
  /-- The name is brought in before its turn. -/
  | later {constant other : Constant} (hmeets : Meets constants t constant)
    (hrefers : constants.Refers constant other) (hprecedes : constants.Precedes constant other) :
    Meets constants t other

variable {constants : Constants} {t : Text}

/-- A constant that is met is referred to, by way of others, by one that is named in the text. -/
theorem Meets.exists_named {constant : Constant} (h : constants.Meets t constant) :
    ∃ first ∈ constants.entries, first.name ∈ t.runWords ∧
      Relation.ReflTransGen constants.Refers first constant := by
  induction h with
  | here hmem hword => exact ⟨_, hmem, hword, .refl⟩
  | later _ hrefers _ ih =>
    obtain ⟨first, hmem, hword, hpath⟩ := ih
    exact ⟨first, hmem, hword, hpath.tail hrefers⟩

/-- References that always lower some rank do not come back. -/
theorem acyclic_of_rank (rank : Constant → Nat)
    (h : ∀ constant ∈ constants.entries, ∀ other ∈ constants.entries,
      other.name ∈ constant.value.runWords → rank other < rank constant) : constants.Acyclic := by
  intro constant hcycle
  have hlower : ∀ {first last : Constant}, Relation.TransGen constants.Refers first last →
      rank last < rank first := by
    intro first last hpath
    induction hpath with
    | single hrefers => exact h _ hrefers.1 _ hrefers.2.1 hrefers.2.2
    | tail _ hrefers ih => exact Nat.lt_trans (h _ hrefers.1 _ hrefers.2.1 hrefers.2.2) ih
  exact Nat.lt_irrefl _ (hlower hcycle)

/-- Of finitely many constants that are not defined through themselves, one is not referred to by
way of the others. -/
theorem Acyclic.exists_source (h : constants.Acyclic) {list : List Constant} (hlist : list ≠ []) :
    ∃ source ∈ list, ∀ other ∈ list, ¬ Relation.TransGen constants.Refers other source := by
  induction list with
  | nil => exact absurd rfl hlist
  | cons first list ih =>
    by_cases hnil : list = []
    · subst hnil
      exact ⟨first, List.mem_cons_self, List.forall_mem_singleton.mpr (h first)⟩
    · obtain ⟨source, hsource, hnone⟩ := ih hnil
      by_cases hfirst : Relation.TransGen constants.Refers first source
      · refine ⟨first, List.mem_cons_self, List.forall_mem_cons.mpr ⟨h first, ?_⟩⟩
        intro other hother hpath
        exact hnone other hother (hpath.trans hfirst)
      · exact ⟨source, List.mem_cons_of_mem first hsource, List.forall_mem_cons.mpr ⟨hfirst, hnone⟩⟩

/-! ### Turns -/

section

variable (hnodup : constants.names.Nodup) {earlier later : List Constant} {constant : Constant}
  (horder : constants.longestFirst = earlier ++ constant :: later)

include horder

/-- What is substituted at a turn is one of the constants. -/
theorem mem_entries_of_order : constant ∈ constants.entries := by
  rw [← (perm_longestFirst constants).mem_iff, horder]
  simp

include hnodup

/-- A constant has one turn: its name is that of no constant with an earlier or a later one. -/
theorem ne_of_order {other : Constant} (hother : other ∈ earlier ∨ other ∈ later) :
    other.name ≠ constant.name := by
  have hnames := nodup_map_name_longestFirst hnodup
  rw [horder, List.map_append, List.map_cons, List.nodup_middle, List.nodup_cons] at hnames
  intro heq
  apply hnames.1
  rw [← heq, ← List.map_append]
  exact List.mem_map_of_mem (List.mem_append.mpr hother)

/-- The constants with a later turn are those behind. -/
theorem precedes_left_iff {other : Constant} :
    constants.Precedes constant other ↔ other ∈ later := by
  constructor
  · exact mem_later_of_sublist hnodup horder
  · intro h
    unfold Precedes
    rw [horder]
    exact (List.cons_sublist_cons.mpr (List.singleton_sublist.mpr h)).trans
      (List.sublist_append_right earlier _)

/-- The constants with an earlier turn are those in front. -/
theorem precedes_right_iff {other : Constant} :
    constants.Precedes other constant ↔ other ∈ earlier := by
  constructor
  · intro h
    have hmem : other ∈ earlier ++ constant :: later := horder ▸ h.subset List.mem_cons_self
    rcases List.mem_append.mp hmem with hearlier | hlater
    · exact hearlier
    · -- From its turn on, `constant` would have to come once more.
      obtain ⟨front, back, hcut⟩ := List.append_of_mem hlater
      have horder' : constants.longestFirst = (earlier ++ front) ++ other :: back := by
        rw [horder, hcut, List.append_assoc]
      have hback : constant ∈ back := mem_later_of_sublist hnodup horder' h
      have hlast : constant ∈ later := by
        cases front with
        | nil =>
          obtain ⟨rfl, rfl⟩ := List.cons.inj hcut
          exact hback
        | cons first front =>
          obtain ⟨-, rfl⟩ := List.cons.inj hcut
          simp [hback]
      exact absurd rfl (ne_of_order hnodup horder (.inr hlast))
  · intro h
    unfold Precedes
    rw [horder]
    exact (List.singleton_sublist.mpr h).append (List.singleton_sublist.mpr List.mem_cons_self)

end

/-! ### The text after some of the turns -/

/-- Whether a word is the name of a constant whose turn is still to come, or holds no name that it
is not. -/
def Intact (constants : Constants) (later : List Constant) (word : Text) : Prop :=
  (∃ constant ∈ later, constant.name = word) ∨
    ∀ name ∈ constants.names, name <:+: word → name = word

/-- The name whose turn it is stands in no other word. -/
theorem Intact.not_infix {earlier later : List Constant} {constant : Constant} {word : Text}
    (h : constants.Intact (constant :: later) word) (hnodup : constants.names.Nodup)
    (horder : constants.longestFirst = earlier ++ constant :: later) (hne : word ≠ constant.name) :
    ¬ constant.name <:+: word := by
  rcases h with ⟨other, hother, rfl⟩ | hwhole
  · rcases List.mem_cons.mp hother with rfl | hother
    · exact absurd rfl hne
    · have hsorted := pairwise_not_infix_longestFirst hnodup
      rw [horder, List.pairwise_append, List.pairwise_cons] at hsorted
      exact hsorted.2.1.1 other hother
  · intro hinside
    have hmem : constant.name ∈ constants.names :=
      List.mem_map_of_mem (mem_entries_of_order horder)
    exact hne (hwhole constant.name hmem hinside).symm

/-- The last constant is replaced last. -/
theorem applyAll_concat (order : List Constant) (constant : Constant) (t : Text) :
    applyAll (order ++ [constant]) t =
      (applyAll order t).replaceAll constant.name constant.value := by
  unfold applyAll
  rw [List.foldl_append]
  rfl

section

variable (hnodup : constants.names.Nodup) (hnames : constants.NamedByWords)

include hnodup hnames

/-- What a turn does to the runs of a text. -/
theorem mem_runWords_turn {earlier later : List Constant} {constant : Constant}
    (horder : constants.longestFirst = earlier ++ constant :: later)
    (hintact : ∀ word ∈ (applyAll earlier t).runWords, constants.Intact (constant :: later) word)
    {word : Text} :
    word ∈ (applyAll (earlier ++ [constant]) t).runWords ↔
      (word ∈ (applyAll earlier t).runWords ∧ word ≠ constant.name) ∨
        (constant.name ∈ (applyAll earlier t).runWords ∧ word ∈ constant.value.runWords) := by
  rw [applyAll_concat]
  refine Text.mem_runWords_replaceAll ?_ ?_ constant.value
  · exact hnames.identifiers constant (mem_entries_of_order horder)
  · intro word hword hne
    exact Intact.not_infix (hintact word hword) hnodup horder hne

/-- All along, the runs of the text are names that still have their turn, or hold no name that they
are not. -/
theorem intact_applyAll (ht : constants.WholeNames t) {earlier later : List Constant}
    (horder : constants.longestFirst = earlier ++ later) :
    ∀ word ∈ (applyAll earlier t).runWords, constants.Intact later word := by
  induction earlier using List.reverseRecOn generalizing later with
  | nil =>
    intro word hword
    rw [List.nil_append] at horder
    rcases ht word hword with hname | hnone
    · obtain ⟨constant, hmem, rfl⟩ := List.mem_map.mp hname
      refine .inl ⟨constant, ?_, rfl⟩
      rw [← horder]
      exact (perm_longestFirst constants).mem_iff.mpr hmem
    · exact .inr fun name hname hinside => absurd hinside (hnone name hname)
  | append_singleton earlier constant ih =>
    rw [List.append_assoc] at horder
    intro word hword
    rcases (mem_runWords_turn hnodup hnames horder (ih horder)).mp hword with
      ⟨hword, hne⟩ | ⟨-, hword⟩
    · refine (ih horder word hword).imp_left fun ⟨other, hother, hname⟩ => ?_
      rcases List.mem_cons.mp hother with rfl | hother
      · exact absurd hname.symm hne
      · exact ⟨other, hother, hname⟩
    · exact .inr (hnames.values constant (mem_entries_of_order horder) word hword)

/-- The names that stand in the text after some of the turns: those of the text itself that still
have their turn, and those that were brought in and did not have a turn since. -/
theorem mem_runWords_applyAll_iff (ht : constants.WholeNames t) {earlier later : List Constant}
    (horder : constants.longestFirst = earlier ++ later) {other : Constant}
    (hother : other ∈ constants.entries) :
    other.name ∈ (applyAll earlier t).runWords ↔
      (other ∈ later ∧ other.name ∈ t.runWords) ∨
        ∃ constant ∈ earlier, constants.Meets t constant ∧ constants.Refers constant other ∧
          (constants.Precedes constant other → other ∈ later) := by
  -- The induction is on the turns that are over, from the first to the last.
  induction earlier using List.reverseRecOn generalizing later other with
  | nil =>
    rw [List.nil_append] at horder
    rw [← horder, (perm_longestFirst constants).mem_iff]
    simp [applyAll, hother]
  | append_singleton earlier constant ih =>
    rw [List.append_assoc, List.singleton_append] at horder
    have hconstant := mem_entries_of_order horder
    have hname : other.name = constant.name ↔ other = constant :=
      ⟨List.inj_on_of_nodup_map hnodup hother hconstant, congrArg Constant.name⟩
    have hlater : other ∈ constant :: later → other ≠ constant → other ∈ later :=
      fun hmem hne => (List.mem_cons.mp hmem).resolve_left hne
    have hmeets : constant.name ∈ (applyAll earlier t).runWords ↔ constants.Meets t constant := by
      rw [ih horder hconstant]
      constructor
      · rintro (⟨-, hword⟩ | ⟨before, hbefore, hmeets, hrefers, -⟩)
        · exact .here hconstant hword
        · exact .later hmeets hrefers ((precedes_right_iff hnodup horder).mpr hbefore)
      · intro hmeets
        cases hmeets with
        | here _ hword => exact .inl ⟨List.mem_cons_self, hword⟩
        | later hmeets hrefers hprecedes =>
          exact .inr ⟨_, (precedes_right_iff hnodup horder).mp hprecedes, hmeets, hrefers,
            fun _ => List.mem_cons_self⟩
    rw [mem_runWords_turn hnodup hnames horder (intact_applyAll hnodup hnames ht horder), hmeets,
      ih horder hother]
    constructor
    · rintro (⟨⟨hmem, hword⟩ | ⟨before, hbefore, hmet, hrefers, hturn⟩, hne⟩ | ⟨hmet, hword⟩)
      · exact .inl ⟨hlater hmem (mt hname.mpr hne), hword⟩
      · refine .inr ⟨before, List.mem_append_left _ hbefore, hmet, hrefers, fun hprecedes => ?_⟩
        exact hlater (hturn hprecedes) (mt hname.mpr hne)
      · refine .inr ⟨constant, by simp, hmet, ⟨hconstant, hother, hword⟩, ?_⟩
        exact (precedes_left_iff hnodup horder).mp
    · rintro (⟨hmem, hword⟩ | ⟨before, hbefore, hmet, hrefers, hturn⟩)
      · exact .inl ⟨.inl ⟨List.mem_cons_of_mem _ hmem, hword⟩,
          ne_of_order hnodup horder (.inr hmem)⟩
      · rcases List.mem_append.mp hbefore with hfront | hlast
        · refine .inl ⟨.inr ⟨before, hfront, hmet, hrefers, fun hprecedes => ?_⟩, fun heq => ?_⟩
          · exact List.mem_cons_of_mem _ (hturn hprecedes)
          · rw [hname.mp heq] at hturn
            have hagain := hturn ((precedes_right_iff hnodup horder).mpr hfront)
            exact ne_of_order hnodup horder (.inr hagain) rfl
        · obtain rfl := List.mem_singleton.mp hlast
          exact .inr ⟨hmet, hrefers.2.2⟩

end

/-! ### What is left -/

/-- Names that stand in no run are not replaced. -/
theorem applyAll_of_not_infix {order : List Constant}
    (horder : ∀ constant ∈ order, constant.name.IsIdentifier)
    (ht : ∀ word ∈ t.runWords, ∀ constant ∈ order, ¬ constant.name <:+: word) :
    applyAll order t = t := by
  induction order with
  | nil => rfl
  | cons constant order ih =>
    rw [List.forall_mem_cons] at horder
    have hfirst : t.replaceAll constant.name constant.value = t :=
      Text.replaceAll_of_not_infix_runWords horder.1
        (fun word hword => ht word hword constant List.mem_cons_self) constant.value
    rw [applyAll_cons, hfirst]
    exact ih horder.2 fun word hword other hother =>
      ht word hword other (List.mem_cons_of_mem constant hother)

section

variable (hnodup : constants.names.Nodup) (hnames : constants.NamedByWords)
  (ht : constants.WholeNames t)

include hnodup hnames ht

/-- **The names that are left** by a substitution are those that a constant it came to refers to,
and whose turn was not later than the turn of that constant. -/
theorem mem_runWords_substitute_iff {other : Constant} (hother : other ∈ constants.entries) :
    other.name ∈ (constants.substitute t).runWords ↔
      ∃ constant, constants.Meets t constant ∧ constants.Refers constant other ∧
        ¬ constants.Precedes constant other := by
  rw [substitute_eq_applyAll, mem_runWords_applyAll_iff hnodup hnames ht
    (List.append_nil constants.longestFirst).symm hother]
  constructor
  · rintro (⟨hmem, -⟩ | ⟨constant, -, hmeets, hrefers, hturn⟩)
    · cases hmem
    · exact ⟨constant, hmeets, hrefers, fun hprecedes => by cases hturn hprecedes⟩
  · rintro ⟨constant, hmeets, hrefers, hturn⟩
    refine .inr ⟨constant, ?_, hmeets, hrefers, fun hprecedes => absurd hprecedes hturn⟩
    exact (perm_longestFirst constants).mem_iff.mpr hrefers.1

/-- In a substituted text no run holds a name that it is not. -/
theorem eq_of_infix_runWords_substitute {word name : Text}
    (hword : word ∈ (constants.substitute t).runWords) (hname : name ∈ constants.names)
    (hinside : name <:+: word) : name = word := by
  have hintact := intact_applyAll hnodup hnames ht (List.append_nil constants.longestFirst).symm
    word hword
  rcases hintact with ⟨_, hmem, -⟩ | hwhole
  · cases hmem
  · exact hwhole name hname hinside

/-- After a substitution, too, names stand as whole words only. -/
theorem wholeNames_substitute : constants.WholeNames (constants.substitute t) := by
  intro word hword
  by_cases hname : word ∈ constants.names
  · exact .inl hname
  · refine .inr fun name hmem hinside => hname ?_
    rwa [← eq_of_infix_runWords_substitute hnodup hnames ht hword hmem hinside]

/-- A second substitution finds nothing to do if the first one has left no name. -/
theorem substitute_substitute_of_forall
    (hnone : ∀ name ∈ constants.names, name ∉ (constants.substitute t).runWords) :
    constants.substitute (constants.substitute t) = constants.substitute t := by
  rw [substitute_eq_applyAll constants (constants.substitute t)]
  refine applyAll_of_not_infix ?_ ?_
  · intro constant hconstant
    exact hnames.identifiers constant ((perm_longestFirst constants).mem_iff.mp hconstant)
  · intro word hword constant hconstant hinside
    have hmem : constant.name ∈ constants.names :=
      List.mem_map_of_mem ((perm_longestFirst constants).mem_iff.mp hconstant)
    apply hnone constant.name hmem
    rwa [eq_of_infix_runWords_substitute hnodup hnames ht hword hmem hinside]

/-- If a second substitution changes nothing, the first one has left no name: that of a constant to
which the others that are left do not lead would be gone. -/
theorem not_mem_of_substitute_substitute (hacyclic : constants.Acyclic)
    (hfixed : constants.substitute (constants.substitute t) = constants.substitute t) :
    ∀ name ∈ constants.names, name ∉ (constants.substitute t).runWords := by
  intro name hname hword
  obtain ⟨left, hleft, rfl⟩ := List.mem_map.mp hname
  let remaining := constants.entries.filter (·.name ∈ (constants.substitute t).runWords)
  have hremaining {constant : Constant} : constant ∈ remaining ↔
      constant ∈ constants.entries ∧ constant.name ∈ (constants.substitute t).runWords := by
    simp [remaining]
  have hne : remaining ≠ [] := List.ne_nil_of_mem (hremaining.mpr ⟨hleft, hword⟩)
  obtain ⟨source, hsource, hnone⟩ := hacyclic.exists_source hne
  obtain ⟨hmem, hagain⟩ := hremaining.mp hsource
  rw [← hfixed, mem_runWords_substitute_iff hnodup hnames
    (wholeNames_substitute hnodup hnames ht) hmem] at hagain
  obtain ⟨constant, hmeets, hrefers, -⟩ := hagain
  obtain ⟨first, hfirst, hnamed, hpath⟩ := hmeets.exists_named
  exact hnone first (hremaining.mpr ⟨hfirst, hnamed⟩) (.tail' hpath hrefers)

end

/-- **A substitution is final exactly if it leaves no name.** Where no constant is defined through
itself and names are words, substituting once more changes nothing if and only if no name is left;
and no name is left if and only if every constant that the substitution comes to refers only to
constants that have their turn after it. -/
theorem substitute_substitute_eq_iff (definitions : List Constant)
    (hnames : (ofList definitions).NamedByWords) (hacyclic : (ofList definitions).Acyclic)
    {raw : Text} (hraw : (ofList definitions).WholeNames raw) :
    ((ofList definitions).substitute ((ofList definitions).substitute raw) =
          (ofList definitions).substitute raw ↔
        ∀ name ∈ (ofList definitions).names,
          name ∉ ((ofList definitions).substitute raw).runWords) ∧
      ((∀ name ∈ (ofList definitions).names,
          name ∉ ((ofList definitions).substitute raw).runWords) ↔
        ∀ constant other, (ofList definitions).Meets raw constant →
          (ofList definitions).Refers constant other →
          (ofList definitions).Precedes constant other) := by
  have hnodup := nodup_names_ofList definitions
  constructor
  · constructor
    · exact not_mem_of_substitute_substitute hnodup hnames hraw hacyclic
    · exact substitute_substitute_of_forall hnodup hnames hraw
  · constructor
    · intro hnone constant other hmeets hrefers
      by_contra hturn
      apply hnone other.name (List.mem_map_of_mem hrefers.2.1)
      rw [mem_runWords_substitute_iff hnodup hnames hraw hrefers.2.1]
      exact ⟨constant, hmeets, hrefers, hturn⟩
    · intro hforward name hname hword
      obtain ⟨other, hother, rfl⟩ := List.mem_map.mp hname
      rw [mem_runWords_substitute_iff hnodup hnames hraw hother] at hword
      obtain ⟨constant, hmeets, hrefers, hturn⟩ := hword
      exact hturn (hforward constant other hmeets hrefers)

/-- A short name for a constant with a longer one. -/
def shortAlias : List Constant :=
  [⟨"A".toList, "LIMIT".toList⟩, ⟨"LIMIT".toList, "3".toList⟩]

/-- The longer name comes first, though it was defined last. -/
theorem longestFirst_shortAlias : (ofList shortAlias).longestFirst = shortAlias.reverse :=
  longestFirst_pair _ _

/-- The two names are words. -/
theorem namedByWords_shortAlias : (ofList shortAlias).NamedByWords :=
  ⟨by decide +kernel, by decide +kernel⟩

/-- No value leads back to the name that it belongs to. -/
theorem acyclic_shortAlias : (ofList shortAlias).Acyclic :=
  acyclic_of_rank (fun constant => constant.value.length) (by decide +kernel)

/-- The longer name is replaced by its value. -/
theorem substitute_shortAlias_limit :
    (ofList shortAlias).substitute "LIMIT*2".toList = "3*2".toList := by
  rw [substitute, longestFirst_shortAlias]
  decide +kernel

/-- Where the longer name stands in the text, nothing is left of it, and the short name, which would
bring it in again, is not met. -/
theorem substitute_substitute_shortAlias_limit :
    (ofList shortAlias).NamedByWords ∧ (ofList shortAlias).Acyclic ∧
      (ofList shortAlias).WholeNames "LIMIT*2".toList ∧
      (ofList shortAlias).substitute ((ofList shortAlias).substitute "LIMIT*2".toList) =
        "3*2".toList := by
  have hwhole : (ofList shortAlias).WholeNames "LIMIT*2".toList := by decide +kernel
  refine ⟨namedByWords_shortAlias, acyclic_shortAlias, hwhole, ?_⟩
  have hfinal := (substitute_substitute_eq_iff shortAlias namedByWords_shortAlias
    acyclic_shortAlias hwhole).1.mpr (by rw [substitute_shortAlias_limit]; decide +kernel)
  rw [hfinal, substitute_shortAlias_limit]

/-- Where the short name stands in the text, it leaves the longer one, which has had its turn: the
first substitution is not final. -/
theorem substitute_shortAlias_not_final :
    (ofList shortAlias).NamedByWords ∧ (ofList shortAlias).Acyclic ∧
      (ofList shortAlias).WholeNames "A".toList ∧
      (ofList shortAlias).substitute "A".toList = "LIMIT".toList ∧
      (ofList shortAlias).substitute ((ofList shortAlias).substitute "A".toList) = "3".toList := by
  refine ⟨namedByWords_shortAlias, acyclic_shortAlias, by decide +kernel, ?_, ?_⟩ <;>
  · simp only [substitute, longestFirst_shortAlias]
    decide +kernel

end Constants

end ExplicitInstantiation
