import Mathlib.Data.List.Nodup
import Mathlib.Data.List.Pairwise
import ExplicitInstantiation.Proofs.TemplateClass
import ExplicitInstantiation.Proofs.Text.Runs
import ExplicitInstantiation.Site.Line

/-!
# The sites of a line

`lineSites` reads a line once: it cuts the line into runs of identifier characters and keeps those
that are the name of a class with an argument list behind it. The search goes through the line once
for every class, those with the longest names first, and leaves out what has been matched before.
`sitesOnLine_eq_lineSites` says that it comes to the same sites, and which of them is reported if
some pass too few arguments.

* **One class** (`searchClass_of_searched`, `searchClass_of_not_searched`). Runs do not overlap, so
  a run is taken only if its own word has been searched for. A class finds all runs of its name or,
  if the name was listed before, none.
* **All classes** (`foldlM_searchClass`). The search checks the sites in the order in which it comes
  to them, `searchedSites`, and keeps them in that order.
* **The order** (`pairwise_searchOrder`, `mergeSort_searchOrder`). The order of the search is that
  of `SearchedBefore`, and sorted by their columns the sites are those of the line.
-/

namespace ExplicitInstantiation

/-! ### Sites and their checks -/

/-- A site passes at least as many arguments as its class requires. -/
def Site.Suffices (site : Site) : Prop :=
  site.templateClass.required ≤ argumentCount site.arguments

instance (site : Site) : Decidable site.Suffices :=
  inferInstanceAs (Decidable (site.templateClass.required ≤ argumentCount site.arguments))

/-- The fault of a site that passes too few arguments. -/
def Site.tooFew (code : Text) (site : Site) : TooFewArguments :=
  ⟨site.templateClass, argumentCount site.arguments, site.location, code⟩

/-- The columns of a run. -/
def Text.Run.span (run : Text.Run) : Span :=
  ⟨run.column, run.column + run.word.length⟩

/-- Two spans overlap exactly if each one starts before the other ends. -/
theorem Span.overlaps_iff {a b : Span} :
    a.overlaps b = true ↔ a.first < b.stop ∧ b.first < a.stop := by
  simp [overlaps]

/-- A run that is not empty overlaps itself. -/
theorem Text.Run.overlaps_self {run : Text.Run} (h : run.word ≠ []) :
    run.span.overlaps run.span = true := by
  have hlength := List.length_pos_iff.mpr h
  simp only [Span.overlaps_iff, span]
  omega

/-- A run does not overlap one that starts behind it. -/
theorem Text.Run.overlaps_of_le {a b : Text.Run} (h : a.column + a.word.length ≤ b.column) :
    a.span.overlaps b.span = false := by
  simp only [Bool.eq_false_iff, ne_eq, Span.overlaps_iff, span]
  omega

/-- Different runs of a line do not overlap. -/
theorem Text.Run.overlaps_of_ne {code : Text} {a b : Text.Run} (ha : a ∈ code.identifierRuns)
    (hb : b ∈ code.identifierRuns) (h : a ≠ b) : a.span.overlaps b.span = false := by
  have hapart : code.identifierRuns.Pairwise fun a b => a.span.overlaps b.span = false :=
    (Text.pairwise_identifierRuns code).imp Text.Run.overlaps_of_le
  have : Std.Symm fun a b : Text.Run => a.span.overlaps b.span = false :=
    ⟨fun _ _ hab => (Bool.and_comm _ _).trans hab⟩
  exact hapart.forall ha hb h

/-- The site of a class at a place where its name stands, with its column. -/
def siteAt? (location : Location) (templateClass : TemplateClass) (place : Text.Occurrence) :
    Option (Nat × Site) :=
  (argumentList? place.rest).map fun captured =>
    (place.column, ⟨templateClass, normalizeArguments captured, location⟩)

/-- The site that a run stands for: it is the name of a class, and an argument list follows. The
class is the first one listed under that name. -/
def Text.Run.site? (classes : List TemplateClass) (location : Location) (run : Text.Run) :
    Option (Nat × Site) :=
  (classes.find? (·.name == run.word)).bind fun templateClass =>
    siteAt? location templateClass run.toOccurrence

/-- A site at a place has the column of the place, the class and the line. -/
theorem siteAt?_eq_some {location : Location} {templateClass : TemplateClass}
    {place : Text.Occurrence} {p : Nat × Site} (h : siteAt? location templateClass place = some p) :
    p.1 = place.column ∧ p.2.templateClass = templateClass ∧ p.2.location = location := by
  obtain ⟨captured, -, rfl⟩ := Option.map_eq_some_iff.mp h
  exact ⟨rfl, rfl, rfl⟩

/-- A run is a site of the first class that has its word for a name. -/
theorem Text.Run.site?_cons (templateClass : TemplateClass) (classes : List TemplateClass)
    (location : Location) (run : Text.Run) :
    run.site? (templateClass :: classes) location =
      if templateClass.name = run.word then siteAt? location templateClass run.toOccurrence
      else run.site? classes location := by
  rw [site?, List.find?_cons]
  split <;> simp_all [site?]

/-- A site of a run has its column and a class whose name is its word. -/
theorem Text.Run.site?_eq_some {classes : List TemplateClass} {location : Location}
    {run : Text.Run} {p : Nat × Site} (h : run.site? classes location = some p) :
    p.1 = run.column ∧ p.2.templateClass.name = run.word ∧ p.2.templateClass ∈ classes ∧
      p.2.location = location := by
  obtain ⟨templateClass, hfind, hsite⟩ := Option.bind_eq_some_iff.mp h
  obtain ⟨hcolumn, hclass, hlocation⟩ := siteAt?_eq_some hsite
  rw [hclass]
  exact ⟨hcolumn, by simpa using List.find?_some hfind, List.mem_of_find?_eq_some hfind, hlocation⟩

/-- The sites of a line with their columns, run by run. -/
def lineSites (classes : List TemplateClass) (code : Text) (location : Location) :
    List (Nat × Site) :=
  code.identifierRuns.filterMap (·.site? classes location)

/-- Checks sites in order, up to the first that passes too few arguments. -/
def checkSites (code : Text) : List (Nat × Site) → Except TooFewArguments Unit
  | [] => .ok ()
  | (_, site) :: sites =>
    if site.Suffices then checkSites code sites else .error (site.tooFew code)

/-- Sites are checked one part after the other. -/
theorem checkSites_append (code : Text) (sites sites' : List (Nat × Site)) :
    checkSites code (sites ++ sites') =
      (checkSites code sites).bind fun _ => checkSites code sites' := by
  induction sites with
  | nil => rfl
  | cons site sites ih =>
    rw [List.cons_append, checkSites, checkSites, ih]
    split <;> rfl

/-- A check of sites succeeds exactly if each one passes enough arguments. -/
theorem checkSites_eq_ok_iff {code : Text} {sites : List (Nat × Site)} :
    checkSites code sites = .ok () ↔ ∀ p ∈ sites, p.2.Suffices := by
  induction sites with
  | nil => simp [checkSites]
  | cons site sites ih =>
    rw [checkSites, List.forall_mem_cons]
    split <;> simp_all

/-- The fault is that of the first site that passes too few arguments. -/
theorem checkSites_eq_error (code : Text) {sites : List (Nat × Site)}
    (h : ¬ ∀ p ∈ sites, p.2.Suffices) :
    ∃ before p after, sites = before ++ p :: after ∧ (∀ q ∈ before, q.2.Suffices) ∧
      ¬ p.2.Suffices ∧ checkSites code sites = .error (p.2.tooFew code) := by
  induction sites with
  | nil => simp at h
  | cons site sites ih =>
    by_cases hsite : site.2.Suffices
    · have hrest : ¬ ∀ p ∈ sites, p.2.Suffices :=
        fun hall => h (List.forall_mem_cons.mpr ⟨hsite, hall⟩)
      obtain ⟨before, p, after, rfl, hbefore, hp, hcheck⟩ := ih hrest
      refine ⟨site :: before, p, after, rfl, List.forall_mem_cons.mpr ⟨hsite, hbefore⟩, hp, ?_⟩
      rw [checkSites, if_pos hsite, hcheck]
    · exact ⟨[], site, sites, rfl, by simp, hsite, by rw [checkSites, if_neg hsite]⟩

/-! ### The search for one class -/

namespace LineSearch

variable {code : Text} {location : Location}

/-- A place is passed over if its columns are taken. If they are free, they are taken, and the site
there, if there is one, is checked and kept. -/
theorem visit_eq (templateClass : TemplateClass) (search : LineSearch) (place : Text.Occurrence) :
    visit code location templateClass search place =
      if search.taken.any (·.overlaps ⟨place.column, place.column + templateClass.name.length⟩) then
        .ok search
      else
        (checkSites code (siteAt? location templateClass place).toList).bind fun _ =>
          .ok ⟨⟨place.column, place.column + templateClass.name.length⟩ :: search.taken,
            search.found ++ (siteAt? location templateClass place).toList⟩ := by
  rw [visit, siteAt?]
  cases argumentList? place.rest with
  | none => simp [checkSites, Except.bind]
  | some captured =>
    simp only [Option.map_some, Option.toList_some, checkSites, Site.Suffices, ← Nat.not_lt]
    split
    · rfl
    · split <;> simp_all [Except.bind, Site.tooFew]

/-- Runs whose columns are taken leave the search as it is. -/
theorem foldlM_visit_taken {templateClass : TemplateClass} {runs : List Text.Run}
    {search : LineSearch} (hwords : ∀ run ∈ runs, run.word = templateClass.name)
    (htaken : ∀ run ∈ runs, search.taken.any (·.overlaps run.span) = true) :
    (runs.map Text.Run.toOccurrence).foldlM (visit code location templateClass) search =
      .ok search := by
  induction runs with
  | nil => rfl
  | cons run runs ih =>
    rw [List.forall_mem_cons] at hwords htaken
    rw [List.map_cons, List.foldlM_cons, visit_eq, ← hwords.1, ← Text.Run.span, if_pos htaken.1]
    exact ih hwords.2 htaken.2

/-- The sites of one class at some runs, with their columns. -/
def sitesAt (location : Location) (templateClass : TemplateClass) (runs : List Text.Run) :
    List (Nat × Site) :=
  runs.flatMap fun run => (siteAt? location templateClass run.toOccurrence).toList

/-- The search for a class goes through runs whose columns are free and that do not overlap. -/
theorem foldlM_visit {templateClass : TemplateClass} {runs : List Text.Run} {search : LineSearch}
    (hwords : ∀ run ∈ runs, run.word = templateClass.name)
    (hapart : runs.Pairwise fun a b => a.column + a.word.length ≤ b.column)
    (hfree : ∀ run ∈ runs, search.taken.any (·.overlaps run.span) = false) :
    (runs.map Text.Run.toOccurrence).foldlM (visit code location templateClass) search =
      (checkSites code (sitesAt location templateClass runs)).bind fun _ =>
        .ok ⟨(runs.map Text.Run.span).reverse ++ search.taken,
          search.found ++ sitesAt location templateClass runs⟩ := by
  induction runs generalizing search with
  | nil => simp [sitesAt, checkSites, Except.bind, pure, Except.pure]
  | cons run runs ih =>
    rw [List.forall_mem_cons] at hwords hfree
    rw [List.pairwise_cons] at hapart
    rw [List.map_cons, List.foldlM_cons, visit_eq, ← hwords.1, ← Text.Run.span,
      if_neg (by simp [hfree.1]), sitesAt, List.flatMap_cons, ← sitesAt, checkSites_append]
    cases checkSites code (siteAt? location templateClass run.toOccurrence).toList with
    | error fault => rfl
    | ok _ =>
      refine (ih hwords.2 hapart.2 fun other hother => ?_).trans ?_
      · simp [Text.Run.overlaps_of_le (hapart.1 other hother), hfree.2 other hother]
      · simp [Except.bind]

/-- The columns taken are those of the runs whose words have been searched for. -/
def Takes (code : Text) (searched : List Text) (taken : List Span) : Prop :=
  ∀ span, span ∈ taken ↔ ∃ run ∈ code.identifierRuns, run.word ∈ searched ∧ run.span = span

/-- A name that has been searched for is not found again. -/
theorem searchClass_of_searched {searched : List Text} {search : LineSearch}
    {templateClass : TemplateClass} (htakes : Takes code searched search.taken)
    (hname : templateClass.name.IsIdentifier) (hsearched : templateClass.name ∈ searched) :
    searchClass code location search templateClass = .ok search := by
  rw [searchClass, Text.wordOccurrences_eq_runs hname]
  refine foldlM_visit_taken (by simp) fun run hrun => List.any_eq_true.mpr ⟨run.span, ?_, ?_⟩
  all_goals obtain ⟨hrun, hword⟩ := by simpa using hrun
  · exact (htakes run.span).mpr ⟨run, hrun, hword ▸ hsearched, rfl⟩
  · exact Text.Run.overlaps_self (hword ▸ hname.1)

/-- The sites of one class on a line, with their columns. -/
def classSites (code : Text) (location : Location) (templateClass : TemplateClass) :
    List (Nat × Site) :=
  sitesAt location templateClass (code.identifierRuns.filter (·.word = templateClass.name))

/-- A name that has not been searched for is found at all its runs. -/
theorem searchClass_of_not_searched (location : Location) {searched : List Text}
    {search : LineSearch} {templateClass : TemplateClass}
    (htakes : Takes code searched search.taken) (hname : templateClass.name.IsIdentifier)
    (hsearched : templateClass.name ∉ searched) :
    ∃ taken, Takes code (templateClass.name :: searched) taken ∧
      searchClass code location search templateClass =
        (checkSites code (classSites code location templateClass)).bind fun _ =>
          .ok ⟨taken, search.found ++ classSites code location templateClass⟩ := by
  refine ⟨((code.identifierRuns.filter (·.word = templateClass.name)).map Text.Run.span).reverse ++
    search.taken, ?_, ?_⟩
  · intro span
    rw [List.mem_append, htakes span]
    simp only [List.mem_reverse, List.mem_map, List.mem_filter, decide_eq_true_eq, List.mem_cons]
    grind
  · rw [searchClass, Text.wordOccurrences_eq_runs hname]
    refine foldlM_visit (by simp) ((Text.pairwise_identifierRuns code).filter _) fun run hrun => ?_
    obtain ⟨hrun, hword⟩ := by simpa using hrun
    refine List.any_eq_false.mpr fun span hspan => ?_
    obtain ⟨other, hother, hothers, rfl⟩ := (htakes span).mp hspan
    have hne : other ≠ run := by
      rintro rfl
      exact hsearched (hword ▸ hothers)
    simp [Text.Run.overlaps_of_ne hother hrun hne]

/-! ### The search for all classes -/

/-- The sites of a line in the order of the search: class by class, and each name only once. -/
def searchedSites (code : Text) (location : Location) :
    (searched : List Text) → List TemplateClass → List (Nat × Site)
  | _, [] => []
  | searched, templateClass :: classes =>
    if templateClass.name ∈ searched then searchedSites code location searched classes
    else
      classSites code location templateClass ++
        searchedSites code location (templateClass.name :: searched) classes

/-- The search of a line checks and keeps the sites in order. -/
theorem foldlM_searchClass {classes : List TemplateClass} {searched : List Text}
    {search : LineSearch} (hnames : ∀ c ∈ classes, c.name.IsIdentifier)
    (htakes : Takes code searched search.taken) :
    ∃ taken, classes.foldlM (searchClass code location) search =
      (checkSites code (searchedSites code location searched classes)).bind fun _ =>
        .ok ⟨taken, search.found ++ searchedSites code location searched classes⟩ := by
  induction classes generalizing searched search with
  | nil => exact ⟨search.taken, by simp [searchedSites, checkSites, Except.bind, pure, Except.pure]⟩
  | cons templateClass classes ih =>
    rw [List.forall_mem_cons] at hnames
    rw [List.foldlM_cons, searchedSites]
    split
    next hsearched =>
      rw [searchClass_of_searched htakes hnames.1 hsearched]
      exact ih hnames.2 htakes
    next hsearched =>
      obtain ⟨taken, htakes', hclass⟩ :=
        searchClass_of_not_searched location htakes hnames.1 hsearched
      obtain ⟨taken', hrest⟩ := @ih (templateClass.name :: searched)
        ⟨taken, search.found ++ classSites code location templateClass⟩ hnames.2 htakes'
      refine ⟨taken', ?_⟩
      rw [hclass, checkSites_append]
      cases checkSites code (classSites code location templateClass) with
      | error fault => rfl
      | ok _ =>
        refine hrest.trans ?_
        simp [Except.bind]

/-- The sites of a class are those at the runs that are its name. -/
theorem mem_classSites {templateClass : TemplateClass} {p : Nat × Site} :
    p ∈ classSites code location templateClass ↔
      ∃ run ∈ code.identifierRuns, run.word = templateClass.name ∧
        siteAt? location templateClass run.toOccurrence = some p := by
  simp [classSites, sitesAt, and_assoc]

/-- The search comes to the sites of all runs whose words have not been searched for before. -/
theorem mem_searchedSites {searched : List Text} {classes : List TemplateClass} {p : Nat × Site} :
    p ∈ searchedSites code location searched classes ↔
      ∃ run ∈ code.identifierRuns, run.word ∉ searched ∧ run.site? classes location = some p := by
  induction classes generalizing searched with
  | nil => simp [searchedSites, Text.Run.site?]
  | cons templateClass classes ih =>
    rw [searchedSites]
    split
    next hsearched =>
      rw [ih]
      refine exists_congr fun run => and_congr_right fun _ => and_congr_right fun hword => ?_
      have hne : templateClass.name ≠ run.word := fun hname => hword (hname ▸ hsearched)
      rw [Text.Run.site?_cons, if_neg hne]
    next hsearched =>
      rw [List.mem_append, mem_classSites, ih]
      constructor
      · rintro (⟨run, hrun, hword, hsite⟩ | ⟨run, hrun, hword, hsite⟩)
        · refine ⟨run, hrun, hword ▸ hsearched, ?_⟩
          rw [Text.Run.site?_cons, if_pos hword.symm, hsite]
        · obtain ⟨hne, hword⟩ := not_or.mp (mt List.mem_cons.mpr hword)
          refine ⟨run, hrun, hword, ?_⟩
          rw [Text.Run.site?_cons, if_neg (Ne.symm hne), hsite]
      · rintro ⟨run, hrun, hword, hsite⟩
        rw [Text.Run.site?_cons] at hsite
        split at hsite
        next hname => exact .inl ⟨run, hrun, hname.symm, hsite⟩
        next hname => exact .inr ⟨run, hrun, by simp [Ne.symm hname, hword], hsite⟩

/-- The sites of one class stand from left to right. -/
theorem pairwise_classSites (templateClass : TemplateClass) :
    (classSites code location templateClass).Pairwise fun p q => p.1 < q.1 := by
  refine List.pairwise_flatMap.mpr ⟨fun run _ => ?_, ?_⟩
  · cases siteAt? location templateClass run.toOccurrence <;> simp
  · refine ((Text.pairwise_column_identifierRuns code).filter _).imp fun {a b} hab p hp q hq => ?_
    have hcolumn := (siteAt?_eq_some (Option.mem_toList.mp hp)).1
    rwa [hcolumn, (siteAt?_eq_some (Option.mem_toList.mp hq)).1]

/-- Of two sites, `p` is met first in a search for `names` in their order. -/
def MetBefore (names : List Text) (p q : Nat × Site) : Prop :=
  names.idxOf p.2.templateClass.name < names.idxOf q.2.templateClass.name ∨
    p.2.templateClass.name = q.2.templateClass.name ∧ p.1 < q.1

instance (names : List Text) (p q : Nat × Site) : Decidable (MetBefore names p q) :=
  inferInstanceAs (Decidable (_ ∨ _))

/-- Another name, searched for first, does not change which of two sites is met first. -/
theorem MetBefore.cons {names : List Text} {name : Text} {p q : Nat × Site}
    (h : MetBefore names p q) (hp : name ≠ p.2.templateClass.name)
    (hq : name ≠ q.2.templateClass.name) : MetBefore (name :: names) p q := by
  rw [MetBefore, List.idxOf_cons_ne _ hp, List.idxOf_cons_ne _ hq]
  exact h.imp_left Nat.succ_lt_succ

/-- No site is found for a name that has been searched for before. -/
theorem name_not_mem_of_mem_searchedSites {searched : List Text} {classes : List TemplateClass}
    {p : Nat × Site} (h : p ∈ searchedSites code location searched classes) :
    p.2.templateClass.name ∉ searched := by
  obtain ⟨run, -, hword, hsite⟩ := mem_searchedSites.mp h
  rwa [(Text.Run.site?_eq_some hsite).2.1]

/-- The sites that a search finds stand in the order in which it meets them. -/
theorem pairwise_searchedSites (searched : List Text) (classes : List TemplateClass) :
    (searchedSites code location searched classes).Pairwise
      (MetBefore (classes.map TemplateClass.name)) := by
  induction classes generalizing searched with
  | nil => exact .nil
  | cons templateClass classes ih =>
    rw [searchedSites, List.map_cons]
    -- Sites of later classes have other names.
    have hlater {searched : List Text} (hsearched : templateClass.name ∈ searched)
        {p : Nat × Site} (hp : p ∈ searchedSites code location searched classes) :
        templateClass.name ≠ p.2.templateClass.name :=
      fun hname => name_not_mem_of_mem_searchedSites hp (hname ▸ hsearched)
    split
    next hsearched =>
      exact (ih searched).imp_of_mem
        fun hp hq h => h.cons (hlater hsearched hp) (hlater hsearched hq)
    next =>
      have hself : templateClass.name ∈ templateClass.name :: searched := List.mem_cons_self
      refine List.pairwise_append.mpr ⟨?_, ?_, ?_⟩
      · refine (pairwise_classSites templateClass).imp_of_mem fun hp hq h => .inr ⟨?_, h⟩
        obtain ⟨_, -, -, hp⟩ := mem_classSites.mp hp
        obtain ⟨_, -, -, hq⟩ := mem_classSites.mp hq
        rw [(siteAt?_eq_some hp).2.1, (siteAt?_eq_some hq).2.1]
      · exact (ih _).imp_of_mem fun hp hq h => h.cons (hlater hself hp) (hlater hself hq)
      · intro p hp q hq
        obtain ⟨_, -, -, hp⟩ := mem_classSites.mp hp
        refine .inl ?_
        rw [(siteAt?_eq_some hp).2.1, List.idxOf_cons_self, List.idxOf_cons_ne _ (hlater hself hq)]
        exact Nat.succ_pos _

end LineSearch

/-! ### The sites of a line -/

variable {classes : List TemplateClass} {code : Text} {location : Location}

/-- Of two sites, `p` is searched for first: its name is longer in bytes, or it is as long and
listed earlier, or it is the same name and stands further left. -/
def SearchedBefore (classes : List TemplateClass) (p q : Nat × Site) : Prop :=
  q.2.templateClass.name.byteLength < p.2.templateClass.name.byteLength ∨
    p.2.templateClass.name.byteLength = q.2.templateClass.name.byteLength ∧
      LineSearch.MetBefore (classes.map TemplateClass.name) p q

instance (classes : List TemplateClass) (p q : Nat × Site) :
    Decidable (SearchedBefore classes p q) :=
  inferInstanceAs (Decidable (_ ∨ _))

/-- The sites of a line in the order of the search. -/
def searchOrder (classes : List TemplateClass) (code : Text) (location : Location) :
    List (Nat × Site) :=
  LineSearch.searchedSites code location [] (TemplateClass.longestFirst classes)

/-- For the sites of a line it does not matter that the longest names come first. -/
theorem lineSites_longestFirst (classes : List TemplateClass) (code : Text) (location : Location) :
    lineSites (TemplateClass.longestFirst classes) code location =
      lineSites classes code location := by
  simp only [lineSites, Text.Run.site?, TemplateClass.find?_longestFirst]

/-- The columns of the sites of a line increase. -/
theorem pairwise_lineSites : (lineSites classes code location).Pairwise fun p q => p.1 < q.1 := by
  refine List.pairwise_filterMap.mpr ?_
  refine (Text.pairwise_column_identifierRuns code).imp fun hab p hp q hq => ?_
  rwa [(Text.Run.site?_eq_some hp).1, (Text.Run.site?_eq_some hq).1]

/-- The search finds the sites of the line and no others. -/
theorem mem_searchOrder {p : Nat × Site} :
    p ∈ searchOrder classes code location ↔ p ∈ lineSites classes code location := by
  rw [searchOrder, LineSearch.mem_searchedSites, ← lineSites_longestFirst, lineSites]
  simp

/-- The sites that the search finds stand in the order in which they are searched for. -/
theorem pairwise_searchOrder :
    (searchOrder classes code location).Pairwise (SearchedBefore classes) := by
  refine (LineSearch.pairwise_searchedSites [] _).imp_of_mem fun {p q} _ hq h => ?_
  obtain ⟨run, -, hsite⟩ := List.mem_filterMap.mp (mem_searchOrder.mp hq)
  have hlisted : q.2.templateClass.name ∈ classes.map TemplateClass.name :=
    List.mem_map_of_mem (Text.Run.site?_eq_some hsite).2.2.1
  rcases h with h | ⟨hname, hcolumn⟩
  · rcases TemplateClass.idxOf_longestFirst_lt hlisted h with hlonger | ⟨hequal, hearlier⟩
    · exact .inl hlonger
    · exact .inr ⟨hequal, .inl hearlier⟩
  · exact .inr ⟨by rw [hname], .inr ⟨hname, hcolumn⟩⟩

/-- No site is searched for before itself. -/
theorem SearchedBefore.ne {p q : Nat × Site} (h : SearchedBefore classes p q) : p ≠ q := by
  rintro rfl
  simp [SearchedBefore, LineSearch.MetBefore] at h

/-- Sorted by their columns, the sites that the search has met are the sites of the line. -/
theorem mergeSort_searchOrder :
    (searchOrder classes code location).mergeSort (fun a b => a.1 ≤ b.1) =
      lineSites classes code location := by
  have hmet : (searchOrder classes code location).Nodup :=
    pairwise_searchOrder.imp SearchedBefore.ne
  have hcolumns : ((lineSites classes code location).map Prod.fst).Nodup :=
    List.pairwise_map.mpr (pairwise_lineSites.imp Nat.ne_of_lt)
  have hperm := (List.mergeSort_perm _ fun a b : Nat × Site => decide (a.1 ≤ b.1)).trans
    ((List.perm_ext_iff_of_nodup hmet (List.Nodup.of_map _ hcolumns)).mpr
      fun _ => mem_searchOrder)
  refine List.Perm.eq_of_pairwise (fun p q hp hq hpq hqp => ?_) ?_
    (pairwise_lineSites.imp Nat.le_of_lt) hperm
  · exact List.inj_on_of_nodup_map hcolumns (hperm.mem_iff.mp hp) hq (Nat.le_antisymm hpq hqp)
  · have hsorted (sites : List (Nat × Site)) := @List.pairwise_mergeSort _
      (fun a b : Nat × Site => decide (a.1 ≤ b.1)) (by simp; omega) (by simp; omega) sites
    simpa using hsorted _

/-- The search of a line, as a check of its sites one after the other. -/
theorem sitesOnLine_eq_checkSites (hnames : ∀ c ∈ classes, c.name.IsIdentifier) :
    sitesOnLine classes code location =
      (checkSites code (searchOrder classes code location)).bind fun _ =>
        .ok ((lineSites classes code location).map Prod.snd) := by
  have htakes : LineSearch.Takes code [] LineSearch.empty.taken := by
    intro span
    simp [LineSearch.empty]
  have hnames' : ∀ c ∈ TemplateClass.longestFirst classes, c.name.IsIdentifier :=
    fun c hc => hnames c (TemplateClass.mem_longestFirst.mp hc)
  obtain ⟨taken, hsearch⟩ := @LineSearch.foldlM_searchClass code location _ _ _ hnames' htakes
  rw [sitesOnLine, hsearch, ← searchOrder]
  cases checkSites code (searchOrder classes code location) with
  | error fault => rfl
  | ok _ =>
    rw [← mergeSort_searchOrder]
    rfl

/-- **The search finds the sites of a line.** If all of them pass enough arguments, the result is
these sites from left to right. Otherwise it is the fault of the one that, among those that pass too
few, comes first in the order of the search. -/
theorem sitesOnLine_eq_lineSites (hnames : ∀ c ∈ classes, c.name.IsIdentifier) (code : Text)
    (location : Location) :
    ((∀ p ∈ lineSites classes code location, p.2.Suffices) →
      sitesOnLine classes code location = .ok ((lineSites classes code location).map Prod.snd)) ∧
    ((¬ ∀ p ∈ lineSites classes code location, p.2.Suffices) →
      ∃ p ∈ lineSites classes code location, ¬ p.2.Suffices ∧
        (∀ q ∈ lineSites classes code location, ¬ q.2.Suffices → q ≠ p →
          SearchedBefore classes p q) ∧
        sitesOnLine classes code location =
          .error ⟨p.2.templateClass, argumentCount p.2.arguments, location, code⟩) := by
  rw [sitesOnLine_eq_checkSites hnames]
  simp only [← mem_searchOrder]
  constructor
  · intro h
    rw [checkSites_eq_ok_iff.mpr h]
    rfl
  · intro h
    obtain ⟨before, p, after, hsplit, hbefore, hp, hcheck⟩ := checkSites_eq_error code h
    have hmem : p ∈ searchOrder classes code location := by simp [hsplit]
    have horder := @pairwise_searchOrder classes code location
    refine ⟨p, hmem, hp, fun q hq hshort hne => ?_, ?_⟩
    · rw [hsplit] at hq horder
      rcases List.mem_append.mp hq with hq | hq
      · exact absurd (hbefore q hq) hshort
      · have hafter := (List.mem_cons.mp hq).resolve_left hne
        exact List.rel_of_pairwise_cons (List.pairwise_append.mp horder).2.1 hafter
    · obtain ⟨run, -, hsite⟩ := List.mem_filterMap.mp (mem_searchOrder.mp hmem)
      rw [hcheck, Site.tooFew, (Text.Run.site?_eq_some hsite).2.2.2]
      rfl

/-- Classes whose names contain one another, one of them listed twice. -/
def sampleClasses : List TemplateClass :=
  [⟨"Pair".toList, 2⟩, ⟨"Action".toList, 1⟩, ⟨"ActionList".toList, 1⟩, ⟨"Action".toList, 3⟩]

/-- A line with a site inside another one, and a line with two faulty sites, of which the one with
the longer name is reported. -/
theorem sitesOnLine_eq_lineSites_sampleClasses :
    sitesOnLine sampleClasses "ActionList<Action <int>> a; MyAction<x> b; Pair<u , v> c;".toList
        ⟨.ofString "use.cpp", 1⟩ =
      .ok [⟨⟨"ActionList".toList, 1⟩, "Action <int>".toList, ⟨.ofString "use.cpp", 1⟩⟩,
        ⟨⟨"Action".toList, 1⟩, "int".toList, ⟨.ofString "use.cpp", 1⟩⟩,
        ⟨⟨"Pair".toList, 2⟩, "u,v".toList, ⟨.ofString "use.cpp", 1⟩⟩] ∧
    sitesOnLine sampleClasses "Pair<u> a; Action<> b;".toList ⟨.ofString "use.cpp", 2⟩ =
      .error ⟨⟨"Action".toList, 1⟩, 0, ⟨.ofString "use.cpp", 2⟩,
        "Pair<u> a; Action<> b;".toList⟩ := by
  have hnames : ∀ c ∈ sampleClasses, c.name.IsIdentifier := by decide
  constructor
  · rw [(sitesOnLine_eq_lineSites hnames _ _).1 (by decide +kernel)]
    decide +kernel
  · let pair : Nat × Site := (0, ⟨⟨"Pair".toList, 2⟩, "u".toList, ⟨.ofString "use.cpp", 2⟩⟩)
    let action : Nat × Site := (11, ⟨⟨"Action".toList, 1⟩, [], ⟨.ofString "use.cpp", 2⟩⟩)
    have hsites : lineSites sampleClasses "Pair<u> a; Action<> b;".toList
        ⟨.ofString "use.cpp", 2⟩ = [pair, action] := by decide +kernel
    obtain ⟨p, hp, -, hfirst, hresult⟩ :=
      (sitesOnLine_eq_lineSites hnames "Pair<u> a; Action<> b;".toList
        ⟨.ofString "use.cpp", 2⟩).2 (by decide +kernel)
    rw [hsites] at hp hfirst
    rcases List.mem_pair.mp hp with rfl | rfl
    · have hbefore := hfirst action (by simp) (by decide +kernel) (by decide +kernel)
      exact absurd hbefore (by decide +kernel)
    · exact hresult

end ExplicitInstantiation
