import ExplicitInstantiation.Proofs.Traversal
import ExplicitInstantiation.Proofs.Constant.Definition
import ExplicitInstantiation.Proofs.Site.Line
import ExplicitInstantiation.Site.File

/-!
# What a survey yields

A survey of usage files that ends without a fault has passed only sites of listed classes with
enough arguments (`Site.Accepted`), and the constants it has collected have names and values
(`Constants.Given`). Both are kept by each step of the search: by a place that is visited, by a
class that is searched for, by a line, by a file. Nothing is assumed about the names of the classes.
-/

namespace ExplicitInstantiation

/-! ### Sites -/

/-- A site of a listed class that passes enough arguments. -/
def Site.Accepted (classes : List TemplateClass) (site : Site) : Prop :=
  site.templateClass ∈ classes ∧ site.Suffices

/-- All sites found so far are accepted. -/
def LineSearch.Accepted (classes : List TemplateClass) (search : LineSearch) : Prop :=
  ∀ p ∈ search.found, p.2.Accepted classes

section

variable {classes : List TemplateClass} {code : Text} {location : Location}

/-- A place that is visited adds only a site that is accepted. -/
theorem LineSearch.visit_accepted {templateClass : TemplateClass} {place : Text.Occurrence}
    {search search' : LineSearch} (hlisted : templateClass ∈ classes)
    (haccepted : search.Accepted classes)
    (h : visit code location templateClass search place = .ok search') :
    search'.Accepted classes := by
  rw [visit_eq] at h
  split at h
  · cases h
    exact haccepted
  · obtain ⟨⟨⟩, hcheck, h⟩ := bind_eq_ok.mp h
    cases h
    intro p hp
    rcases List.mem_append.mp hp with hp | hp
    · exact haccepted p hp
    · have hclass := (siteAt?_eq_some (Option.mem_toList.mp hp)).2.1
      exact ⟨hclass ▸ hlisted, checkSites_eq_ok_iff.mp hcheck p hp⟩

/-- The sites of a line are accepted. -/
theorem sitesOnLine_accepted {sites : List Site}
    (h : sitesOnLine classes code location = .ok sites) :
    ∀ site ∈ sites, site.Accepted classes := by
  obtain ⟨search, hsearch, hsites⟩ := bind_eq_ok.mp h
  have haccepted : search.Accepted classes := by
    refine foldlM_keeps _ ?_ hsearch (by simp [LineSearch.empty, LineSearch.Accepted])
    intro templateClass hclass search search' haccepted hsearched
    refine foldlM_keeps _ (fun _ _ _ _ => ?_) hsearched haccepted
    exact LineSearch.visit_accepted (TemplateClass.mem_longestFirst.mp hclass)
  cases hsites
  intro site hsite
  obtain ⟨p, hp, rfl⟩ := List.mem_map.mp hsite
  exact haccepted p (List.mem_mergeSort.mp hp)

/-- The sites of many lines are accepted. -/
theorem surveyLines_accepted {path : Path} {constants : Constants} {lines : List CodeLine}
    {sites : List Site} (h : (surveyLines classes path constants lines).sites = .ok sites) :
    ∀ site ∈ sites, site.Accepted classes := by
  induction lines generalizing constants sites with
  | nil =>
    cases h
    simp
  | cons line lines ih =>
    rw [surveyLines] at h
    split at h
    · cases h
    next here hhere =>
      obtain ⟨rest, hrest, rfl⟩ := map_eq_ok.mp h
      intro site hsite
      rcases List.mem_append.mp hsite with hsite | hsite
      · exact sitesOnLine_accepted hhere site hsite
      · exact ih hrest site hsite

end

/-! ### Constants -/

/-- All constants have names and values. -/
def Constants.Given (constants : Constants) : Prop :=
  ∀ constant ∈ constants.entries, constant.name ≠ [] ∧ constant.value ≠ []

/-- After a constant is put, there are only that one and those that were there. -/
theorem Constants.mem_put {constant other : Constant} {entries : List Constant}
    (h : other ∈ put constant entries) : other = constant ∨ other ∈ entries := by
  induction entries with
  | nil => simpa [put] using h
  | cons entry entries ih =>
    rw [put] at h
    split at h <;> rcases List.mem_cons.mp h with rfl | h
    · exact .inl rfl
    · exact .inr (List.mem_cons_of_mem _ h)
    · exact .inr List.mem_cons_self
    · exact (ih h).imp_right (List.mem_cons_of_mem _)

/-- A line adds only a constant with a name and a value. -/
theorem Constants.Given.observe {constants : Constants} (h : constants.Given) (line : Text) :
    (constants.observe line).Given := by
  rw [Constants.observe]
  split
  next constant hconstant =>
    intro other hother
    rcases mem_put hother with rfl | hother
    · obtain ⟨hname, -, hvalue, -⟩ := Constant.clean_of_ofLine? hconstant
      exact ⟨hname, hvalue⟩
    · exact h other hother
  next => exact h

/-- Many lines add only constants with names and values. -/
theorem surveyLines_given {classes : List TemplateClass} {path : Path} {constants : Constants}
    (h : constants.Given) (lines : List CodeLine) :
    (surveyLines classes path constants lines).constants.Given := by
  induction lines generalizing constants with
  | nil => exact h
  | cons line lines ih =>
    rw [surveyLines]
    split
    · exact h
    · exact ih (h.observe line.code)

end ExplicitInstantiation
