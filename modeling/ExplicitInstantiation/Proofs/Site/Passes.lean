import ExplicitInstantiation.Proofs.Source.Line
import ExplicitInstantiation.Proofs.Traversal
import ExplicitInstantiation.Site.File

/-!
# One pass over usage files, and two

Each line of a usage file is searched for sites and then for a constant, and a faulty site ends the
reading of the file in between. The two effects can be taken apart (`surveyLines_eq`): the sites are
those of a traversal of the lines that looks at no constants, and the constants are those of the
lines before the first fault. `surveyFiles` reads several files with one table of constants, and
what holds of a file adds up (`surveyFiles_two_passes`).

A file that is cut at a line break into two files has the same lines of code, with other numbers and
in other places. Where a line stands shows in its sites only as their location
(`sitesOnLine_relocate`), so the two files yield the constants of the one and, but for locations,
its sites.
-/

namespace ExplicitInstantiation

/-! ### Files read one after the other -/

/-- A file that uses template classes. -/
structure UsageFile where
  /-- Where the file is. -/
  path : Path
  /-- What it holds. -/
  content : Text

/-- The results of files that are read in order with one table of constants, and the table after the
last of them. A fault ends the reading of its own file only. -/
def surveyFiles (classes : List TemplateClass) (constants : Constants) :
    List UsageFile → List (Except TooFewArguments (List Site)) × Constants
  | [] => ([], constants)
  | file :: files =>
    let survey := surveyFile classes constants file.path file.content
    let others := surveyFiles classes survey.constants files
    (survey.sites :: others.1, others.2)

namespace UsageFile

/-- The lines of a file that have code, with their numbers. -/
def code (file : UsageFile) : List CodeLine :=
  numberedCode file.content

/-- The sites on one line of a file. -/
def sitesOn (classes : List TemplateClass) (file : UsageFile) (line : CodeLine) :
    Except TooFewArguments (List Site) :=
  sitesOnLine classes line.code ⟨file.path, line.number⟩

/-- Whether every line of a file passes the search for sites. -/
def Passes (classes : List TemplateClass) (file : UsageFile) : Prop :=
  ∀ line ∈ file.code, ∃ sites, file.sitesOn classes line = .ok sites

/-- The codes of the lines of a file up to the first on which the search for sites has a fault. -/
def observed (classes : List TemplateClass) (file : UsageFile) : List Text :=
  (file.code.takeWhile fun line => (file.sitesOn classes line).isOk).map CodeLine.code

/-- What a pass over a file that looks for sites only comes to. -/
structure SitePass (classes : List TemplateClass) (file : UsageFile)
    (result : Except TooFewArguments (List Site)) : Prop where
  /-- There are sites exactly if every line passes. -/
  ok_iff : (∃ sites, result = .ok sites) ↔ file.Passes classes
  /-- The sites are those of the lines in their order. -/
  sites_eq : ∀ sites, result = .ok sites →
    ∃ found, List.Forall₂ (fun line here => file.sitesOn classes line = .ok here) file.code found ∧
      sites = found.flatten
  /-- A fault is that of the first line that has one. -/
  fault_eq : ∀ fault, result = .error fault →
    ∃ before line after, file.code = before ++ line :: after ∧
      (∀ earlier ∈ before, ∃ sites, file.sitesOn classes earlier = .ok sites) ∧
      file.sitesOn classes line = .error fault

/-- The result of a pass over a file that looks for sites only. -/
def sites (classes : List TemplateClass) (file : UsageFile) :
    Except TooFewArguments (List Site) :=
  (file.code.mapM (file.sitesOn classes)).map List.flatten

/-- The pass over a file for its sites comes to the sites of its lines, or to the fault of the first
line that has one. -/
theorem sitePass_sites (classes : List TemplateClass) (file : UsageFile) :
    file.SitePass classes (file.sites classes) where
  ok_iff := by rw [sites, exists_map_eq_ok_iff, exists_mapM_eq_ok_iff, Passes]
  sites_eq := by
    intro sites h
    obtain ⟨found, hfound, rfl⟩ := map_eq_ok.mp h
    exact ⟨found, mapM_eq_ok_iff.mp hfound, rfl⟩
  fault_eq := by
    intro fault h
    exact mapM_eq_error_iff.mp (map_eq_error_iff.mp h)

end UsageFile

/-! ### The two passes -/

section

variable (classes : List TemplateClass)

/-- The sites of lines, and the constants of the lines before the first fault. -/
theorem surveyLines_eq (path : Path) (constants : Constants) (lines : List CodeLine) :
    surveyLines classes path constants lines =
      ⟨(lines.mapM fun line => sitesOnLine classes line.code ⟨path, line.number⟩).map List.flatten,
        ((lines.takeWhile fun line =>
          (sitesOnLine classes line.code ⟨path, line.number⟩).isOk).map CodeLine.code).foldl
            Constants.observe constants⟩ := by
  induction lines generalizing constants with
  | nil => rfl
  | cons line lines ih =>
    rw [surveyLines, List.mapM_cons, List.takeWhile_cons, ih]
    rcases sitesOnLine classes line.code ⟨path, line.number⟩ with fault | here
    · rfl
    · have hflatten (found : Except TooFewArguments (List (List Site))) :
          (found.map List.flatten).map (here ++ ·) =
            (found >>= fun found => pure (here :: found)).map List.flatten := by
        cases found <;> rfl
      exact congrArg (FileSurvey.mk · _) (hflatten _)

/-- One loop over a file comes to the sites of one pass and the constants of another. -/
theorem surveyFile_eq (constants : Constants) (file : UsageFile) :
    surveyFile classes constants file.path file.content =
      ⟨file.sites classes, (file.observed classes).foldl Constants.observe constants⟩ := by
  rw [surveyFile, codeLines_eq_numbered, surveyLines_eq]
  rfl

/-- So does one loop over all files. -/
theorem surveyFiles_eq (constants : Constants) (files : List UsageFile) :
    surveyFiles classes constants files =
      (files.map (UsageFile.sites classes),
        (files.flatMap (UsageFile.observed classes)).foldl Constants.observe constants) := by
  induction files generalizing constants with
  | nil => rfl
  | cons file files ih =>
    rw [surveyFiles, surveyFile_eq, ih, List.map_cons, List.flatMap_cons, List.foldl_append]

end

/-! ### Lines in other places -/

/-- The site at another location. -/
def Site.relocate (location : Location) (site : Site) : Site :=
  { site with location }

/-- What is instantiated at a site. -/
def Site.unplaced (site : Site) : TemplateClass × Text :=
  (site.templateClass, site.arguments)

namespace LineSearch

/-- The search with its sites at another location. -/
def relocate (location : Location) (search : LineSearch) : LineSearch :=
  { search with found := search.found.map (Prod.map id (Site.relocate location)) }

variable {classes : List TemplateClass} {code : Text} {location : Location}

/-- The place of a line does not matter for what is found on it. -/
theorem visit_relocate (other : Location) {templateClass : TemplateClass}
    {search search' : LineSearch} {place : Text.Occurrence}
    (h : visit code location templateClass search place = .ok search') :
    visit code other templateClass (search.relocate other) place =
      .ok (search'.relocate other) := by
  unfold visit at h ⊢
  dsimp only at h ⊢
  split at h
  next htaken =>
    cases h
    exact if_pos htaken
  next htaken =>
    refine (if_neg htaken).trans ?_
    split at h
    next =>
      cases h
      rfl
    next captured _ =>
      split at h
      · cases h
      next hcount =>
        cases h
        refine (if_neg hcount).trans ?_
        simp [relocate, Site.relocate]

end LineSearch

section

variable {classes : List TemplateClass} {code : Text} {location : Location}

/-- Where a line stands shows in its sites only as their location. -/
theorem sitesOnLine_relocate (other : Location) {sites : List Site}
    (h : sitesOnLine classes code location = .ok sites) :
    sitesOnLine classes code other = .ok (sites.map (Site.relocate other)) := by
  obtain ⟨search, hsearch, hsites⟩ := bind_eq_ok.mp h
  have hmoved : (TemplateClass.longestFirst classes).foldlM
      (LineSearch.searchClass code other) .empty = .ok (search.relocate other) := by
    refine foldlM_map_of_ok (LineSearch.relocate other) (fun templateClass s s' hs => ?_) hsearch
    exact foldlM_map_of_ok _ (fun _ _ _ => LineSearch.visit_relocate other) hs
  have hsorted : (search.found.mergeSort fun a b => a.1 ≤ b.1).map
      (Prod.map id (Site.relocate other)) =
        (search.relocate other).found.mergeSort fun a b => a.1 ≤ b.1 :=
    List.map_mergeSort fun _ _ _ _ => rfl
  rw [sitesOnLine, hmoved]
  cases hsites
  refine congrArg Except.ok ?_
  rw [← hsorted, List.map_map, List.map_map]
  rfl

/-- What is instantiated on a line with some code, wherever it stands. -/
def instantiatedOn (classes : List TemplateClass) (code : Text) : List (TemplateClass × Text) :=
  ((sitesOnLine classes code ⟨⟨[]⟩, 0⟩).toOption.getD []).map Site.unplaced

/-- What is instantiated on a line depends on its code alone. -/
theorem map_unplaced_eq {sites : List Site} (h : sitesOnLine classes code location = .ok sites) :
    sites.map Site.unplaced = instantiatedOn classes code := by
  rw [instantiatedOn, sitesOnLine_relocate _ h, Except.toOption, Option.getD_some, List.map_map]
  rfl

end

/-! ### Cutting a file -/

namespace UsageFile

variable {classes : List TemplateClass} {file upper lower : UsageFile}

/-- A file is cut at a line break into two files. The break stays with the first of them, or it
goes. -/
inductive CutsInto : UsageFile → UsageFile → UsageFile → Prop where
  /-- The two pieces are files of their own, under any paths. -/
  | intro (path upperPath lowerPath : Path) (upper lower : Text) {ending kept : Text}
    (hending : IsBreak ending) (hkept : kept = [] ∨ kept = ending) :
    CutsInto ⟨path, upper ++ (ending ++ lower)⟩ ⟨upperPath, upper ++ kept⟩ ⟨lowerPath, lower⟩

/-- The codes of the lines of a file. -/
def codes (file : UsageFile) : List Text :=
  file.code.map CodeLine.code

/-- The codes of a file that is cut in two are those of the one part and of the other. -/
theorem CutsInto.codes_eq (h : CutsInto file upper lower) :
    file.codes = upper.codes ++ lower.codes := by
  have hcodes (file : UsageFile) : file.codes = codesOf file.content.lines := by
    rw [codes, code, ← codeLines_eq_numbered, map_code_codeLines]
  obtain ⟨_, _, _, upper, lower, hending, hkept⟩ := h
  simp only [hcodes, codesOf_lines_append_break hending]
  rcases hkept with rfl | rfl
  · rw [List.append_nil]
  · have hupper := codesOf_lines_append_break hending upper []
    rw [List.append_nil] at hupper
    rw [hupper]
    exact congrArg (· ++ codesOf lower.lines) (List.append_nil _).symm

/-- Whether the lines of a file pass does not depend on where they stand. -/
theorem passes_iff :
    file.Passes classes ↔
      ∀ code ∈ file.codes, ∃ location sites, sitesOnLine classes code location = .ok sites := by
  rw [codes, List.forall_mem_map]
  constructor
  · intro h line hline
    exact ⟨_, h line hline⟩
  · intro h line hline
    obtain ⟨location, sites, hsites⟩ := h line hline
    exact ⟨_, sitesOnLine_relocate _ hsites⟩

/-- That the lines pass can be computed. -/
theorem all_isOk_iff :
    (file.code.all fun line => (file.sitesOn classes line).isOk) = true ↔ file.Passes classes := by
  rw [List.all_eq_true, Passes]
  refine forall₂_congr fun line _ => ?_
  cases file.sitesOn classes line <;> simp [Except.isOk, Except.toBool]

/-- Where no line has a fault, the codes of all lines are observed. -/
theorem observed_of_passes (h : file.Passes classes) : file.observed classes = file.codes := by
  rw [observed, codes, List.takeWhile_eq_self_iff.mpr (List.all_eq_true.mp (all_isOk_iff.mpr h))]

/-- Whatever its path, a file whose lines pass has the sites of its codes. -/
theorem exists_sites_of_passes (h : file.Passes classes) :
    ∃ sites, file.sites classes = .ok sites ∧
      sites.map Site.unplaced = file.codes.flatMap (instantiatedOn classes) := by
  have hpass := file.sitePass_sites classes
  obtain ⟨sites, hsites⟩ := hpass.ok_iff.mpr h
  obtain ⟨found, hfound, rfl⟩ := hpass.sites_eq sites hsites
  refine ⟨found.flatten, hsites, ?_⟩
  rw [codes]
  clear hsites
  generalize file.code = lines at hfound ⊢
  induction hfound with
  | nil => rfl
  | cons hline _ ih =>
    rw [List.flatten_cons, List.map_append, map_unplaced_eq hline, ih, List.map_cons,
      List.flatMap_cons]

end UsageFile

/-- **One pass is two.** Files are read in order with one table of constants, which starts with any
constants. The result of each file is that of a pass that looks for sites only, and the table at the
end is that of a pass that looks for constants only, in the lines of each file up to the first with
a fault. Where all lines of a file pass, it may be cut at any line break into two files: the table
at the end stays the same, and so do the results of the other files and, but for their locations,
the sites of this one. -/
theorem surveyFiles_two_passes (classes : List TemplateClass) (constants : Constants)
    (files : List UsageFile) :
    List.Forall₂ (UsageFile.SitePass classes) files (surveyFiles classes constants files).1 ∧
    (surveyFiles classes constants files).2 =
      (files.flatMap (UsageFile.observed classes)).foldl Constants.observe constants ∧
    ∀ before file after upper lower, files = before ++ file :: after →
      file.Passes classes → UsageFile.CutsInto file upper lower →
      (surveyFiles classes constants (before ++ upper :: lower :: after)).2 =
        (surveyFiles classes constants files).2 ∧
      ∃ earlier sites upperSites lowerSites later,
        earlier.length = before.length ∧
        (surveyFiles classes constants files).1 = earlier ++ .ok sites :: later ∧
        (surveyFiles classes constants (before ++ upper :: lower :: after)).1 =
          earlier ++ .ok upperSites :: .ok lowerSites :: later ∧
        (upperSites ++ lowerSites).map Site.unplaced = sites.map Site.unplaced := by
  refine ⟨?_, ?_, ?_⟩
  · rw [surveyFiles_eq, List.forall₂_map_right_iff, List.forall₂_same]
    exact fun file _ => file.sitePass_sites classes
  · rw [surveyFiles_eq]
  · rintro before file after upper lower rfl hpasses hcuts
    simp only [surveyFiles_eq]
    have hcodes := hcuts.codes_eq
    have hpieces : upper.Passes classes ∧ lower.Passes classes := by
      rw [UsageFile.passes_iff, hcodes, List.forall_mem_append] at hpasses
      exact ⟨UsageFile.passes_iff.mpr hpasses.1, UsageFile.passes_iff.mpr hpasses.2⟩
    constructor
    · simp only [List.flatMap_append, List.flatMap_cons,
        UsageFile.observed_of_passes hpasses, UsageFile.observed_of_passes hpieces.1,
        UsageFile.observed_of_passes hpieces.2, hcodes, List.append_assoc]
    · obtain ⟨sites, hsites, hwhole⟩ := UsageFile.exists_sites_of_passes hpasses
      obtain ⟨upperSites, hupper, hupperSites⟩ := UsageFile.exists_sites_of_passes hpieces.1
      obtain ⟨lowerSites, hlower, hlowerSites⟩ := UsageFile.exists_sites_of_passes hpieces.2
      refine ⟨before.map (UsageFile.sites classes), sites, upperSites, lowerSites,
        after.map (UsageFile.sites classes), List.length_map _, ?_, ?_, ?_⟩
      · rw [List.map_append, List.map_cons, hsites]
      · rw [List.map_append, List.map_cons, List.map_cons, hupper, hlower]
      · rw [List.map_append, hupperSites, hlowerSites, hwhole, hcodes, List.flatMap_append]

/-- A file with a fault on its second line. -/
def faultyFile : UsageFile :=
  ⟨.ofString "unit.cpp", "#define A 1\nAction<> a;\n#define B 2\n".toList⟩

/-- A file with a constant and a site, its lines ended in two ways and one of them blank. -/
def depthFile : UsageFile :=
  ⟨.ofString "boat.cpp", "#define C 3 // depth\r\n\nAction<C> b;".toList⟩

/-- A file that is not read to its end, and one that is cut behind its first line. -/
theorem surveyFiles_two_passes_cut :
    (surveyFiles [⟨"Action".toList, 1⟩] .empty [faultyFile, depthFile]).2 =
        ⟨[⟨['A'], ['1']⟩, ⟨['C'], ['3']⟩]⟩ ∧
      (surveyFiles [⟨"Action".toList, 1⟩] .empty
        [faultyFile, ⟨.ofString "depth.hpp", "#define C 3 // depth".toList⟩,
          ⟨.ofString "boat.cpp", "\nAction<C> b;".toList⟩]).2 =
        (surveyFiles [⟨"Action".toList, 1⟩] .empty [faultyFile, depthFile]).2 := by
  have hpasses : depthFile.Passes [⟨"Action".toList, 1⟩] :=
    UsageFile.all_isOk_iff.mp (by decide +kernel)
  have hcuts := UsageFile.CutsInto.intro (.ofString "boat.cpp") (.ofString "depth.hpp")
    (.ofString "boat.cpp") "#define C 3 // depth".toList "\nAction<C> b;".toList
    (.inr rfl : IsBreak "\r\n".toList) (.inl rfl)
  obtain ⟨-, htable, hcut⟩ :=
    surveyFiles_two_passes [⟨"Action".toList, 1⟩] .empty [faultyFile, depthFile]
  refine ⟨htable.trans (by decide +kernel), ?_⟩
  exact (hcut [faultyFile] depthFile [] _ _ rfl hpasses hcuts).1

end ExplicitInstantiation
