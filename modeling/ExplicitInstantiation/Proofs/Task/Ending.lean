import ExplicitInstantiation.Task.Run
import ExplicitInstantiation.Proofs.Files.Store
import ExplicitInstantiation.Proofs.Traversal

/-!
# What a task comes to

A task reads its declarations file, its usage files and its target, and only then does it do
anything. `Task.findings` is what the declarations and usage files amount to, as a function of
their texts; it looks neither at the target nor at the mode. `Task.Ends` lists, rule by rule, what
can be left to do after the readings: nothing, with a report or a fault, or one replacement of the
target after which nothing follows. `ends_steps` says that these rules are all.

Every statement about runs of tasks rests on that list and on `run_eq` and `attempts_eq`, which say
that the readings contribute nothing else. In particular the result of a task and what it writes are
settled by its files and by the answer to its replacement (`Task.concluded`, `Task.written?`), and
by nothing else (`result_eq`).
-/

namespace ExplicitInstantiation

namespace Task

/-! ### Findings -/

/-- What the declarations and usage files of a task amount to. -/
structure Findings where
  /-- The template classes declared. -/
  classes : List TemplateClass
  /-- The sites and constants of the usage files. -/
  usage : Usage
  /-- The instantiations that the sites stand for. -/
  instantiations : Instantiations

/-- What usage files yield in order, when `view` has their texts. -/
def surveyUsages (view : Path → Except FileFault Text) (classes : List TemplateClass) :
    List Path → Usage → Except TaskFault Usage
  | [], usage => .ok usage
  | path :: paths, usage =>
    match view path with
    | .error fault => .error (.unreadable path fault)
    | .ok content =>
      let survey := surveyFile classes usage.constants path content
      match survey.sites with
      | .error fault => .error (.tooFewArguments fault)
      | .ok sites => surveyUsages view classes paths ⟨usage.sites ++ sites, survey.constants⟩

/-- The findings of a task, when `view` has the texts of the files, or the first fault. -/
def findings (task : Task) (view : Path → Except FileFault Text) : Except TaskFault Findings :=
  match task.check with
  | .error fault => .error fault
  | .ok () =>
    match view task.pipeline.declarations with
    | .error fault => .error (.unreadable task.pipeline.declarations fault)
    | .ok header =>
      match surveyUsages view (declaredClasses header) task.pipeline.usages ⟨[], .empty⟩ with
      | .error fault => .error fault
      | .ok usage =>
        match resolveSites usage.constants usage.sites with
        | .error fault => .error (.unfoldable fault)
        | .ok instantiations => .ok ⟨declaredClasses header, usage, instantiations⟩

/-- The report on findings. -/
def reportOn (task : Task) (found : Findings) (status : Status) : Report :=
  task.report found.classes found.usage found.instantiations status

/-- A report has the status that it is made with. -/
@[simp] theorem reportOn_status (task : Task) (found : Findings) (status : Status) :
    (task.reportOn found status).status = status := rfl

/-- The files that the findings of a task are about. -/
def inputs (task : Task) : List Path :=
  task.pipeline.declarations :: task.pipeline.usages

/-- The files that a task uses. -/
def files (task : Task) : List Path :=
  task.pipeline.target :: task.inputs

/-- What is surveyed depends only on the usage files. -/
theorem surveyUsages_congr {view other : Path → Except FileFault Text}
    (classes : List TemplateClass) {paths : List Path} (h : ∀ path ∈ paths, view path = other path)
    (usage : Usage) :
    surveyUsages view classes paths usage = surveyUsages other classes paths usage := by
  induction paths generalizing usage with
  | nil => rfl
  | cons path paths ih =>
    have hrest := ih fun p hp => h p (List.mem_cons_of_mem path hp)
    unfold surveyUsages
    rw [h path List.mem_cons_self]
    split
    · rfl
    · simp only [hrest]

/-- Findings depend on the texts of the input files and on nothing else. -/
theorem findings_congr {task : Task} {view other : Path → Except FileFault Text}
    (h : ∀ path ∈ task.inputs, view path = other path) :
    task.findings view = task.findings other := by
  have husages : ∀ path ∈ task.pipeline.usages, view path = other path :=
    fun path hp => h path (List.mem_cons_of_mem _ hp)
  unfold findings
  rw [h task.pipeline.declarations List.mem_cons_self]
  simp only [surveyUsages_congr _ husages]

/-- The task of doing something else about the same files. -/
def withMode (task : Task) (mode : Mode) : Task :=
  { task with mode := mode }

/-- Findings do not depend on what is to be done about them. -/
theorem findings_withMode (task : Task) (mode : Mode) (view : Path → Except FileFault Text) :
    (task.withMode mode).findings view = task.findings view := rfl

/-- A task with findings has passed its check. -/
theorem check_of_findings {task : Task} {view : Path → Except FileFault Text} {found : Findings}
    (h : task.findings view = .ok found) : task.check = .ok () := by
  unfold findings at h
  split at h
  · cases h
  · assumption

/-- A task with findings has a marker that passes its check. -/
theorem checkMarker_of_findings {task : Task} {view : Path → Except FileFault Text}
    {found : Findings} (h : task.findings view = .ok found) :
    checkMarker task.marker = .ok () := by
  have hcheck := check_of_findings h
  unfold check at hcheck
  split at hcheck
  · cases hcheck
  split at hcheck
  · cases hcheck
  split at hcheck
  · cases hcheck
  rcases hmarker : checkMarker task.marker with fault | ⟨⟩
  · rw [hmarker] at hcheck
    cases hcheck
  · rfl

/-! ### Endings -/

/-- The target with its block brought up to date. -/
def updated (task : Task) (existing : Text) (found : Findings) : Text :=
  Block.update task.marker existing found.instantiations

/-- What is left to do when all readings have been answered by `view`. -/
inductive Ends (task : Task) (view : Path → Except FileFault Text) : Steps → Prop where
  /-- There are no findings. -/
  | noFindings {fault : TaskFault} (hfault : task.findings view = .error fault) :
    Ends task view (fail fault)
  /-- The target cannot be read. -/
  | noTarget {found : Findings} {fault : FileFault} (hfound : task.findings view = .ok found)
    (htarget : view task.pipeline.target = .error fault) :
    Ends task view (fail (.unreadable task.pipeline.target fault))
  /-- The target is up to date. -/
  | unchanged {found : Findings} {existing : Text} (hfound : task.findings view = .ok found)
    (htarget : view task.pipeline.target = .ok existing)
    (hsame : task.updated existing found = existing) :
    Ends task view (.done (.ok (task.reportOn found .unchanged)))
  /-- The target is not up to date, which is a fault. -/
  | outOfDate {found : Findings} {existing : Text} (hfound : task.findings view = .ok found)
    (htarget : view task.pipeline.target = .ok existing)
    (hdiffers : task.updated existing found ≠ existing) (hmode : task.mode = .check) :
    Ends task view (fail (.outOfDate task.pipeline.target))
  /-- The target is not up to date, which is reported. -/
  | previewed {found : Findings} {existing : Text} (hfound : task.findings view = .ok found)
    (htarget : view task.pipeline.target = .ok existing)
    (hdiffers : task.updated existing found ≠ existing) (hmode : task.mode = .preview) :
    Ends task view (.done (.ok (task.reportOn found .outOfDate)))
  /-- The target is not up to date and is replaced. -/
  | replacing {found : Findings} {existing : Text} (hfound : task.findings view = .ok found)
    (htarget : view task.pipeline.target = .ok existing)
    (hdiffers : task.updated existing found ≠ existing) (hmode : task.mode = .update) :
    Ends task view (.replace task.pipeline.target (task.updated existing found) fun
      | .error fault => fail (.unwritable fault)
      | .ok () => .done (.ok (task.reportOn found .updated)))

/-- A fault does not depend on what is read. -/
theorem afterReads_fail (view : Path → Except FileFault Text) (fault : TaskFault) :
    (fail fault).afterReads view = fail fault := rfl

/-- To read the usage files one by one comes to what a survey of them says. -/
theorem afterReads_readUsages (view : Path → Except FileFault Text)
    (classes : List TemplateClass) (next : Usage → Steps) (paths : List Path) (usage : Usage) :
    (readUsages classes next paths usage).afterReads view =
      match surveyUsages view classes paths usage with
      | .error fault => fail fault
      | .ok usage => (next usage).afterReads view := by
  induction paths generalizing usage with
  | nil => rfl
  | cons path paths ih =>
    rw [readUsages, Procedure.afterReads_read]
    unfold surveyUsages
    rcases view path with fault | content
    · rfl
    · rcases hsites : (surveyFile classes usage.constants path content).sites with fault | sites
      · simp only [hsites, afterReads_fail]
      · simp only [hsites, ih]

/-- With findings, what is left to do is settled by the target and the mode. -/
theorem ends_settleTarget {task : Task} {view : Path → Except FileFault Text} {found : Findings}
    (hfound : task.findings view = .ok found) :
    task.Ends view
      ((task.settleTarget found.instantiations (task.reportOn found)).afterReads view) := by
  rw [settleTarget, Procedure.afterReads_read]
  rcases htarget : view task.pipeline.target with fault | existing
  · exact .noTarget hfound htarget
  · simp only
    split
    next hsame => exact .unchanged hfound htarget hsame
    next hdiffers =>
      rcases hmode : task.mode
      · exact .replacing hfound htarget hdiffers hmode
      · exact .outOfDate hfound htarget hdiffers hmode
      · exact .previewed hfound htarget hdiffers hmode

/-- After its readings a task ends in one of the ways that `Ends` lists. -/
theorem ends_steps (task : Task) (view : Path → Except FileFault Text) :
    task.Ends view (task.steps.afterReads view) := by
  unfold steps
  rcases hcheck : task.check with fault | ⟨⟩
  · exact .noFindings (by simp [findings, hcheck])
  simp only [Procedure.afterReads_read]
  rcases hheader : view task.pipeline.declarations with fault | header
  · exact .noFindings (by simp [findings, hcheck, hheader])
  simp only [afterReads_readUsages]
  rcases husage : surveyUsages view (declaredClasses header) task.pipeline.usages ⟨[], .empty⟩ with
    fault | usage
  · exact .noFindings (by simp [findings, hcheck, hheader, husage])
  rcases hresolve : resolveSites usage.constants usage.sites with fault | instantiations
  · simp only [hresolve]
    exact .noFindings (by simp [findings, hcheck, hheader, husage, hresolve])
  · have hfound : task.findings view = .ok ⟨declaredClasses header, usage, instantiations⟩ := by
      simp [findings, hcheck, hheader, husage, hresolve]
    simp only [hresolve]
    exact ends_settleTarget hfound

/-! ### Runs and readings -/

section run

variable {σ : Type} [Store σ]

/-- A run is what is left to do after the readings. -/
theorem run_eq (task : Task) (store : σ) :
    task.run store = (task.steps.afterReads (Store.read store)).run store :=
  (Procedure.run_afterReads task.steps store).symm

/-- The replacements that a task asks for are those behind its readings. -/
theorem attempts_eq (task : Task) (store : σ) :
    task.steps.attempts store = (task.steps.afterReads (Store.read store)).attempts store :=
  (Procedure.attempts_afterReads task.steps store).symm

end run

/-! ### Results -/

/-- An answer to every text that a target may be replaced by. -/
abbrev Answer := Text → Except WriteFault Unit

/-- What a task goes by when its files have been read: its findings and the text of its target, or
the first fault. -/
def basis (task : Task) (view : Path → Except FileFault Text) :
    Except TaskFault (Findings × Text) :=
  match task.findings view, view task.pipeline.target with
  | .error fault, _ => .error fault
  | .ok _, .error fault => .error (.unreadable task.pipeline.target fault)
  | .ok found, .ok existing => .ok (found, existing)

/-- What a task ends in by its findings and its target, when `answer` tells whether a text can be
put there. -/
def conclusion (task : Task) (answer : Answer) (found : Findings) (existing : Text) :
    Except TaskFault Report :=
  if task.updated existing found = existing then .ok (task.reportOn found .unchanged)
  else
    match task.mode with
    | .update =>
      match answer (task.updated existing found) with
      | .error fault => .error (.unwritable fault)
      | .ok () => .ok (task.reportOn found .updated)
    | .check => .error (.outOfDate task.pipeline.target)
    | .preview => .ok (task.reportOn found .outOfDate)

/-- What a task ends in by its files, when `answer` tells whether a text can be put in its
target. -/
def concluded (task : Task) (view : Path → Except FileFault Text) (answer : Answer) :
    Except TaskFault Report :=
  match task.basis view with
  | .error fault => .error fault
  | .ok (found, existing) => task.conclusion answer found existing

/-- The text that a task puts in its target, if it ends in having updated it. -/
def written? (task : Task) (view : Path → Except FileFault Text) (answer : Answer) : Option Text :=
  match task.basis view, task.concluded view answer with
  | .ok (found, existing), .ok report =>
    if report.status = .updated then some (task.updated existing found) else none
  | _, _ => none

section results

variable {task : Task} {view : Path → Except FileFault Text} {answer : Answer}

/-- A task goes by findings and a target exactly if it has these findings and its target is read. -/
theorem basis_eq_ok_iff {found : Findings} {existing : Text} :
    task.basis view = .ok (found, existing) ↔
      task.findings view = .ok found ∧ view task.pipeline.target = .ok existing := by
  unfold basis
  rcases task.findings view with fault | found'
  · simp
  · rcases view task.pipeline.target with fault | existing' <;> simp

/-- A task that goes by something comes to its conclusion on it. -/
theorem concluded_of_basis {found : Findings} {existing : Text}
    (h : task.basis view = .ok (found, existing)) :
    task.concluded view answer = task.conclusion answer found existing := by
  simp only [concluded, h]

/-- A task with findings and a target that is read comes to its conclusion on these. -/
theorem concluded_of_findings {found : Findings} {existing : Text}
    (hfound : task.findings view = .ok found) (htarget : view task.pipeline.target = .ok existing) :
    task.concluded view answer = task.conclusion answer found existing :=
  concluded_of_basis (basis_eq_ok_iff.mpr ⟨hfound, htarget⟩)

/-- A task whose files have a fault ends in it. -/
theorem concluded_of_basis_error {fault : TaskFault} (h : task.basis view = .error fault) :
    task.concluded view answer = .error fault := by
  simp only [concluded, h]

/-- A text is written by a task that goes by something and reports that it has updated its
target. -/
theorem written?_eq_some_iff {content : Text} :
    task.written? view answer = some content ↔
      ∃ found existing report, task.basis view = .ok (found, existing) ∧
        task.concluded view answer = .ok report ∧ report.status = .updated ∧
        content = task.updated existing found := by
  unfold written?
  constructor
  · intro h
    split at h
    next found existing report hbasis hconcluded =>
      split at h
      next hstatus =>
        cases h
        exact ⟨found, existing, report, hbasis, hconcluded, hstatus, rfl⟩
      next => cases h
    next => cases h
  · rintro ⟨found, existing, report, hbasis, hconcluded, hstatus, rfl⟩
    simp only [hbasis, hconcluded, if_pos hstatus]

/-- A text is written exactly if the task reports that it has updated its target. -/
theorem isSome_written?_iff :
    (task.written? view answer).isSome ↔
      ∃ report, task.concluded view answer = .ok report ∧ report.status = .updated := by
  rw [Option.isSome_iff_exists]
  constructor
  · rintro ⟨content, h⟩
    obtain ⟨-, -, report, -, hconcluded, hstatus, -⟩ := written?_eq_some_iff.mp h
    exact ⟨report, hconcluded, hstatus⟩
  · rintro ⟨report, hconcluded, hstatus⟩
    rcases hbasis : task.basis view with fault | ⟨found, existing⟩
    · rw [concluded_of_basis_error hbasis] at hconcluded
      cases hconcluded
    · exact ⟨_, written?_eq_some_iff.mpr
        ⟨found, existing, report, hbasis, hconcluded, hstatus, rfl⟩⟩

/-- A task that does not report an update writes nothing. -/
theorem written?_eq_none (h : ∀ report, task.concluded view answer = .ok report →
    report.status ≠ .updated) : task.written? view answer = none := by
  rw [← Option.not_isSome_iff_eq_none, isSome_written?_iff]
  rintro ⟨report, hconcluded, hstatus⟩
  exact h report hconcluded hstatus

/-- A task with nothing left to do after its readings ends in what is left, whatever a replacement
would be answered, and writes nothing. -/
theorem Ends.concluded_of_done {result : Except TaskFault Report}
    (h : task.Ends view (.done result)) (answer : Answer) :
    task.concluded view answer = result ∧ task.written? view answer = none := by
  have hresult : task.concluded view answer = result ∧
      ∀ report, result = .ok report → report.status ≠ .updated := by
    cases h with
    | noFindings hfault =>
      refine ⟨concluded_of_basis_error ?_, fun _ hok => nomatch hok⟩
      simp only [basis, hfault]
    | noTarget hfound hfault =>
      refine ⟨concluded_of_basis_error ?_, fun _ hok => nomatch hok⟩
      simp only [basis, hfound, hfault]
    | unchanged hfound htarget hsame =>
      rw [concluded_of_findings hfound htarget, conclusion, if_pos hsame]
      exact ⟨rfl, by rintro report ⟨⟩; exact nofun⟩
    | outOfDate hfound htarget hdiffers hmode =>
      rw [concluded_of_findings hfound htarget, conclusion, if_neg hdiffers, hmode]
      exact ⟨rfl, fun _ hok => nomatch hok⟩
    | previewed hfound htarget hdiffers hmode =>
      rw [concluded_of_findings hfound htarget, conclusion, if_neg hdiffers, hmode]
      exact ⟨rfl, by rintro report ⟨⟩; exact nofun⟩
  refine ⟨hresult.1, written?_eq_none fun report hreport => hresult.2 report ?_⟩
  rw [← hresult.1, hreport]

/-- A task that is to replace its target ends in a fault if that fails, and writes nothing. -/
theorem concluded_of_refused {found : Findings} {existing : Text} {fault : WriteFault}
    (hfound : task.findings view = .ok found)
    (htarget : view task.pipeline.target = .ok existing)
    (hdiffers : task.updated existing found ≠ existing) (hmode : task.mode = .update)
    (hanswer : answer (task.updated existing found) = .error fault) :
    task.concluded view answer = .error (.unwritable fault) ∧
      task.written? view answer = none := by
  have hconcluded : task.concluded view answer = .error (.unwritable fault) := by
    rw [concluded_of_findings hfound htarget, conclusion, if_neg hdiffers, hmode]
    simp only [hanswer]
  refine ⟨hconcluded, written?_eq_none fun report hreport => ?_⟩
  rw [hconcluded] at hreport
  cases hreport

/-- A task that is to replace its target reports the update if that succeeds, and writes the target
brought up to date. -/
theorem concluded_of_replaced {found : Findings} {existing : Text}
    (hfound : task.findings view = .ok found)
    (htarget : view task.pipeline.target = .ok existing)
    (hdiffers : task.updated existing found ≠ existing) (hmode : task.mode = .update)
    (hanswer : answer (task.updated existing found) = .ok ()) :
    task.concluded view answer = .ok (task.reportOn found .updated) ∧
      task.written? view answer = some (task.updated existing found) := by
  have hconcluded : task.concluded view answer = .ok (task.reportOn found .updated) := by
    rw [concluded_of_findings hfound htarget, conclusion, if_neg hdiffers, hmode]
    simp only [hanswer]
  exact ⟨hconcluded, written?_eq_some_iff.mpr
    ⟨found, existing, _, basis_eq_ok_iff.mpr ⟨hfound, htarget⟩, hconcluded, rfl, rfl⟩⟩

end results

/-- A run ends in what its files and the answer of the store settle. -/
theorem result_eq {σ : Type} [Store σ] (task : Task) (store : σ) :
    (task.run store).result =
      task.concluded (Store.read store) (Store.answer store task.pipeline.target) := by
  have hends := task.ends_steps (Store.read store)
  rw [run_eq]
  generalize task.steps.afterReads (Store.read store) = last at hends
  cases last with
  | done result =>
    rw [(hends.concluded_of_done _).1]
    rfl
  | read path next => cases hends
  | probe path next => cases hends
  | replace path content next =>
    cases hends with
    | @replacing found existing hfound htarget hdiffers hmode =>
      rw [Procedure.run]
      rcases hreplace : Store.replace store task.pipeline.target (task.updated existing found) with
        fault | changed
      · have hanswer := Store.answer_of_error hreplace
        rw [(concluded_of_refused hfound htarget hdiffers hmode hanswer).1]
        rfl
      · have hanswer := Store.answer_of_ok hreplace
        rw [(concluded_of_replaced hfound htarget hdiffers hmode hanswer).1]
        rfl

/-! ### Which files are read -/

/-- To settle the target, only the target is read. -/
theorem readsWithin_settleTarget (task : Task) (instantiations : Instantiations)
    (report : Status → Report) {paths : List Path} (h : task.pipeline.target ∈ paths) :
    (task.settleTarget instantiations report).ReadsWithin paths := by
  refine ⟨h, ?_⟩
  rintro (fault | existing)
  · trivial
  · simp only
    split
    · trivial
    · cases task.mode <;> trivial

/-- To read the usage files, only these are read, and what follows them. -/
theorem readsWithin_readUsages {classes : List TemplateClass} {next : Usage → Steps}
    {paths usages : List Path} (husages : ∀ path ∈ usages, path ∈ paths)
    (hnext : ∀ usage, (next usage).ReadsWithin paths) (usage : Usage) :
    (readUsages classes next usages usage).ReadsWithin paths := by
  induction usages generalizing usage with
  | nil => exact hnext usage
  | cons path usages ih =>
    refine ⟨husages path List.mem_cons_self, ?_⟩
    rintro (fault | content)
    · trivial
    · rcases hsites : (surveyFile classes usage.constants path content).sites with fault | sites
      · simp only [hsites]
        trivial
      · simp only [hsites]
        exact ih (fun p hp => husages p (List.mem_cons_of_mem path hp)) _

/-- A task reads its target and its input files. -/
theorem readsWithin_steps (task : Task) :
    task.steps.ReadsWithin task.files := by
  unfold steps
  rcases task.check with fault | ⟨⟩
  · trivial
  refine ⟨List.mem_cons_of_mem _ List.mem_cons_self, ?_⟩
  rintro (fault | header)
  · trivial
  · refine readsWithin_readUsages ?_ ?_ _
    · exact fun path hp => List.mem_cons_of_mem _ (List.mem_cons_of_mem _ hp)
    · intro usage
      split
      · trivial
      · exact task.readsWithin_settleTarget _ _ List.mem_cons_self

/-! ### A small task -/

/-- A header, a file that uses its class with a constant, and a target without a block. -/
def sampleFiles : Memory := ⟨[
  (.ofString "action.hpp", "template<typename T, int N> class Action;\n".toList),
  (.ofString "use.cpp", "#define SIZE 5\nAction<int,SIZE> a;\n".toList),
  (.ofString "action.cpp", "#include \"action.hpp\"\n".toList)]⟩

/-- Keeping the target of `sampleFiles` up to date. -/
def sampleTask : Task where
  pipeline := ⟨.ofString "action.hpp", [.ofString "use.cpp"], .ofString "action.cpp"⟩
  marker := defaultMarker
  mode := .update

/-- What the first run of the small task reports. -/
def sampleReport : Report where
  target := .ofString "action.cpp"
  classes := 1
  constants := 1
  sites := 1
  declarations := ["template class Action<int,5>;".toList]
  status := .updated

/-- What the first run of the small task leaves in its target. -/
def sampleContent : Text :=
  ("#include \"action.hpp\"\n\n\n\n// Generated with 'templinst'\n" ++
    "// Do not add or modify anything after these comments\n" ++
    "template class Action<int,5>;\n").toList

/-- The first run of the small task succeeds with its report. -/
theorem result_sampleTask : (sampleTask.run sampleFiles).result = .ok sampleReport :=
  toOption_eq_some_iff.mp (by decide +kernel)

/-- The small task brings its target, as it is at first, to that content with the declarations of
its report. -/
theorem updated_sampleTask {existing : Text} {found : Findings}
    (hexisting : Store.read sampleFiles (.ofString "action.cpp") = .ok existing)
    (hfound : sampleReport.declarations = found.instantiations.declarations) :
    Block.update defaultMarker existing found.instantiations = sampleContent := by
  have hread : Store.read sampleFiles (.ofString "action.cpp") =
      .ok "#include \"action.hpp\"\n".toList := rfl
  rw [hread] at hexisting
  cases hexisting
  rw [Block.update, Block.render, ← hfound]
  decide +kernel

end Task

end ExplicitInstantiation
