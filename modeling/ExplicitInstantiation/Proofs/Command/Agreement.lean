import ExplicitInstantiation.Command.Run
import ExplicitInstantiation.Proofs.Task.Concurrent
import ExplicitInstantiation.Proofs.Task.Regeneration

/-!
# The commands agree

The tasks of a command can be run in three modes, and a run in one of them tells what a run in
another one would come to. What a task goes by (`Task.basis`) does not depend on the mode, and what
it ends in is settled by that, by the mode and, in an update, by the answer to its replacement. So
the three results agree for every single task, whatever that answer is (`Task.agrees_of_settled`),
and since independent tasks see their files as they were at the start, for every task of a command.
A check succeeds as a whole exactly if an update would succeed and change nothing
(`Command.agree_of_finishes`).
-/

namespace ExplicitInstantiation

namespace Task

variable {σ : Type} [Store σ] {paths : Path → Prop}

/-! ### One task in every mode -/

/-- To check a task does not find its target out of date. -/
theorem check_ne_outOfDate (task : Task) (target : Path) :
    task.check ≠ .error (.outOfDate target) := by
  unfold check
  split
  · exact nofun
  split
  · exact nofun
  split
  · exact nofun
  · cases checkMarker task.marker <;> exact nofun

/-- To survey the usage files does not find a target out of date. -/
theorem surveyUsages_ne_outOfDate {view : Path → Except FileFault Text}
    {classes : List TemplateClass} {paths : List Path} {usage : Usage} (target : Path) :
    surveyUsages view classes paths usage ≠ .error (.outOfDate target) := by
  induction paths generalizing usage with
  | nil =>
    intro h
    cases h
  | cons path paths ih =>
    unfold surveyUsages
    split
    · intro h
      cases h
    · simp only
      split
      · intro h
        cases h
      · exact ih

/-- No findings say that a target is out of date. -/
theorem findings_ne_outOfDate (task : Task) (view : Path → Except FileFault Text) (target : Path) :
    task.findings view ≠ .error (.outOfDate target) := by
  intro h
  unfold findings at h
  split at h
  next hcheck =>
    cases h
    exact task.check_ne_outOfDate target hcheck
  split at h
  · cases h
  split at h
  next hsurvey =>
    cases h
    exact surveyUsages_ne_outOfDate target hsurvey
  split at h <;> cases h

/-- Before the target is compared, no fault says that it is out of date. -/
theorem basis_ne_outOfDate (task : Task) (view : Path → Except FileFault Text) (target : Path) :
    task.basis view ≠ .error (.outOfDate target) := by
  intro h
  unfold basis at h
  split at h
  next hfault =>
    cases h
    exact task.findings_ne_outOfDate view target hfault
  · cases h
  · cases h

/-- Whether the target holds, in `final`, the text that its block follows in `start`, and behind it
a block of just the given declarations. -/
def Declares (task : Task) (start final : σ) (declarations : List Text) : Prop :=
  ∃ existing, Store.read start task.pipeline.target = .ok existing ∧
    Store.read final task.pipeline.target =
      .ok (Block.bodyText task.marker existing ++ (task.marker ++ '\n' :: Block.notice ++
        '\n' :: declarations.flatMap (· ++ ['\n'])))

/-- How the results of a task in the three modes go together, when the files were those of `start`
at the beginning and the update has left those of `final`. -/
structure Agrees (task : Task) (start final : σ)
    (checked previewed updated : Except TaskFault Report) : Prop where
  /-- The check finds the target out of date exactly if the preview reports so. -/
  outOfDate_iff : checked = .error (.outOfDate task.pipeline.target) ↔
    ∃ report, previewed = .ok report ∧ report.status = .outOfDate
  /-- A check that succeeds has found the target up to date. -/
  status_eq : ∀ report, checked = .ok report → report.status = .unchanged
  /-- In one mode the target is reported as unchanged exactly if it is in the others. -/
  unchanged_iff : ∀ report, report.status = .unchanged →
    (checked = .ok report ↔ previewed = .ok report) ∧ (checked = .ok report ↔ updated = .ok report)
  /-- Another fault of the check is a fault of the update. -/
  checked_fault : ∀ fault, checked = .error fault → fault ≠ .outOfDate task.pipeline.target →
    updated = .error fault
  /-- A fault of the preview is a fault of the update. -/
  previewed_fault : ∀ fault, previewed = .error fault → updated = .error fault
  /-- An update that succeeds reports the declarations of the preview and puts them in the
  target. -/
  declarations : ∀ preview report, previewed = .ok preview → updated = .ok report →
    report.declarations = preview.declarations ∧ task.Declares start final preview.declarations

section

variable {task : Task} {view : Path → Except FileFault Text} {answer : Answer}

/-- A report is one on the findings, and says whether the target is up to date. -/
theorem exists_reportOn_of_conclusion {found : Findings} {existing : Text} {report : Report}
    (h : task.conclusion answer found existing = .ok report) :
    ∃ status, report = task.reportOn found status ∧
      (status = .unchanged ↔ task.updated existing found = existing) := by
  unfold conclusion at h
  split at h
  next hsame => exact ⟨.unchanged, (Except.ok.inj h).symm, by simp [hsame]⟩
  next hdiffers =>
    split at h
    · split at h
      · cases h
      · exact ⟨.updated, (Except.ok.inj h).symm, by simp [hdiffers]⟩
    · cases h
    · exact ⟨.outOfDate, (Except.ok.inj h).symm, by simp [hdiffers]⟩

/-- Files with a fault make a task end in it in every mode. -/
theorem concluded_withMode_of_error {fault : TaskFault} (h : task.basis view = .error fault)
    (mode : Mode) (answer : Answer) :
    (task.withMode mode).concluded view answer = .error fault := by
  have hbasis : (task.withMode mode).basis view = .error fault := h
  exact concluded_of_basis_error hbasis

/-- What a task goes by is the same in every mode. -/
theorem concluded_withMode_of_ok {found : Findings} {existing : Text}
    (h : task.basis view = .ok (found, existing)) (mode : Mode) (answer : Answer) :
    (task.withMode mode).concluded view answer =
      (task.withMode mode).conclusion answer found existing := by
  have hbasis : (task.withMode mode).basis view = .ok (found, existing) := h
  exact concluded_of_basis hbasis

/-- In a mode other than an update nothing is written. -/
theorem written?_withMode_eq_none {mode : Mode} (hmode : mode ≠ .update) (task : Task)
    (view : Path → Except FileFault Text) (answer : Answer) :
    (task.withMode mode).written? view answer = none := by
  refine written?_eq_none fun report hreport => ?_
  rcases hbasis : task.basis view with fault | ⟨found, existing⟩
  · rw [concluded_withMode_of_error hbasis] at hreport
    cases hreport
  · rw [concluded_withMode_of_ok hbasis, conclusion] at hreport
    split at hreport
    · cases hreport
      rw [reportOn_status]
      decide
    · cases mode with
      | update => exact absurd rfl hmode
      | check => cases hreport
      | preview =>
        cases hreport
        rw [reportOn_status]
        decide

/-- In a mode other than an update no replacement is asked for, so no answer matters. -/
theorem concluded_withMode_congr {mode : Mode} (hmode : mode ≠ .update) (task : Task)
    (view : Path → Except FileFault Text) (answer other : Answer) :
    (task.withMode mode).concluded view answer = (task.withMode mode).concluded view other := by
  rcases hbasis : task.basis view with fault | ⟨found, existing⟩
  · rw [concluded_withMode_of_error hbasis, concluded_withMode_of_error hbasis]
  · rw [concluded_withMode_of_ok hbasis, concluded_withMode_of_ok hbasis]
    cases mode with
    | update => exact absurd rfl hmode
    | check => rfl
    | preview => rfl

/-- What an update leaves in the target: what it writes there, or what the target held. -/
def leaves (task : Task) (view : Path → Except FileFault Text) (answer : Answer) :
    Except FileFault Text :=
  ((task.withMode .update).written? view answer).elim (view task.pipeline.target) .ok

/-- An update that succeeds went by its findings and its target, and left the target up to date. -/
theorem basis_of_update {report : Report}
    (h : (task.withMode .update).concluded view answer = .ok report) :
    ∃ found existing status, task.basis view = .ok (found, existing) ∧
      view task.pipeline.target = .ok existing ∧ report = task.reportOn found status ∧
      task.leaves view answer = .ok (task.updated existing found) := by
  rcases hbasis : task.basis view with fault | ⟨found, existing⟩
  · rw [concluded_withMode_of_error hbasis] at h
    cases h
  obtain ⟨hfound, htarget⟩ := basis_eq_ok_iff.mp hbasis
  have hfound' : (task.withMode .update).findings view = .ok found := hfound
  by_cases hsame : task.updated existing found = existing
  · -- the target was up to date, and nothing was written
    have hunchanged : (task.withMode .update).concluded view answer =
        .ok (task.reportOn found .unchanged) :=
      (concluded_withMode_of_ok hbasis .update answer).trans (if_pos hsame)
    rw [h] at hunchanged
    cases hunchanged
    have hnone : (task.withMode .update).written? view answer = none := by
      refine written?_eq_none fun report hreport => ?_
      rw [h] at hreport
      cases hreport
      exact nofun
    refine ⟨found, existing, .unchanged, rfl, htarget, rfl, ?_⟩
    rw [leaves, hnone, hsame]
    exact htarget
  · have hdiffers : (task.withMode .update).updated existing found ≠ existing := hsame
    rcases hanswer : answer ((task.withMode .update).updated existing found) with fault | ⟨⟩
    · rw [(concluded_of_refused hfound' htarget hdiffers rfl hanswer).1] at h
      cases h
    · obtain ⟨hresult, hwritten⟩ := concluded_of_replaced hfound' htarget hdiffers rfl hanswer
      rw [hresult] at h
      cases h
      refine ⟨found, existing, .updated, rfl, htarget, rfl, ?_⟩
      rw [leaves, hwritten]
      rfl

/-- The declarations of a preview are those that the update reports, and those that it puts in the
target. -/
theorem declarations_of_settled {start final : σ} {preview report : Report} {other : Answer}
    (hfinal : Store.read final task.pipeline.target = task.leaves (Store.read start) answer)
    (hpreview : (task.withMode .preview).concluded (Store.read start) other = .ok preview)
    (hreport : (task.withMode .update).concluded (Store.read start) answer = .ok report) :
    report.declarations = preview.declarations ∧
      task.Declares start final preview.declarations := by
  obtain ⟨found, existing, status, hbasis, htarget, rfl, hleft⟩ := basis_of_update hreport
  rw [concluded_withMode_of_ok hbasis] at hpreview
  obtain ⟨status', rfl, -⟩ := exists_reportOn_of_conclusion hpreview
  exact ⟨rfl, existing, htarget, hfinal.trans hleft⟩

/-- Where an update succeeds and leaves the target as it is, a check succeeds. -/
theorem check_ok_of_kept {report : Report} (other : Answer)
    (hreport : (task.withMode .update).concluded view answer = .ok report)
    (hkept : task.leaves view answer = view task.pipeline.target) :
    ∃ report, (task.withMode .check).concluded view other = .ok report := by
  obtain ⟨found, existing, status, hbasis, htarget, -, hleft⟩ := basis_of_update hreport
  rw [hleft, htarget] at hkept
  have hsame : task.updated existing found = existing := Except.ok.inj hkept
  exact ⟨_, (concluded_withMode_of_ok hbasis .check other).trans (if_pos hsame)⟩

/-- Where a check succeeds, the update succeeds with the same report, whatever would be answered,
and writes nothing. -/
theorem update_of_check_ok {report : Report} {other : Answer}
    (h : (task.withMode .check).concluded view other = .ok report) (answer : Answer) :
    (task.withMode .update).concluded view answer = .ok report ∧
      (task.withMode .update).written? view answer = none := by
  have hupdate : (task.withMode .update).concluded view answer = .ok report ∧
      report.status = .unchanged := by
    rcases hbasis : task.basis view with fault | ⟨found, existing⟩
    · rw [concluded_withMode_of_error hbasis] at h
      cases h
    rw [concluded_withMode_of_ok hbasis] at h ⊢
    by_cases hsame : task.updated existing found = existing
    · have hunchanged : (task.withMode .check).conclusion other found existing =
          .ok (task.reportOn found .unchanged) := if_pos hsame
      rw [h] at hunchanged
      cases hunchanged
      exact ⟨if_pos hsame, rfl⟩
    · have houtOfDate : (task.withMode .check).conclusion other found existing =
          .error (.outOfDate task.pipeline.target) := if_neg hsame
      rw [h] at houtOfDate
      cases houtOfDate
  refine ⟨hupdate.1, written?_eq_none fun report' hreport => ?_⟩
  rw [hupdate.1] at hreport
  cases hreport
  rw [hupdate.2]
  exact nofun

end

/-- What a task ends in in the three modes agrees, whatever its replacement is answered. -/
theorem agrees_of_settled (task : Task) {start final : σ} (answer other : Answer)
    (hfinal : Store.read final task.pipeline.target = task.leaves (Store.read start) answer) :
    task.Agrees start final ((task.withMode .check).concluded (Store.read start) other)
      ((task.withMode .preview).concluded (Store.read start) other)
      ((task.withMode .update).concluded (Store.read start) answer) := by
  have hdeclarations (preview report : Report)
      (hpreview : (task.withMode .preview).concluded (Store.read start) other = .ok preview)
      (hreport : (task.withMode .update).concluded (Store.read start) answer = .ok report) :=
    declarations_of_settled hfinal hpreview hreport
  rcases hbasis : task.basis (Store.read start) with fault | ⟨found, existing⟩
  · -- All three end in the same fault.
    have hne : fault ≠ .outOfDate task.pipeline.target := by
      rintro rfl
      exact task.basis_ne_outOfDate _ _ hbasis
    refine ⟨?_, ?_, ?_, ?_, ?_, hdeclarations⟩ <;>
      simp [concluded_withMode_of_error hbasis, hne]
  have hresult := concluded_withMode_of_ok hbasis
  by_cases hsame : task.updated existing found = existing
  · -- All three end in the same report.
    have hall (mode : Mode) (answer : Answer) :
        (task.withMode mode).concluded (Store.read start) answer =
          .ok (task.reportOn found .unchanged) :=
      (hresult mode answer).trans (if_pos hsame)
    refine ⟨?_, ?_, ?_, ?_, ?_, hdeclarations⟩ <;> simp [hall]
  · -- The target is out of date, and the update reports it as updated or cannot write.
    have hcheck : (task.withMode .check).concluded (Store.read start) other =
        .error (.outOfDate task.pipeline.target) :=
      (hresult .check other).trans (if_neg hsame)
    have hpreview : (task.withMode .preview).concluded (Store.read start) other =
        .ok (task.reportOn found .outOfDate) :=
      (hresult .preview other).trans (if_neg hsame)
    have hchanged (mode : Mode) (answer : Answer) (report : Report)
        (hstatus : report.status = .unchanged) :
        (task.withMode mode).concluded (Store.read start) answer ≠ .ok report := by
      intro hreport
      rw [hresult mode] at hreport
      obtain ⟨status, rfl, hiff⟩ := exists_reportOn_of_conclusion hreport
      exact hsame (hiff.mp hstatus)
    refine ⟨?_, ?_, ?_, ?_, ?_, hdeclarations⟩
    · simp [hcheck, hpreview]
    · simp [hcheck]
    · intro report hstatus
      simp [hchanged _ _ report hstatus]
    · simp [hcheck]
    · simp [hpreview]

/-! ### Tasks side by side in every mode -/

/-- Tasks that are all to be run in one mode. -/
def inMode (mode : Mode) (tasks : List Task) : List Task :=
  tasks.map (·.withMode mode)

/-- Tasks that are independent when they update their targets are so in every mode. -/
theorem Independent.inMode {tasks : List Task} (h : Independent (inMode .update tasks))
    (mode : Mode) : Independent (inMode mode tasks) := by
  intro i j task other hij htask hother _ path hpath
  simp only [Task.inMode, List.getElem?_map, Option.map_eq_some_iff] at htask hother
  obtain ⟨task, htask, rfl⟩ := htask
  obtain ⟨other, hother, rfl⟩ := hother
  exact h i j (task.withMode .update) (other.withMode .update) hij
    (by simp [Task.inMode, htask]) (by simp [Task.inMode, hother]) rfl path hpath

/-- What tasks that were run side by side have come to. -/
structure Finish (σ : Type) where
  /-- The results in order. -/
  results : List (Except TaskFault Report)
  /-- The store at the end. -/
  store : σ

/-- An interleaving that comes to its end. -/
def Finishes (pool : Pool σ (Except TaskFault Report)) (finish : Finish σ) : Prop :=
  Relation.ReflTransGen Pool.Step pool ⟨finish.results.map .done, finish.store⟩

/-- Tasks that are about to be run side by side. -/
def launch (mode : Mode) (tasks : List Task) (start : σ) : Pool σ (Except TaskFault Report) :=
  ⟨(inMode mode tasks).map steps, start⟩

/-- The tasks run one after the other. -/
def inTurn (mode : Mode) (tasks : List Task) (start : σ) : Finish σ :=
  ⟨(runAll (inMode mode tasks) start).result, (runAll (inMode mode tasks) start).store⟩

/-- To run the tasks one after the other brings them to their end. -/
theorem finishes_inTurn (mode : Mode) (tasks : List Task) (start : σ) :
    Finishes (launch mode tasks start) (inTurn mode tasks start) :=
  Pool.reaches_runAll _ _

/-- Every interleaving can be brought to its end. -/
theorem exists_finishes (pool : Pool σ (Except TaskFault Report)) :
    ∃ finish, Finishes pool finish := by
  obtain ⟨results, store, h⟩ := pool.exists_finish
  exact ⟨⟨results, store⟩, h⟩

section

variable [LawfulStore σ paths] {mode : Mode} {tasks : List Task} {start : σ}
  (hpaths : ∀ task ∈ tasks, ∀ path ∈ task.files, paths path)
  (hindependent : Independent (inMode .update tasks))

include hpaths

/-- In another mode the tasks use the same files. -/
theorem paths_inMode (mode : Mode) :
    ∀ task ∈ inMode mode tasks, ∀ path ∈ task.files, paths path := by
  rw [inMode, List.forall_mem_map]
  exact hpaths

include hindependent

/-- Every task ends as its files at the start and some answer to its replacement settle. -/
theorem settled_of_finishes {finish : Finish σ} (h : Finishes (launch mode tasks start) finish)
    {i : Nat} {task : Task} (htask : tasks[i]? = some task) :
    ∃ answer, finish.results[i]? = some ((task.withMode mode).concluded (Store.read start) answer) ∧
      Store.read finish.store task.pipeline.target =
        ((task.withMode mode).written? (Store.read start) answer).elim
          (Store.read start task.pipeline.target) .ok := by
  have hends := endsBy_of_reaches steady_true (fun _ _ => trivial) (hindependent.inMode mode)
    (paths_inMode hpaths mode) h
  have htask' : (inMode mode tasks)[i]? = some (task.withMode mode) := by
    rw [inMode, List.getElem?_map, htask]
    rfl
  obtain ⟨hi, -⟩ := List.getElem?_eq_some_iff.mp htask'
  have hresult := List.getElem?_eq_getElem (hends.length_eq ▸ hi : i < finish.results.length)
  obtain ⟨answer, -, hdone, htarget⟩ := hends.each i _ _ htask' hresult
  have hpath : paths task.pipeline.target :=
    hpaths task (List.mem_of_getElem? htask) _ List.mem_cons_self
  exact ⟨answer, by rw [hresult, Procedure.done.inj hdone], htarget _ hpath rfl⟩

/-- A task that does not update its target ends as if it had been run alone. -/
theorem result_of_finishes (hmode : mode ≠ .update) {finish : Finish σ}
    (h : Finishes (launch mode tasks start) finish) {i : Nat} {task : Task}
    (htask : tasks[i]? = some task) (answer : Answer) :
    finish.results[i]? = some ((task.withMode mode).concluded (Store.read start) answer) := by
  obtain ⟨other, hresult, -⟩ := settled_of_finishes hpaths hindependent h htask
  rw [hresult, concluded_withMode_congr hmode task _ other answer]

/-- Where no task comes to write anything, the store stays as it is. -/
theorem store_of_finishes {finish : Finish σ} (h : Finishes (launch mode tasks start) finish)
    (hnone : ∀ task ∈ tasks, ∀ answer,
      (task.withMode mode).written? (Store.read start) answer = none) : finish.store = start := by
  refine store_eq_of_reaches (hindependent.inMode mode) (paths_inMode hpaths mode) ?_ h
  rw [inMode, List.forall_mem_map]
  exact hnone

/-- The results at the end are those of the tasks. -/
theorem length_of_finishes {finish : Finish σ} (h : Finishes (launch mode tasks start) finish) :
    finish.results.length = tasks.length := by
  have hends := endsBy_of_reaches steady_true (fun _ _ => trivial) (hindependent.inMode mode)
    (paths_inMode hpaths mode) h
  exact hends.length_eq.trans (List.length_map _)

/-- All results have a property exactly if that of every task has it. -/
theorem forall_results_iff {finish : Finish σ} (h : Finishes (launch mode tasks start) finish)
    (holds : Except TaskFault Report → Prop) :
    (∀ result ∈ finish.results, holds result) ↔
      ∀ (i : Nat) (task : Task) (result : Except TaskFault Report), tasks[i]? = some task →
        finish.results[i]? = some result → holds result := by
  constructor
  · intro hall i task result _ hresult
    exact hall result (List.mem_of_getElem? hresult)
  · intro heach result hmem
    obtain ⟨i, hresult⟩ := List.getElem?_of_mem hmem
    obtain ⟨hi, -⟩ := List.getElem?_eq_some_iff.mp hresult
    have hi' : i < tasks.length := length_of_finishes hpaths hindependent h ▸ hi
    exact heach i tasks[i] result (List.getElem?_eq_getElem hi') hresult

/-- Checks of all tasks succeed exactly if their updates do and leave the files as they are. -/
theorem forall_check_ok_iff {checked updated : Finish σ}
    (hchecked : Finishes (launch .check tasks start) checked)
    (hupdated : Finishes (launch .update tasks start) updated) :
    (∀ result ∈ checked.results, ∃ report, result = .ok report) ↔
      (∀ result ∈ updated.results, ∃ report, result = .ok report) ∧
        ∀ path, Store.read updated.store path = Store.read start path := by
  have hmode : Mode.check ≠ .update := by decide
  rw [forall_results_iff hpaths hindependent hchecked,
    forall_results_iff hpaths hindependent hupdated]
  constructor
  · intro hall
    have hupdate (i : Nat) (task : Task) (htask : tasks[i]? = some task) (answer : Answer) :
        ∃ report, (task.withMode .update).concluded (Store.read start) answer = .ok report ∧
          (task.withMode .update).written? (Store.read start) answer = none := by
      have hresult := result_of_finishes hpaths hindependent hmode hchecked htask answer
      obtain ⟨report, hreport⟩ := hall i task _ htask hresult
      exact ⟨report, update_of_check_ok hreport answer⟩
    have hstore : updated.store = start := by
      refine store_of_finishes hpaths hindependent hupdated fun task hmem answer => ?_
      obtain ⟨i, htask⟩ := List.getElem?_of_mem hmem
      obtain ⟨-, -, hnone⟩ := hupdate i task htask answer
      exact hnone
    refine ⟨fun i task result htask hresult => ?_, fun path => by rw [hstore]⟩
    obtain ⟨answer, hanswer, -⟩ := settled_of_finishes hpaths hindependent hupdated htask
    obtain ⟨report, hreport, -⟩ := hupdate i task htask answer
    rw [hresult, hreport] at hanswer
    exact ⟨report, Option.some.inj hanswer⟩
  · rintro ⟨hall, hfiles⟩ i task result htask hresult
    obtain ⟨answer, hanswer, hleft⟩ := settled_of_finishes hpaths hindependent hupdated htask
    obtain ⟨report, hreport⟩ := hall i task _ htask hanswer
    have hkept : task.leaves (Store.read start) answer = Store.read start task.pipeline.target :=
      hleft.symm.trans (hfiles task.pipeline.target)
    rw [result_of_finishes hpaths hindependent hmode hchecked htask answer] at hresult
    cases hresult
    exact check_ok_of_kept answer hreport hkept

end

end Task

/-! ### Commands -/

/-- Reports are collected exactly if every task has one. -/
theorem exists_collect_eq_ok_iff {results : List (Except TaskFault Report)} :
    (∃ reports, collect results = .ok reports) ↔
      ∀ result ∈ results, ∃ report, result = .ok report := by
  induction results with
  | nil => simp [collect]
  | cons result results ih =>
    rw [List.forall_mem_cons, ← ih]
    rcases result with fault | report <;> rcases hrest : collect results with faults | reports <;>
      simp [collect, hrest]

namespace Command

/-- A command succeeds exactly if all its tasks do. -/
theorem code_outcome_eq_zero_iff (command : Command)
    (results : List (Except TaskFault Report)) :
    (command.outcome results).code = 0 ↔ ∀ result ∈ results, ∃ report, result = .ok report := by
  rw [← exists_collect_eq_ok_iff, outcome]
  rcases collect results with faults | reports <;> simp [failedOutcome]

/-- A command runs the tasks that it finds one after the other, and what it comes to is what their
results come to. -/
theorem run_steps {σ : Type} [Store σ] {workingDirectory : Path} {command : Command} {start : σ}
    {tasks : List Task} {found : Procedure.Run σ (Except Failure (List Task))}
    (hfound : (findTasks workingDirectory command.inputs command.mode).run start = found)
    (htasks : found.result = .ok tasks) :
    (command.steps workingDirectory).run start =
      ⟨command.outcome (Task.runAll tasks found.store).result,
        (Task.runAll tasks found.store).store,
        found.replaced ++ (Task.runAll tasks found.store).replaced⟩ := by
  subst hfound
  simp only [steps, Procedure.run_bind, htasks, Procedure.run_sequence, Procedure.run_done,
    List.append_nil]
  rfl

/-- How a check, a preview and an update of the same tasks go together, when the files were those of
`start` before each of them. -/
structure Agree {σ : Type} [Store σ] (inputs : Inputs) (tasks : List Task) (start : σ)
    (checked previewed updated : Task.Finish σ) : Prop where
  /-- The check succeeds exactly if the update does and changes no file. -/
  success_iff : ((generate inputs true).outcome checked.results).code = 0 ↔
    ((generate inputs false).outcome updated.results).code = 0 ∧
      ∀ path, Store.read updated.store path = Store.read start path
  /-- The results of every task agree. -/
  each : ∀ (i : Nat) (task : Task), tasks[i]? = some task →
    ∃ check preview update, checked.results[i]? = some check ∧
      previewed.results[i]? = some preview ∧ updated.results[i]? = some update ∧
      task.Agrees start updated.store check preview update
  /-- The check leaves the files as they are. -/
  checked_store : checked.store = start
  /-- The preview leaves the files as they are. -/
  previewed_store : previewed.store = start

/-- **The commands agree.** However the steps of the tasks are interleaved, a check, a preview and
an update can be brought to their end, and what they come to goes together. -/
theorem agree_of_finishes {σ : Type} [Store σ] (paths : Path → Prop) [LawfulStore σ paths]
    (inputs : Inputs) (json : Bool) {tasks : List Task}
    (hpaths : ∀ task ∈ tasks, ∀ path ∈ task.files, paths path)
    (hindependent : Task.Independent (Task.inMode .update tasks)) (start : σ) :
    (∀ (command : Command) (pool : Pool σ (Except TaskFault Report)),
      Relation.ReflTransGen Pool.Step (Task.launch command.mode tasks start) pool →
        ∃ finish, Task.Finishes pool finish) ∧
    ∀ checked previewed updated : Task.Finish σ,
      Task.Finishes (Task.launch (generate inputs true).mode tasks start) checked →
      Task.Finishes (Task.launch (scan inputs json).mode tasks start) previewed →
      Task.Finishes (Task.launch (generate inputs false).mode tasks start) updated →
        Agree inputs tasks start checked previewed updated := by
  refine ⟨fun command pool _ => Task.exists_finishes pool, ?_⟩
  intro checked previewed updated hchecked hpreviewed hupdated
  have hcheck : Mode.check ≠ .update := by decide
  have hpreview : Mode.preview ≠ .update := by decide
  refine ⟨?_, ?_, ?_, ?_⟩
  · rw [code_outcome_eq_zero_iff, code_outcome_eq_zero_iff]
    exact Task.forall_check_ok_iff hpaths hindependent hchecked hupdated
  · intro i task htask
    obtain ⟨answer, hresult, hleft⟩ :=
      Task.settled_of_finishes hpaths hindependent hupdated htask
    exact ⟨_, _, _,
      Task.result_of_finishes hpaths hindependent hcheck hchecked htask answer,
      Task.result_of_finishes hpaths hindependent hpreview hpreviewed htask answer, hresult,
      task.agrees_of_settled answer answer hleft⟩
  · exact Task.store_of_finishes hpaths hindependent hchecked
      fun task _ answer => task.written?_withMode_eq_none hcheck _ answer
  · exact Task.store_of_finishes hpaths hindependent hpreviewed
      fun task _ answer => task.written?_withMode_eq_none hpreview _ answer

/-- A check, a preview and an update of the small task, whose target is out of date, and of its
sibling, which fails. -/
theorem agree_sampleTask :
    Task.Independent (Task.inMode .update [Task.sampleTask, Task.siblingTask]) ∧
      Agree .none [Task.sampleTask, Task.siblingTask] Task.sampleFiles
        (Task.inTurn .check [Task.sampleTask, Task.siblingTask] Task.sampleFiles)
        (Task.inTurn .preview [Task.sampleTask, Task.siblingTask] Task.sampleFiles)
        (Task.inTurn .update [Task.sampleTask, Task.siblingTask] Task.sampleFiles) := by
  have hindependent : Task.Independent (Task.inMode .update [Task.sampleTask, Task.siblingTask]) :=
    Task.independent_sampleTask
  refine ⟨hindependent, ?_⟩
  exact (agree_of_finishes (fun _ => True) .none false (fun _ _ _ _ => trivial) hindependent
    Task.sampleFiles).2 _ _ _ (Task.finishes_inTurn _ _ _) (Task.finishes_inTurn _ _ _)
    (Task.finishes_inTurn _ _ _)

end Command

end ExplicitInstantiation
