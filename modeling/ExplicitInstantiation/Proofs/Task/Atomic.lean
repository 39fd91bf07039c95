import ExplicitInstantiation.Proofs.Task.Ending

/-!
# A run is all or nothing

On any store, a run of a task either keeps the store as it is, having asked for no replacement or
for one that failed (`Task.Keeps`), or it replaces the target once, by the text with its block
brought up to date (`Task.Replaces`); `keeps_or_replaces` says that there is no third way. On a
lawful store this becomes `run_atomic`: a run that fails, that is not to update, or that finds the
target up to date changes nothing, and any other run changes the target and nothing else.
-/

namespace ExplicitInstantiation

namespace Task

variable {σ : Type} [Store σ]

/-- A report without a replacement: the target is up to date, or it is not and is only previewed. -/
def ReportsOn (task : Task) (view : Path → Except FileFault Text) (report : Report) : Prop :=
  ∃ found existing, task.findings view = .ok found ∧
    view task.pipeline.target = .ok existing ∧
    (report = task.reportOn found .unchanged ∧ task.updated existing found = existing ∨
      report = task.reportOn found .outOfDate ∧ task.mode = .preview)

/-- A run that leaves the store as it is. -/
structure Keeps (task : Task) (store : σ) : Prop where
  /-- The store is the one before. -/
  store_eq : (task.run store).store = store
  /-- No replacement was asked for, or one of the target that failed, which is the fault. -/
  attempts : task.steps.attempts store = [] ∨ ∃ content fault,
    task.steps.attempts store = [⟨task.pipeline.target, content, .error fault⟩] ∧
      (task.run store).result = .error (.unwritable fault)
  /-- A report is on the findings, and says that the target, which was read, is up to date unless
  it was only to be previewed. -/
  report : ∀ report, (task.run store).result = .ok report → task.ReportsOn (Store.read store) report

/-- A run that replaces the target, which held `existing`. -/
structure Replaces (task : Task) (store : σ) (found : Findings) (existing : Text) : Prop where
  /-- The target was to be brought up to date. -/
  mode : task.mode = .update
  /-- The findings are those of the store before. -/
  findings : task.findings (Store.read store) = .ok found
  /-- The target was read from the store before. -/
  target : Store.read store task.pipeline.target = .ok existing
  /-- The target was not up to date. -/
  differs : task.updated existing found ≠ existing
  /-- The store is the one before with the target replaced. -/
  replace_eq : Store.replace store task.pipeline.target (task.updated existing found) =
    .ok (task.run store).store
  /-- This was the only replacement that was asked for. -/
  attempts : task.steps.attempts store =
    [⟨task.pipeline.target, task.updated existing found, .ok ()⟩]
  /-- The report is on these findings. -/
  result : (task.run store).result = .ok (task.reportOn found .updated)

/-- A task with nothing left to do after its readings leaves the store as it is. -/
theorem keeps_of_done {task : Task} {store : σ} {result : Except TaskFault Report}
    (h : task.steps.afterReads (Store.read store) = .done result)
    (hreport : ∀ report, result = .ok report → task.ReportsOn (Store.read store) report) :
    task.Keeps store where
  store_eq := by rw [run_eq, h, Procedure.run_done]
  attempts := Or.inl (by rw [attempts_eq, h, Procedure.attempts_done])
  report := by
    intro report hok
    rw [run_eq, h, Procedure.run_done] at hok
    exact hreport report hok

/-- A run keeps the store or replaces the target. -/
theorem keeps_or_replaces (task : Task) (store : σ) :
    task.Keeps store ∨ ∃ found existing, task.Replaces store found existing := by
  have hends := task.ends_steps (Store.read store)
  generalize hlast : task.steps.afterReads (Store.read store) = last at hends
  cases hends with
  | noFindings => exact Or.inl (keeps_of_done hlast fun _ hok => nomatch hok)
  | noTarget => exact Or.inl (keeps_of_done hlast fun _ hok => nomatch hok)
  | outOfDate => exact Or.inl (keeps_of_done hlast fun _ hok => nomatch hok)
  | unchanged hfound htarget hsame =>
    refine Or.inl (keeps_of_done hlast ?_)
    rintro report ⟨⟩
    exact ⟨_, _, hfound, htarget, Or.inl ⟨rfl, hsame⟩⟩
  | previewed hfound htarget _ hmode =>
    refine Or.inl (keeps_of_done hlast ?_)
    rintro report ⟨⟩
    exact ⟨_, _, hfound, htarget, Or.inr ⟨rfl, hmode⟩⟩
  | @replacing found existing hfound htarget hdiffers hmode =>
    have hrun : task.run store = _ := task.run_eq store
    have hattempts := task.attempts_eq store
    rw [hlast, Procedure.run] at hrun
    rw [hlast, Procedure.attempts] at hattempts
    rcases hreplace : Store.replace store task.pipeline.target (task.updated existing found) with
      fault | changed
    · rw [hreplace] at hrun hattempts
      have hresult : (task.run store).result = .error (.unwritable fault) := by rw [hrun]; rfl
      refine Or.inl ⟨by rw [hrun]; rfl, Or.inr ⟨_, fault, hattempts, hresult⟩, ?_⟩
      intro report hok
      rw [hresult] at hok
      cases hok
    · rw [hreplace] at hrun hattempts
      exact Or.inr ⟨found, existing, hmode, hfound, htarget, hdiffers,
        by rw [hreplace, hrun]; rfl, hattempts, by rw [hrun]; rfl⟩

/-- A run that keeps the store replaces no file. -/
theorem Keeps.replaced_eq {task : Task} {store : σ} (h : task.Keeps store) :
    (task.run store).replaced = [] := by
  rw [run, Procedure.replaced_run]
  rcases h.attempts with hnone | ⟨content, fault, hone, -⟩
  · rw [hnone]
    rfl
  · rw [hone]
    rfl

/-- A run that replaces the target replaces no other file. -/
theorem Replaces.replaced_eq {task : Task} {store : σ} {found : Findings} {existing : Text}
    (h : task.Replaces store found existing) :
    (task.run store).replaced = [task.pipeline.target] := by
  rw [run, Procedure.replaced_run, h.attempts]
  rfl

/-- A run that ends in a fault leaves the store as it is. -/
theorem keeps_of_error {task : Task} {store : σ} {fault : TaskFault}
    (h : (task.run store).result = .error fault) : task.Keeps store := by
  rcases task.keeps_or_replaces store with hkeeps | ⟨found, existing, hreplaces⟩
  · exact hkeeps
  · rw [hreplaces.result] at h
    cases h

/-- The cases in which nothing may change: the run failed, the target was not to be updated, or it
was up to date. -/
def MustKeep (task : Task) (result : Except TaskFault Report) : Prop :=
  (∃ fault, result = .error fault) ∨ task.mode = .check ∨ task.mode = .preview ∨
    ∃ report, result = .ok report ∧ report.status = .unchanged

/-- A run that replaces the target is none in which nothing may change. -/
theorem Replaces.not_mustKeep {task : Task} {store : σ} {found : Findings} {existing : Text}
    (h : task.Replaces store found existing) : ¬ task.MustKeep (task.run store).result := by
  rw [h.result]
  rintro (⟨fault, hfault⟩ | hmode | hmode | ⟨report, hreport, hstatus⟩)
  · cases hfault
  · rw [h.mode] at hmode
    cases hmode
  · rw [h.mode] at hmode
    cases hmode
  · cases hreport
    cases hstatus

/-- A run that keeps the store is one in which nothing may change. -/
theorem Keeps.mustKeep {task : Task} {store : σ} (h : task.Keeps store) :
    task.MustKeep (task.run store).result := by
  rcases hresult : (task.run store).result with fault | report
  · exact Or.inl ⟨fault, rfl⟩
  · obtain ⟨found, existing, -, -, ⟨hreport, -⟩ | ⟨-, hmode⟩⟩ := h.report report hresult
    · exact Or.inr (Or.inr (Or.inr ⟨report, rfl, by rw [hreport, reportOn_status]⟩))
    · exact Or.inr (Or.inr (Or.inl hmode))

/-- A run is atomic and touches only its target. Where nothing may change, the store stays as it is
and no replacement is asked for other than one that fails. Everywhere else the target was to be
updated and is reported as updated; one replacement was asked for, of the target; what stands under
other paths stays; and the target, which held a different text, now holds that text with its block
brought up to date to the instantiations whose declarations are reported. -/
theorem run_atomic (paths : Path → Prop) [LawfulStore σ paths] (task : Task)
    (hpath : paths task.pipeline.target) (store : σ) :
    (task.MustKeep (task.run store).result →
      (task.run store).store = store ∧ (task.run store).replaced = [] ∧
        (task.steps.attempts store = [] ∨ ∃ content fault,
          task.steps.attempts store = [⟨task.pipeline.target, content, .error fault⟩])) ∧
    (¬ task.MustKeep (task.run store).result →
      task.mode = .update ∧ ∃ report found existing content,
        (task.run store).result = .ok report ∧ report.status = .updated ∧
        task.findings (Store.read store) = .ok found ∧
        report.declarations = found.instantiations.declarations ∧
        Store.read store task.pipeline.target = .ok existing ∧
        content = Block.update task.marker existing found.instantiations ∧ content ≠ existing ∧
        task.steps.attempts store = [⟨task.pipeline.target, content, .ok ()⟩] ∧
        (task.run store).replaced = [task.pipeline.target] ∧
        Store.read (task.run store).store task.pipeline.target = .ok content ∧
        ∀ path, paths path → task.pipeline.target.components ≠ path.components →
          Store.read (task.run store).store path = Store.read store path) := by
  rcases task.keeps_or_replaces store with hkeeps | ⟨found, existing, hreplaces⟩
  · refine ⟨fun _ => ⟨hkeeps.store_eq, hkeeps.replaced_eq, ?_⟩, fun h => absurd hkeeps.mustKeep h⟩
    rcases hkeeps.attempts with hnone | ⟨content, fault, hone, -⟩
    · exact Or.inl hnone
    · exact Or.inr ⟨content, fault, hone⟩
  · refine ⟨fun h => absurd h hreplaces.not_mustKeep, fun _ => ⟨hreplaces.mode, ?_⟩⟩
    refine ⟨task.reportOn found .updated, found, existing, task.updated existing found,
      hreplaces.result, rfl, hreplaces.findings, rfl, hreplaces.target, rfl, hreplaces.differs,
      hreplaces.attempts, hreplaces.replaced_eq, ?_, ?_⟩
    · exact LawfulStore.read_replace_of_eq hpath hpath hreplaces.target hreplaces.replace_eq rfl
    · exact fun path hother => LawfulStore.read_replace_of_ne hpath hother hreplaces.target
        hreplaces.replace_eq

/-- The first run of the small task falls under the second case: the target is replaced, with a
block of the one declaration, and every other file stays. -/
theorem run_atomic_sampleTask :
    ¬ sampleTask.MustKeep (sampleTask.run sampleFiles).result ∧
      (sampleTask.run sampleFiles).replaced = [.ofString "action.cpp"] ∧
      Store.read (sampleTask.run sampleFiles).store (.ofString "action.cpp") =
        .ok sampleContent ∧
      ∀ path, (Path.ofString "action.cpp").components ≠ path.components →
        Store.read (sampleTask.run sampleFiles).store path = Store.read sampleFiles path := by
  have hchanges : ¬ sampleTask.MustKeep (sampleTask.run sampleFiles).result := by
    rw [result_sampleTask]
    rintro (⟨fault, hfault⟩ | hmode | hmode | ⟨report, hreport, hstatus⟩)
    · cases hfault
    · cases hmode
    · cases hmode
    · cases hreport
      cases hstatus
  obtain ⟨-, report, found, existing, content, hreport, -, -, hdeclarations, hexisting, hcontent,
    -, -, hreplaced, hleft, hothers⟩ :=
    (run_atomic (fun _ => True) sampleTask trivial sampleFiles).2 hchanges
  rw [result_sampleTask] at hreport
  cases hreport
  rw [hcontent] at hleft
  refine ⟨hchanges, hreplaced, hleft.trans ?_, fun path => hothers path trivial⟩
  exact congrArg Except.ok (updated_sampleTask hexisting hdeclarations)

end Task

end ExplicitInstantiation
