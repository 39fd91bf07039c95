import ExplicitInstantiation.Block
import ExplicitInstantiation.Files.Procedure
import ExplicitInstantiation.Site.File
import ExplicitInstantiation.Task.Basic
import ExplicitInstantiation.TemplateClass.Declared

/-!
# Running a task

A task is run in single steps: the declarations file is read, then each usage file in order, then
the target, and last the target is replaced if it has to be. Everything that can fail for reasons
of content does so before the replacement, so a task that fails has changed nothing.
-/

namespace ExplicitInstantiation

namespace Task

/-- A task that ends in a report or a fault. -/
abbrev Steps := Procedure (Except TaskFault Report)

/-- Ends in a fault. -/
def fail (fault : TaskFault) : Steps := .done (.error fault)

/-- What the usage files have yielded. -/
structure Usage where
  /-- The sites in the order of the files. -/
  sites : List Site
  /-- The constants. -/
  constants : Constants
  deriving Repr, DecidableEq

/-- The report on a task. -/
def report (task : Task) (classes : List TemplateClass) (usage : Usage)
    (instantiations : Instantiations) (status : Status) : Report where
  target := task.pipeline.target
  classes := classes.length
  constants := usage.constants.size
  sites := usage.sites.length
  declarations := instantiations.declarations
  status := status

/-- Brings the target up to date, or does what else the mode asks for. -/
def settleTarget (task : Task) (instantiations : Instantiations) (report : Status → Report) :
    Steps :=
  .read task.pipeline.target fun
    | .error fault => fail (.unreadable task.pipeline.target fault)
    | .ok existing =>
      let content := Block.update task.marker existing instantiations
      if content = existing then .done (.ok (report .unchanged))
      else
        match task.mode with
        | .update =>
          .replace task.pipeline.target content fun
            | .error fault => fail (.unwritable fault)
            | .ok () => .done (.ok (report .updated))
        | .check => fail (.outOfDate task.pipeline.target)
        | .preview => .done (.ok (report .outOfDate))

/-- Reads usage files in order and goes on with what they yield. -/
def readUsages (classes : List TemplateClass) (next : Usage → Steps) :
    List Path → Usage → Steps
  | [], usage => next usage
  | path :: paths, usage =>
    .read path fun
      | .error fault => fail (.unreadable path fault)
      | .ok content =>
        let survey := surveyFile classes usage.constants path content
        match survey.sites with
        | .error fault => fail (.tooFewArguments fault)
        | .ok sites => readUsages classes next paths ⟨usage.sites ++ sites, survey.constants⟩

/-- The steps of a task. -/
def steps (task : Task) : Steps :=
  match task.check with
  | .error fault => fail fault
  | .ok () =>
    .read task.pipeline.declarations fun
      | .error fault => fail (.unreadable task.pipeline.declarations fault)
      | .ok header =>
        let classes := declaredClasses header
        readUsages classes (fun usage =>
          match resolveSites usage.constants usage.sites with
          | .error fault => fail (.unfoldable fault)
          | .ok instantiations =>
            task.settleTarget instantiations (task.report classes usage instantiations))
          task.pipeline.usages ⟨[], .empty⟩

/-- Runs a task on a store. -/
def run {σ : Type} [Store σ] (task : Task) (store : σ) :
    Procedure.Run σ (Except TaskFault Report) :=
  task.steps.run store

/-- Runs tasks one after the other on a store. A task that fails does not stop the others. -/
def runAll {σ : Type} [Store σ] (tasks : List Task) (store : σ) :
    Procedure.Run σ (List (Except TaskFault Report)) :=
  Procedure.runAll (tasks.map steps) store

end Task

end ExplicitInstantiation
