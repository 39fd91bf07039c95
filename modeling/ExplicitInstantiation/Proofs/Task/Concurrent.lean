import ExplicitInstantiation.Proofs.Files.Interleaving
import ExplicitInstantiation.Proofs.Files.TreeStore
import ExplicitInstantiation.Proofs.Task.Atomic

/-!
# Tasks side by side

Tasks that do not write to each other's files (`Independent`) can be run side by side. Whatever the
interleaving of their steps, each of them sees its files as they were at the start, so it ends as
they and the answer to its replacement settle (`endsBy_of_reaches`). Where a store also answers a
replacement as it would have done at the start, each task ends as if it had been run alone on the
store at the start, and each target holds what that run alone would have left there
(`run_interleaved`).

The invariant (`Interleaved`) ties every task to the store at the start. As long as a task is under
way (`Underway`), the files it reads are those of the start, so what is left of it after its
readings does not change, and a replacement of its target would be answered as it is expected to be.
Once it is settled (`Settled`), its result and its target are those that one of the expected answers
leads to. What is expected is left open here, as long as a replacement of another file keeps to it
(`Steady`).
-/

namespace ExplicitInstantiation

namespace Task

variable {σ : Type} [Store σ] {paths : Path → Prop}

/-- Whether a path leads to a file that a task uses. -/
def Uses (task : Task) (path : Path) : Prop :=
  ∃ file ∈ task.files, file.components = path.components

/-- A task uses its files. -/
theorem uses_of_mem {task : Task} {path : Path} (h : path ∈ task.files) : task.Uses path :=
  ⟨path, h, rfl⟩

/-- A task uses its target, under every path to it. -/
theorem uses_of_target {task : Task} {path : Path}
    (h : task.pipeline.target.components = path.components) : task.Uses path :=
  ⟨task.pipeline.target, List.mem_cons_self, h⟩

/-- Whether no task that is to update its target has a file of another task as its target. -/
def Independent (tasks : List Task) : Prop :=
  ∀ (i j : Nat) (task other : Task), i ≠ j → tasks[i]? = some task → tasks[j]? = some other →
    task.mode = .update →
    ∀ path ∈ other.files, task.pipeline.target.components ≠ path.components

/-- The target of a task that is to update it is no file of another one, under any path. -/
theorem Independent.not_uses {tasks : List Task} (h : Independent tasks) {i j : Nat}
    {task other : Task} (hij : i ≠ j) (htask : tasks[i]? = some task)
    (hother : tasks[j]? = some other) (hmode : task.mode = .update) {path : Path}
    (hpath : other.Uses path) : task.pipeline.target.components ≠ path.components := by
  obtain ⟨file, hfile, hsame⟩ := hpath
  rw [← hsame]
  exact h i j task other hij htask hother hmode file hfile

/-- Whether a run of a task alone on a store replaces the target. -/
def Updates (task : Task) (store : σ) : Prop :=
  ∃ report, (task.run store).result = .ok report ∧ report.status = .updated

/-- A run alone replaces the target exactly if it writes something there. -/
theorem updates_iff {task : Task} {store : σ} :
    task.Updates store ↔
      (task.written? (Store.read store) (Store.answer store task.pipeline.target)).isSome := by
  rw [isSome_written?_iff, Updates, result_eq]

/-- What a run alone leaves in the target is what it writes there, or what the target held. -/
theorem read_run_of_eq [LawfulStore σ paths] (task : Task) (store : σ) {path : Path}
    (hpath : paths task.pipeline.target) (hother : paths path)
    (h : task.pipeline.target.components = path.components) :
    Store.read (task.run store).store path =
      (task.written? (Store.read store) (Store.answer store task.pipeline.target)).elim
        (Store.read store path) .ok := by
  rcases task.keeps_or_replaces store with hkeeps | ⟨found, existing, hreplaces⟩
  · have hnone : task.written? (Store.read store) (Store.answer store task.pipeline.target) =
        none := by
      refine written?_eq_none fun report hreport => ?_
      rw [← result_eq] at hreport
      obtain ⟨-, -, -, -, ⟨rfl, -⟩ | ⟨rfl, -⟩⟩ := hkeeps.report report hreport
      · exact nofun
      · exact nofun
    rw [hnone, hkeeps.store_eq]
    rfl
  · have hanswer := Store.answer_of_ok hreplaces.replace_eq
    rw [(concluded_of_replaced hreplaces.findings hreplaces.target hreplaces.differs
      hreplaces.mode hanswer).2]
    exact LawfulStore.read_replace_of_eq hpath hother hreplaces.target hreplaces.replace_eq h

/-! ### One task among others -/

/-- A task of which `p` is left, when the store at the start was `start` and is now `now`: the task
has seen and will see the files as they were at the start. -/
structure Underway (paths : Path → Prop) (expected : Answer → Prop) (task : Task) (start now : σ)
    (p : Steps) : Prop where
  /-- It reads none but its files. -/
  reads : p.ReadsWithin task.files
  /-- It ends as it would from the start. -/
  ending : p.afterReads (Store.read start) = task.steps.afterReads (Store.read start)
  /-- Its files are as they were at the start. -/
  agrees : ∀ path, paths path → task.Uses path → Store.read now path = Store.read start path
  /-- A replacement of its target would be answered as expected. -/
  answers : expected (Store.answer now task.pipeline.target)

/-- A task that is done, with the result and the target that an expected answer leads to. -/
structure SettledBy (paths : Path → Prop) (task : Task) (start now : σ) (p : Steps)
    (answer : Answer) : Prop where
  /-- The result is settled by the files at the start and the answer. -/
  done : p = .done (task.concluded (Store.read start) answer)
  /-- The target holds what was written, or what it held at the start. -/
  target : ∀ path, paths path → task.pipeline.target.components = path.components →
    Store.read now path =
      (task.written? (Store.read start) answer).elim (Store.read start path) .ok

/-- Whether a task is settled by an expected answer. -/
def Settled (paths : Path → Prop) (expected : Answer → Prop) (task : Task) (start now : σ)
    (p : Steps) : Prop :=
  ∃ answer, expected answer ∧ task.SettledBy paths start now p answer

/-- At the start every task is under way. -/
theorem underway_steps {expected : Answer → Prop} (task : Task) (start : σ)
    (h : expected (Store.answer start task.pipeline.target)) :
    task.Underway paths expected start start task.steps :=
  ⟨task.readsWithin_steps, rfl, fun _ _ _ => rfl, h⟩

/-- A task under way of which nothing is left is settled. -/
theorem Underway.settled {expected : Answer → Prop} {task : Task} {start now : σ}
    {result : Except TaskFault Report} (h : task.Underway paths expected start now (.done result)) :
    task.Settled paths expected start now (.done result) := by
  have hends := task.ends_steps (Store.read start)
  rw [← h.ending, Procedure.afterReads_done] at hends
  obtain ⟨hresult, hwritten⟩ := hends.concluded_of_done (Store.answer now task.pipeline.target)
  refine ⟨_, h.answers, by rw [hresult], fun path hpath hsame => ?_⟩
  rw [hwritten]
  exact h.agrees path hpath (uses_of_target hsame)

/-- A step of a task under way either leaves the store as it is, or it is the replacement of the
target, with which the task is settled. -/
theorem Underway.advance [LawfulStore σ paths] {expected : Answer → Prop} {task : Task}
    {start now changed : σ} {p q : Steps} (hpaths : ∀ path ∈ task.files, paths path)
    (h : task.Underway paths expected start now p) (hstep : p.advance now = some (q, changed)) :
    (changed = now ∧ (task.Underway paths expected start now q ∨
        task.Settled paths expected start now q)) ∨
      (task.mode = .update ∧
        (∃ answer, expected answer ∧ (task.written? (Store.read start) answer).isSome) ∧
        (∃ existing content, Store.read now task.pipeline.target = .ok existing ∧
          Store.replace now task.pipeline.target content = .ok changed) ∧
        task.Settled paths expected start changed q) := by
  obtain ⟨hreads, hending, hagrees, hanswers⟩ := h
  have hends := task.ends_steps (Store.read start)
  have hfile : paths task.pipeline.target := hpaths _ List.mem_cons_self
  cases p with
  | done result => cases hstep
  | read path next =>
    -- the answer is the one that the task would have got at the start
    cases hstep
    have hpath := hagrees path (hpaths path hreads.1) (uses_of_mem hreads.1)
    refine .inl ⟨rfl, .inl ⟨hreads.2 _, ?_, hagrees, hanswers⟩⟩
    rw [hpath]
    exact hending
  | probe path next =>
    have hprobe : Procedure.probe path next = task.steps.afterReads (Store.read start) := hending
    rw [← hprobe] at hends
    cases hends
  | replace path content next =>
    rw [Procedure.afterReads_replace] at hending
    rw [← hending] at hends
    cases hends with
    | @replacing found existing hfound htarget hdiffers hmode =>
      have hnow : Store.read now task.pipeline.target = .ok existing :=
        (hagrees _ hfile (uses_of_target rfl)).trans htarget
      rcases hreplace : Store.replace now task.pipeline.target (task.updated existing found) with
        fault | changed'
      · rw [Procedure.advance_replace_of_error _ hreplace] at hstep
        cases hstep
        obtain ⟨hresult, hwritten⟩ := concluded_of_refused hfound htarget hdiffers hmode
          (Store.answer_of_error hreplace)
        refine .inl ⟨rfl, .inr ⟨_, hanswers, by rw [hresult]; rfl, fun path hpath hsame => ?_⟩⟩
        rw [hwritten]
        exact hagrees path hpath (uses_of_target hsame)
      · rw [Procedure.advance_replace_of_ok _ hreplace] at hstep
        cases hstep
        obtain ⟨hresult, hwritten⟩ := concluded_of_replaced hfound htarget hdiffers hmode
          (Store.answer_of_ok hreplace)
        refine .inr ⟨hmode, ⟨_, hanswers, by rw [hwritten]; rfl⟩, ⟨existing, _, hnow, hreplace⟩,
          _, hanswers, by rw [hresult], fun path hpath hsame => ?_⟩
        rw [hwritten]
        exact LawfulStore.read_replace_of_eq hfile hpath hnow hreplace hsame

/-- Whether what is expected of the answers stays so when another file is replaced. -/
def Steady (σ : Type) [Store σ] (paths : Path → Prop) (expected : Task → Answer → Prop) : Prop :=
  ∀ (task : Task) (now changed : σ) (path : Path) (existing content : Text), paths path →
    paths task.pipeline.target → Store.read now path = .ok existing →
    Store.replace now path content = .ok changed →
    path.components ≠ task.pipeline.target.components →
    expected task (Store.answer now task.pipeline.target) →
    expected task (Store.answer changed task.pipeline.target)

/-- To expect nothing is steady. -/
theorem steady_true : Steady σ paths fun _ _ => True :=
  fun _ _ _ _ _ _ _ _ _ _ _ _ => trivial

/-- To expect the answers of a store is steady if they do not change with another file. -/
theorem steady_answer [IndependentStore σ paths] (start : σ) :
    Steady σ paths fun task answer => answer = Store.answer start task.pipeline.target := by
  intro task now changed path existing content hpath htarget hread hreplace hne hanswer
  rw [← hanswer]
  exact funext (IndependentStore.answer_replace_of_ne hpath htarget hread hreplace hne)

/-- A replacement of none of its files leaves a task under way. -/
theorem Underway.replace_of_ne [LawfulStore σ paths] {expected : Task → Answer → Prop}
    (hsteady : Steady σ paths expected) {task : Task} {start now changed : σ} {p : Steps}
    {path : Path} {existing content : Text} (h : task.Underway paths (expected task) start now p)
    (htarget : paths task.pipeline.target) (hpath : paths path)
    (hread : Store.read now path = .ok existing)
    (hreplace : Store.replace now path content = .ok changed)
    (hfiles : ∀ file, task.Uses file → path.components ≠ file.components) :
    task.Underway paths (expected task) start changed p where
  reads := h.reads
  ending := h.ending
  agrees := fun file hfile huses =>
    (LawfulStore.read_replace_of_ne hpath hfile hread hreplace (hfiles file huses)).trans
      (h.agrees file hfile huses)
  answers := hsteady task now changed path existing content hpath htarget hread hreplace
    (hfiles _ (uses_of_target rfl)) h.answers

/-- A replacement of another file than its target leaves a task settled. -/
theorem Settled.replace_of_ne [LawfulStore σ paths] {expected : Answer → Prop} {task : Task}
    {start now changed : σ} {p : Steps} {path : Path} {existing content : Text}
    (h : task.Settled paths expected start now p) (hpath : paths path)
    (hread : Store.read now path = .ok existing)
    (hreplace : Store.replace now path content = .ok changed)
    (hfiles : ∀ file, task.Uses file → path.components ≠ file.components) :
    task.Settled paths expected start changed p := by
  obtain ⟨answer, hexpected, hdone, htarget⟩ := h
  refine ⟨answer, hexpected, hdone, fun file hfile hsame => ?_⟩
  rw [← htarget file hfile hsame]
  exact LawfulStore.read_replace_of_ne hpath hfile hread hreplace
    (hfiles file (uses_of_target hsame))

/-! ### All tasks -/

/-- Where an interleaving of tasks from the store `start` stands. -/
structure Interleaved (paths : Path → Prop) (expected : Task → Answer → Prop) (tasks : List Task)
    (start : σ) (pool : Pool σ (Except TaskFault Report)) : Prop where
  /-- Something is left of every task, be it the result. -/
  length_eq : pool.procedures.length = tasks.length
  /-- Every task is under way or settled. -/
  each : ∀ (i : Nat) (task : Task) (p : Steps), tasks[i]? = some task →
    pool.procedures[i]? = some p →
    task.Underway paths (expected task) start pool.store p ∨
      task.Settled paths (expected task) start pool.store p
  /-- Only targets to which an expected answer leads a task to write have changed. -/
  others : ∀ path, paths path → (∀ task ∈ tasks, ∀ answer, expected task answer →
      (task.written? (Store.read start) answer).isSome →
      task.pipeline.target.components ≠ path.components) →
    Store.read pool.store path = Store.read start path

section

variable {expected : Task → Answer → Prop} {tasks : List Task} {start : σ}

/-- At the start the invariant holds. -/
theorem interleaved_start
    (hstart : ∀ task ∈ tasks, expected task (Store.answer start task.pipeline.target)) :
    Interleaved paths expected tasks start ⟨tasks.map steps, start⟩ where
  length_eq := List.length_map _
  each := by
    intro i task p htask hp
    rw [List.getElem?_map, htask] at hp
    cases hp
    exact .inl (task.underway_steps start (hstart task (List.mem_of_getElem? htask)))
  others := fun _ _ _ => rfl

/-- What holds of the task that has taken a step, and of the other tasks, holds of each task. -/
theorem forall_of_set {P : Task → Steps → Prop} {procedures : List Steps} {i : Nat} {task : Task}
    {p q : Steps} (htask : tasks[i]? = some task) (hp : procedures[i]? = some p) (hq : P task q)
    (hothers : ∀ (j : Nat) (other : Task) (r : Steps), i ≠ j → tasks[j]? = some other →
      procedures[j]? = some r → P other r) :
    ∀ (j : Nat) (other : Task) (r : Steps), tasks[j]? = some other →
      (procedures.set i q)[j]? = some r → P other r := by
  intro j other r hother hr
  by_cases hij : i = j
  · subst hij
    rw [List.getElem?_set_self (List.getElem?_eq_some_iff.mp hp).1] at hr
    rw [htask] at hother
    cases hother
    cases hr
    exact hq
  · rw [List.getElem?_set_ne hij] at hr
    exact hothers j other r hij hother hr

/-- Every step of an interleaving of independent tasks keeps the invariant. -/
theorem Interleaved.step [LawfulStore σ paths] {pool next : Pool σ (Except TaskFault Report)}
    (hsteady : Steady σ paths expected) (hindependent : Independent tasks)
    (hpaths : ∀ task ∈ tasks, ∀ path ∈ task.files, paths path)
    (h : Interleaved paths expected tasks start pool) (hstep : Pool.Step pool next) :
    Interleaved paths expected tasks start next := by
  obtain @⟨i, procedures, p, q, now, changed, hp, hadvance⟩ := hstep
  obtain ⟨hlength, heach, hothers⟩ := h
  obtain ⟨hi, -⟩ := List.getElem?_eq_some_iff.mp hp
  have htask : tasks[i]? = some tasks[i] := List.getElem?_eq_getElem (hlength ▸ hi)
  generalize tasks[i] = task at htask
  have hmem : task ∈ tasks := List.mem_of_getElem? htask
  have hlength' : (procedures.set i q).length = tasks.length := by
    rw [List.length_set]
    exact hlength
  rcases heach i task p htask hp with hunderway | ⟨answer, -, hsettled⟩
  · rcases hunderway.advance (hpaths task hmem) hadvance with
      ⟨rfl, hq⟩ | ⟨hmode, ⟨answer, hexpected, hwrites⟩, ⟨existing, content, hread, hreplace⟩, hq⟩
    · -- the store is the same, so nothing happens to the other tasks
      exact ⟨hlength', forall_of_set htask hp hq fun j other r _ => heach j other r, hothers⟩
    · -- the target of this task is replaced, which is no file of the others
      have htarget : paths task.pipeline.target := hpaths task hmem _ List.mem_cons_self
      refine ⟨hlength', forall_of_set htask hp (.inr hq) ?_, ?_⟩
      · intro j other r hij hother hr
        have hfiles : ∀ file, other.Uses file →
            task.pipeline.target.components ≠ file.components :=
          fun _ => hindependent.not_uses hij htask hother hmode
        have hother' : paths other.pipeline.target :=
          hpaths other (List.mem_of_getElem? hother) _ List.mem_cons_self
        rcases heach j other r hother hr with hleft | hleft
        · exact .inl (hleft.replace_of_ne hsteady hother' htarget hread hreplace hfiles)
        · exact .inr (hleft.replace_of_ne htarget hread hreplace hfiles)
      · intro path hpath hnone
        have hne := hnone task hmem answer hexpected hwrites
        exact (LawfulStore.read_replace_of_ne htarget hpath hread hreplace hne).trans
          (hothers path hpath hnone)
  · rw [hsettled.done] at hadvance
    cases hadvance

/-- The invariant holds all along an interleaving of independent tasks. -/
theorem interleaved_of_reaches [LawfulStore σ paths] {pool : Pool σ (Except TaskFault Report)}
    (hsteady : Steady σ paths expected)
    (hstart : ∀ task ∈ tasks, expected task (Store.answer start task.pipeline.target))
    (hindependent : Independent tasks)
    (hpaths : ∀ task ∈ tasks, ∀ path ∈ task.files, paths path)
    (h : Relation.ReflTransGen Pool.Step ⟨tasks.map steps, start⟩ pool) :
    Interleaved paths expected tasks start pool := by
  induction h with
  | refl => exact interleaved_start hstart
  | tail _ hstep ih => exact ih.step hsteady hindependent hpaths hstep

/-- An interleaving of tasks none of which can come to write anything leaves the store as it is. -/
theorem store_eq_of_reaches [LawfulStore σ paths] {pool : Pool σ (Except TaskFault Report)}
    (hindependent : Independent tasks)
    (hpaths : ∀ task ∈ tasks, ∀ path ∈ task.files, paths path)
    (hnone : ∀ task ∈ tasks, ∀ answer, task.written? (Store.read start) answer = none)
    (h : Relation.ReflTransGen Pool.Step ⟨tasks.map steps, start⟩ pool) : pool.store = start := by
  induction h with
  | refl => rfl
  | tail hreaches hstep ih =>
    have hinterleaved := interleaved_of_reaches (σ := σ) steady_true (fun _ _ => trivial)
      hindependent hpaths hreaches
    obtain @⟨i, procedures, p, q, now, changed, hp, hadvance⟩ := hstep
    obtain ⟨hi, -⟩ := List.getElem?_eq_some_iff.mp hp
    have hi' : i < tasks.length := hinterleaved.length_eq ▸ hi
    have htask : tasks[i]? = some tasks[i] := List.getElem?_eq_getElem hi'
    have hmem : tasks[i] ∈ tasks := List.mem_of_getElem? htask
    rcases hinterleaved.each i _ p htask hp with hunderway | ⟨answer, -, hsettled⟩
    · rcases hunderway.advance (hpaths _ hmem) hadvance with
        ⟨rfl, -⟩ | ⟨-, ⟨answer, -, hwrites⟩, -⟩
      · exact ih
      · rw [hnone _ hmem answer] at hwrites
        cases hwrites
    · rw [hsettled.done] at hadvance
      cases hadvance

/-! ### The end of an interleaving -/

/-- An end of an interleaving at which every task has ended as its files at the start and an
expected answer settle. -/
structure EndsBy (paths : Path → Prop) (expected : Task → Answer → Prop) (tasks : List Task)
    (start : σ) (results : List (Except TaskFault Report)) (final : σ) : Prop where
  /-- There is a result for every task. -/
  length_eq : results.length = tasks.length
  /-- Every task is settled. -/
  each : ∀ (i : Nat) (task : Task) (result : Except TaskFault Report), tasks[i]? = some task →
    results[i]? = some result → task.Settled paths (expected task) start final (.done result)
  /-- Only targets to which an expected answer leads a task to write have changed. -/
  others : ∀ path, paths path → (∀ task ∈ tasks, ∀ answer, expected task answer →
      (task.written? (Store.read start) answer).isSome →
      task.pipeline.target.components ≠ path.components) →
    Store.read final path = Store.read start path

/-- An interleaving of independent tasks that has come to its end has settled all of them. -/
theorem endsBy_of_reaches [LawfulStore σ paths] {results : List (Except TaskFault Report)}
    {final : σ} (hsteady : Steady σ paths expected)
    (hstart : ∀ task ∈ tasks, expected task (Store.answer start task.pipeline.target))
    (hindependent : Independent tasks)
    (hpaths : ∀ task ∈ tasks, ∀ path ∈ task.files, paths path)
    (h : Relation.ReflTransGen Pool.Step ⟨tasks.map steps, start⟩ ⟨results.map .done, final⟩) :
    EndsBy paths expected tasks start results final := by
  have hinterleaved := interleaved_of_reaches hsteady hstart hindependent hpaths h
  refine ⟨?_, ?_, hinterleaved.others⟩
  · exact (List.length_map _).symm.trans hinterleaved.length_eq
  · intro i task result htask hresult
    have hp : (results.map Procedure.done)[i]? = some (.done result) := by
      rw [List.getElem?_map, hresult]
      rfl
    rcases hinterleaved.each i task _ htask hp with hunderway | hsettled
    · exact hunderway.settled
    · exact hsettled

end

/-- An end of an interleaving at which every task has ended as if it had been run alone. -/
structure EndsAlone (paths : Path → Prop) (tasks : List Task) (start : σ)
    (results : List (Except TaskFault Report)) (final : σ) : Prop where
  /-- The results, in order, are those of the runs alone. -/
  results_eq : results = tasks.map fun task => (task.run start).result
  /-- Every target holds what the run alone would have left there. -/
  targets : ∀ task ∈ tasks, ∀ path, paths path →
    task.pipeline.target.components = path.components →
    Store.read final path = Store.read (task.run start).store path
  /-- What is not the target of a task that updates it has not changed. -/
  others : ∀ path, paths path → (∀ task ∈ tasks, task.Updates start →
    task.pipeline.target.components ≠ path.components) →
    Store.read final path = Store.read start path

/-- Tasks that are settled by the answers of the store at the start have ended as if they had been
run alone. -/
theorem EndsBy.endsAlone [LawfulStore σ paths] {tasks : List Task} {start final : σ}
    {results : List (Except TaskFault Report)}
    (hpaths : ∀ task ∈ tasks, ∀ path ∈ task.files, paths path)
    (h : EndsBy paths (fun task answer => answer = Store.answer start task.pipeline.target) tasks
      start results final) :
    EndsAlone paths tasks start results final where
  results_eq := by
    apply List.ext_getElem?
    intro i
    rw [List.getElem?_map]
    rcases htask : tasks[i]? with _ | task
    · rw [List.getElem?_eq_none_iff.mpr (h.length_eq ▸ List.getElem?_eq_none_iff.mp htask)]
      rfl
    · obtain ⟨hi, -⟩ := List.getElem?_eq_some_iff.mp htask
      have hresult := List.getElem?_eq_getElem (h.length_eq ▸ hi : i < results.length)
      obtain ⟨_, rfl, hdone, -⟩ := h.each i task _ htask hresult
      rw [hresult, Option.map_some, result_eq, Procedure.done.inj hdone]
  targets := by
    intro task hmem path hpath hsame
    obtain ⟨i, htask⟩ := List.getElem?_of_mem hmem
    obtain ⟨hi, -⟩ := List.getElem?_eq_some_iff.mp htask
    have hresult := List.getElem?_eq_getElem (h.length_eq ▸ hi : i < results.length)
    obtain ⟨_, rfl, -, htarget⟩ := h.each i task _ htask hresult
    rw [htarget path hpath hsame,
      task.read_run_of_eq start (hpaths task hmem _ List.mem_cons_self) hpath hsame]
  others := by
    intro path hpath hnone
    refine h.others path hpath ?_
    rintro task hmem _ rfl hwrites
    exact hnone task hmem (updates_iff.mpr hwrites)

/-- Independent tasks do not interfere. Every interleaving of their steps comes to an end, at which
all of them are done, with the results in order, and every one of them has ended as if it had been
run alone on the store at the start. Running them one after the other is such an interleaving. -/
theorem run_interleaved (paths : Path → Prop) [IndependentStore σ paths] (tasks : List Task)
    (start : σ) (hpaths : ∀ task ∈ tasks, ∀ path ∈ task.files, paths path)
    (hindependent : Independent tasks) :
    Acc (fun next pool : Pool σ (Except TaskFault Report) => Pool.Step pool next)
        ⟨tasks.map steps, start⟩ ∧
      (∀ pool, Relation.ReflTransGen Pool.Step ⟨tasks.map steps, start⟩ pool →
        (∀ next, ¬ Pool.Step pool next) →
        ∃ results, pool.procedures = results.map .done ∧
          EndsAlone paths tasks start results pool.store) ∧
      EndsAlone paths tasks start (runAll tasks start).result (runAll tasks start).store := by
  have hends : ∀ results final,
      Relation.ReflTransGen Pool.Step ⟨tasks.map steps, start⟩ ⟨results.map .done, final⟩ →
      EndsAlone paths tasks start results final :=
    fun results final hreaches => (endsBy_of_reaches (steady_answer start) (fun _ _ => rfl)
      hindependent hpaths hreaches).endsAlone hpaths
  refine ⟨Pool.acc_step _, ?_, hends _ _ (Pool.reaches_runAll (tasks.map steps) start)⟩
  rintro ⟨procedures, final⟩ hreaches hstuck
  obtain ⟨results, rfl⟩ := Pool.exists_results_of_stuck hstuck
  exact ⟨results, rfl, hends results final hreaches⟩

/-- A task like the small one, for a target that is not among its files. -/
def siblingTask : Task :=
  { sampleTask with pipeline := { sampleTask.pipeline with target := .ofString "other.cpp" } }

/-- The small task and its sibling are independent. -/
theorem independent_sampleTask : Independent [sampleTask, siblingTask] := by
  intro i j task other hij htask hother _
  match i, j with
  | 0, 0 => exact absurd rfl hij
  | 1, 1 => exact absurd rfl hij
  | 0, 1 =>
    cases htask
    cases hother
    decide
  | 1, 0 =>
    cases htask
    cases hother
    decide
  | i + 2, _ => cases htask
  | _, j + 2 => cases hother

/-- The files of the small task in a working directory. -/
def sampleDisk : FileTree where
  entries := [(["work".toList], .directory),
    (["work".toList, "action.hpp".toList],
      .file 0o644 (.text "template<typename T, int N> class Action;\n".toList)),
    (["work".toList, "use.cpp".toList],
      .file 0o644 (.text "#define SIZE 5\nAction<int,SIZE> a;\n".toList)),
    (["work".toList, "action.cpp".toList],
      .file 0o640 (.text "#include \"action.hpp\"\n".toList))]
  workingDirectory := ["work".toList]
  superuser := false

/-- The small task and its sibling, which fails, do not interfere in a tree of files. -/
theorem run_interleaved_sampleTask :
    Independent [sampleTask, siblingTask] ∧
      (∀ task ∈ [sampleTask, siblingTask], ∀ path ∈ task.files, Path.PlainUnder ⟨[]⟩ path) ∧
      (runAll [sampleTask, siblingTask] sampleDisk).result.map Except.toOption =
        [some sampleReport, none] ∧
      Store.read (runAll [sampleTask, siblingTask] sampleDisk).store (.ofString "action.cpp") =
        .ok sampleContent := by
  have hplain : ∀ task ∈ [sampleTask, siblingTask], ∀ path ∈ task.files, path.IsPlain := by decide
  have hpaths : ∀ task ∈ [sampleTask, siblingTask], ∀ path ∈ task.files,
      Path.PlainUnder ⟨[]⟩ path :=
    fun task hmem path hpath => ⟨path, hplain task hmem path hpath, (Path.under_nil path).symm⟩
  have hends := (run_interleaved (Path.PlainUnder ⟨[]⟩) [sampleTask, siblingTask] sampleDisk hpaths
    independent_sampleTask).2.2
  refine ⟨independent_sampleTask, hpaths, ?_, ?_⟩
  · rw [hends.results_eq]
    decide +kernel
  · have htarget : Path.PlainUnder ⟨[]⟩ sampleTask.pipeline.target :=
      hpaths sampleTask List.mem_cons_self _ List.mem_cons_self
    have halone : (Store.read (sampleTask.run sampleDisk).store sampleTask.pipeline.target) =
        .ok sampleContent := toOption_eq_some_iff.mp (by decide +kernel)
    exact (hends.targets sampleTask List.mem_cons_self _ htarget rfl).trans halone

end Task

end ExplicitInstantiation
