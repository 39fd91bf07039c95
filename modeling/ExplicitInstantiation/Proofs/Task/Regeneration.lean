import ExplicitInstantiation.Proofs.Block
import ExplicitInstantiation.Proofs.Task.Atomic

/-!
# Regeneration forgets its history

A target is kept up to date by calls, one after the other, between which every file but the target
may be edited. `History` describes such a sequence of calls, with the store that each of them found.
The invariant is the text that the block follows: neither an edit nor a call, whether it succeeds or
fails, changes it (`History.map_bodyText_eq`). Since a call that succeeds leaves that text with a
block of its own, nothing is left of the calls before it, and calls after it that fail leave the
target alone. This is `regeneration_of_history`.
-/

namespace ExplicitInstantiation

namespace Task

variable {σ : Type} [Store σ] {paths : Path → Prop}

/-! ### One call -/

/-- A task that keeps `target` up to date under `marker` and reads other files for it. -/
structure Regenerates (target : Path) (marker : Text) (task : Task) : Prop where
  /-- The target is to be brought up to date. -/
  mode : task.mode = .update
  /-- The target is the given one. -/
  target_eq : task.pipeline.target = target
  /-- The marker is the given one. -/
  marker_eq : task.marker = marker
  /-- The target is not one of the files that are read for it. -/
  apart : ∀ path ∈ task.inputs, target.components ≠ path.components

/-- A run that is to update the target and succeeds reports on its findings and leaves the target
with its block brought up to date to them, whether it had to be replaced or not. -/
theorem read_target_of_ok [LawfulStore σ paths] {task : Task} {store : σ} {report : Report}
    (hpath : paths task.pipeline.target) (hmode : task.mode = .update)
    (h : (task.run store).result = .ok report) :
    ∃ found existing status, task.findings (Store.read store) = .ok found ∧
      Store.read store task.pipeline.target = .ok existing ∧
      report = task.reportOn found status ∧
      Store.read (task.run store).store task.pipeline.target =
        .ok (task.updated existing found) := by
  rcases task.keeps_or_replaces store with hkeeps | ⟨found, existing, hreplaces⟩
  · obtain ⟨found, existing, hfound, htarget, ⟨hreport, hsame⟩ | ⟨-, hpreview⟩⟩ :=
      hkeeps.report report h
    · refine ⟨found, existing, .unchanged, hfound, htarget, hreport, ?_⟩
      rw [hkeeps.store_eq, htarget, hsame]
    · rw [hmode] at hpreview
      cases hpreview
  · rw [hreplaces.result] at h
    cases h
    exact ⟨found, existing, .updated, hreplaces.findings, hreplaces.target, rfl,
      LawfulStore.read_replace_of_eq hpath hpath hreplaces.target hreplaces.replace_eq rfl⟩

/-- A run leaves every file but the target as it is. -/
theorem read_run_of_ne [LawfulStore σ paths] (task : Task) (store : σ) {path : Path}
    (hpath : paths task.pipeline.target) (hother : paths path)
    (h : task.pipeline.target.components ≠ path.components) :
    Store.read (task.run store).store path = Store.read store path := by
  rcases task.keeps_or_replaces store with hkeeps | ⟨found, existing, hreplaces⟩
  · rw [hkeeps.store_eq]
  · exact LawfulStore.read_replace_of_ne hpath hother hreplaces.target hreplaces.replace_eq h

/-- No run changes the text that the block of its target follows. -/
theorem map_bodyText_run [LawfulStore σ paths] {target : Path} {marker : Text} {task : Task}
    (hpath : paths target) (h : Regenerates target marker task) (store : σ) :
    (Store.read (task.run store).store target).map (Block.bodyText marker) =
      (Store.read store target).map (Block.bodyText marker) := by
  obtain ⟨-, rfl, rfl, -⟩ := h
  rcases task.keeps_or_replaces store with hkeeps | ⟨found, existing, hreplaces⟩
  · rw [hkeeps.store_eq]
  · have hmarker := checkMarker_of_findings hreplaces.findings
    have hleft := LawfulStore.read_replace_of_eq hpath hpath hreplaces.target
      hreplaces.replace_eq rfl
    rw [hleft, hreplaces.target]
    exact congrArg Except.ok (Block.bodyText_update hmarker existing found.instantiations)

/-! ### Histories -/

/-- A task, and the store on which it was run. -/
structure Call (σ : Type) where
  /-- The task. -/
  task : Task
  /-- The store as the call found it. -/
  store : σ

namespace Call

/-- What the call ended in. -/
def result (call : Call σ) : Except TaskFault Report :=
  (call.task.run call.store).result

/-- The store as the call left it. -/
def left (call : Call σ) : σ :=
  (call.task.run call.store).store

/-- Whether the call succeeded. -/
def Succeeds (call : Call σ) : Prop :=
  ∃ report, call.result = .ok report

end Call

/-- Calls that keep `target` up to date under `marker`, from the store `first` to the store `last`.
Before each of them, and at the end, anything may be edited but the target. -/
inductive History (target : Path) (marker : Text) : σ → List (Call σ) → σ → Prop where
  /-- Nothing happens any more. -/
  | finish (store : σ) : History target marker store [] store
  /-- Files other than the target are edited. -/
  | edit {store edited last : σ} {calls : List (Call σ)}
    (hkept : Store.read edited target = Store.read store target)
    (hrest : History target marker edited calls last) : History target marker store calls last
  /-- A task is run. -/
  | call {store last : σ} {calls : List (Call σ)} {task : Task}
    (htask : Regenerates target marker task)
    (hrest : History target marker (task.run store).store calls last) :
    History target marker store (⟨task, store⟩ :: calls) last

namespace History

variable {target : Path} {marker : Text} {first last : σ} {calls : List (Call σ)}

/-- The text that the block of the target follows stays the same along every history. -/
theorem map_bodyText_eq [LawfulStore σ paths] (hpath : paths target)
    (h : History target marker first calls last) :
    (Store.read last target).map (Block.bodyText marker) =
      (Store.read first target).map (Block.bodyText marker) := by
  induction h with
  | finish store => rfl
  | edit hkept hrest ih => rw [ih, hkept]
  | call htask hrest ih => rw [ih, map_bodyText_run hpath htask]

/-- Calls that fail leave the target as it is. -/
theorem read_target_of_failing (h : History target marker first calls last)
    (hfail : ∀ call ∈ calls, ¬ call.Succeeds) :
    Store.read last target = Store.read first target := by
  induction h with
  | finish store => rfl
  | edit hkept hrest ih => rw [ih hfail, hkept]
  | @call store last calls task htask hrest ih =>
    rw [ih fun call hcall => hfail call (List.mem_cons_of_mem _ hcall)]
    rcases hresult : (task.run store).result with fault | report
    · rw [(keeps_of_error hresult).store_eq]
    · exact absurd ⟨report, hresult⟩ (hfail ⟨task, store⟩ List.mem_cons_self)

/-- A history can be cut at any of its calls. -/
theorem split {before after : List (Call σ)} {call : Call σ}
    (h : History target marker first calls last) (hcalls : calls = before ++ call :: after) :
    History target marker first before call.store ∧ Regenerates target marker call.task ∧
      History target marker call.left after last := by
  induction h generalizing before with
  | finish store => simp at hcalls
  | edit hkept hrest ih =>
    obtain ⟨hbefore, htask, hafter⟩ := ih hcalls
    exact ⟨.edit hkept hbefore, htask, hafter⟩
  | @call store last calls task htask hrest ih =>
    rcases before with _ | ⟨earlier, before⟩
    · obtain ⟨rfl, rfl⟩ := List.cons.inj hcalls
      exact ⟨.finish store, htask, hrest⟩
    · obtain ⟨rfl, hothers⟩ := List.cons.inj hcalls
      obtain ⟨hbefore, hcall, hafter⟩ := ih hothers
      exact ⟨.call htask hbefore, hcall, hafter⟩

end History

/-- Of calls some of which succeed, one is the last to do so. -/
theorem exists_last_success {calls : List (Call σ)} (h : ∃ call ∈ calls, call.Succeeds) :
    ∃ before call after, calls = before ++ call :: after ∧ call.Succeeds ∧
      ∀ later ∈ after, ¬ later.Succeeds := by
  induction calls with
  | nil =>
    obtain ⟨call, hmem, -⟩ := h
    exact absurd hmem List.not_mem_nil
  | cons first calls ih =>
    by_cases hrest : ∃ call ∈ calls, call.Succeeds
    · obtain ⟨before, call, after, rfl, hcall, hafter⟩ := ih hrest
      exact ⟨first :: before, call, after, rfl, hcall, hafter⟩
    · obtain ⟨call, hmem, hcall⟩ := h
      rcases List.mem_cons.mp hmem with rfl | hmem
      · exact ⟨[], call, calls, rfl, hcall, fun later hl hs => hrest ⟨later, hl, hs⟩⟩
      · exact absurd ⟨call, hmem, hcall⟩ hrest

/-! ### The last call that succeeds -/

/-- A task that finds its target as its block was brought up to date to the findings has nothing to
do, whatever is asked of it. -/
theorem run_of_updated {task : Task} {store : σ} {found : Findings} {initial : Text}
    (hfound : task.findings (Store.read store) = .ok found)
    (htarget : Store.read store task.pipeline.target = .ok (task.updated initial found)) :
    (task.run store).result = .ok (task.reportOn found .unchanged) ∧
      (task.run store).store = store ∧ task.steps.attempts store = [] := by
  have hmarker := checkMarker_of_findings hfound
  have hagain : task.updated (task.updated initial found) found = task.updated initial found :=
    Block.update_congr (Block.bodyText_update hmarker initial _) _
  -- whatever rule the run ended by, it looked at these findings and this target
  have hsame : ∀ found' existing, task.findings (Store.read store) = .ok found' →
      Store.read store task.pipeline.target = .ok existing →
      found' = found ∧ task.updated existing found' = existing := by
    intro found' existing hfound' htarget'
    rw [hfound] at hfound'
    rw [htarget] at htarget'
    cases hfound'
    cases htarget'
    exact ⟨rfl, hagain⟩
  have hends := task.ends_steps (Store.read store)
  rw [run_eq, attempts_eq]
  generalize task.steps.afterReads (Store.read store) = last at hends
  cases hends with
  | noFindings hfault =>
    rw [hfound] at hfault
    cases hfault
  | noTarget _ hfault =>
    rw [htarget] at hfault
    cases hfault
  | unchanged hfound' htarget' _ =>
    obtain ⟨rfl, -⟩ := hsame _ _ hfound' htarget'
    exact ⟨rfl, rfl, rfl⟩
  | outOfDate hfound' htarget' hdiffers _ => exact absurd (hsame _ _ hfound' htarget').2 hdiffers
  | previewed hfound' htarget' hdiffers _ => exact absurd (hsame _ _ hfound' htarget').2 hdiffers
  | replacing hfound' htarget' hdiffers _ => exact absurd (hsame _ _ hfound' htarget').2 hdiffers

/-- What a history from `first` to `last` has come to, when `call` is the last one that succeeded,
with `report` on the findings `found`, and the target held `initial` at first. -/
structure Regenerated (target : Path) (marker : Text) (first last : σ) (call : Call σ)
    (report : Report) (found : Findings) (initial : Text) : Prop where
  /-- This is what the target held at first. -/
  first_eq : Store.read first target = .ok initial
  /-- The findings are those of the call by itself. -/
  findings : call.task.findings (Store.read call.store) = .ok found
  /-- They are what the call reported. -/
  declarations : report.declarations = found.instantiations.declarations
  /-- The target holds what it held at first, with a block for the findings. -/
  last_eq : Store.read last target = .ok (Block.update marker initial found.instantiations)
  /-- The calls before leave no trace: on any store that has the same input files and the target
  as it was at first, the call reports the same declarations and leaves the same target. -/
  alone : ∀ fresh : σ, (∀ path ∈ call.task.inputs,
      Store.read fresh path = Store.read call.store path) →
    Store.read fresh target = .ok initial →
    ∀ other, (call.task.run fresh).result = .ok other →
      other.declarations = report.declarations ∧
        Store.read (call.task.run fresh).store target = Store.read last target
  /-- The call is not needed again: with the input files as it left them and the target as it is
  now, in every mode it reports the same, except that the target is unchanged, and does nothing. -/
  again : ∀ (mode : Mode) (store : σ), (∀ path ∈ call.task.inputs,
      Store.read store path = Store.read call.left path) →
    Store.read store target = Store.read last target →
    ((call.task.withMode mode).run store).result = .ok { report with status := .unchanged } ∧
      ((call.task.withMode mode).run store).store = store ∧
      (call.task.withMode mode).steps.attempts store = []

/-- Regeneration is history-independent and converges. When any call of a history succeeds, the
last one that does determines the target: what it held at first, with a block for the findings of
that call alone. To repeat that call on unchanged input files changes nothing. -/
theorem regeneration_of_history (paths : Path → Prop) [LawfulStore σ paths] {target : Path}
    {marker : Text} {first last : σ} {calls : List (Call σ)}
    (h : History target marker first calls last)
    (hpaths : ∀ call ∈ calls, ∀ path ∈ call.task.files, paths path)
    (hsome : ∃ call ∈ calls, call.Succeeds) :
    ∃ before call after report found initial, calls = before ++ call :: after ∧
      call.result = .ok report ∧ (∀ later ∈ after, ¬ later.Succeeds) ∧
      Regenerated target marker first last call report found initial := by
  obtain ⟨before, call, after, hcalls, ⟨report, hok⟩, hafter⟩ := exists_last_success hsome
  obtain ⟨hbefore, htask, hrest⟩ := h.split hcalls
  obtain ⟨hmode, rfl, rfl, hapart⟩ := htask
  have hfiles : ∀ path ∈ call.task.files, paths path := hpaths call (by simp [hcalls])
  have hpath : paths call.task.pipeline.target := hfiles _ List.mem_cons_self
  obtain ⟨found, existing, status, hfound, htarget, rfl, hleft⟩ := read_target_of_ok hpath hmode hok
  have hmarker := checkMarker_of_findings hfound
  -- the target had the same body at first as when the call found it
  have hbody := hbefore.map_bodyText_eq hpath
  rw [htarget] at hbody
  rcases hfirst : Store.read first call.task.pipeline.target with fault | initial
  · rw [hfirst] at hbody
    cases hbody
  rw [hfirst] at hbody
  have hsame : Block.bodyText call.task.marker existing = Block.bodyText call.task.marker initial :=
    Except.ok.inj hbody
  -- and the failing calls after it left the target as the call did
  have hlast : Store.read last call.task.pipeline.target =
      .ok (call.task.updated initial found) := by
    rw [hrest.read_target_of_failing hafter]
    exact hleft.trans (congrArg Except.ok (Block.update_congr hsame found.instantiations))
  refine ⟨before, call, after, _, found, initial, hcalls, hok, hafter, hfirst, hfound, rfl, hlast,
    ?_, ?_⟩
  · intro fresh hinputs htarget' other hother
    obtain ⟨found', existing', status', hfound', hexisting', rfl, hleft'⟩ :=
      read_target_of_ok hpath hmode hother
    rw [findings_congr hinputs, hfound] at hfound'
    rw [htarget'] at hexisting'
    cases hfound'
    cases hexisting'
    exact ⟨rfl, hleft'.trans hlast.symm⟩
  · intro mode store hinputs htarget'
    have hcongr : ∀ path ∈ call.task.inputs, Store.read store path = Store.read call.store path :=
      fun path hinput => (hinputs path hinput).trans
        (call.task.read_run_of_ne call.store hpath (hfiles path (List.mem_cons_of_mem _ hinput))
          (hapart path hinput))
    have hfound' : (call.task.withMode mode).findings (Store.read store) = .ok found :=
      (call.task.findings_withMode mode _).trans ((findings_congr hcongr).trans hfound)
    exact run_of_updated hfound' (htarget'.trans hlast)

/-! ### A short history -/

/-- The files of the small task after its first run, when an argument is then deleted from the file
that uses the class. -/
def spoiledFiles : Memory :=
  (sampleTask.run sampleFiles).store.put (.ofString "use.cpp") "Action<int> a;\n".toList

/-- The small task succeeds, the usage file is spoiled, and the task is run again. -/
theorem history_sampleTask :
    History (.ofString "action.cpp") defaultMarker sampleFiles
      [⟨sampleTask, sampleFiles⟩, ⟨sampleTask, spoiledFiles⟩]
      (sampleTask.run spoiledFiles).store := by
  have htask : Regenerates (.ofString "action.cpp") defaultMarker sampleTask :=
    ⟨rfl, rfl, rfl, by decide⟩
  have hkept : Store.read spoiledFiles (.ofString "action.cpp") =
      Store.read (sampleTask.run sampleFiles).store (.ofString "action.cpp") := by
    rw [Memory.read_eq, Memory.read_eq, spoiledFiles, Memory.get?_put_of_ne _ _ (by decide)]
  exact .call htask (.edit hkept (.call htask (.finish _)))

/-- The second run of the small task fails. -/
theorem not_succeeds_spoiledFiles : ¬ Call.Succeeds ⟨sampleTask, spoiledFiles⟩ := by
  rintro ⟨report, hreport⟩
  have h : (sampleTask.run spoiledFiles).result.toOption = none := by decide +kernel
  rw [show (sampleTask.run spoiledFiles).result = .ok report from hreport] at h
  cases h

/-- At the end of the short history the target holds what it held at first, with a block of the
declaration that the first call found. -/
theorem regeneration_sampleTask :
    Store.read sampleFiles (.ofString "action.cpp") =
        .ok "#include \"action.hpp\"\n".toList ∧
      Store.read (sampleTask.run spoiledFiles).store (.ofString "action.cpp") =
        .ok sampleContent := by
  refine ⟨rfl, ?_⟩
  obtain ⟨before, call, after, report, found, initial, hcalls, hok, -, hregenerated⟩ :=
    regeneration_of_history (fun _ => True) history_sampleTask (fun _ _ _ _ => trivial)
      ⟨_, List.mem_cons_self, sampleReport, result_sampleTask⟩
  -- the call that succeeded last is the first one, since the second one fails
  have hcall : call ∈ [(⟨sampleTask, sampleFiles⟩ : Call Memory), ⟨sampleTask, spoiledFiles⟩] := by
    simp [hcalls]
  rcases List.mem_pair.mp hcall with rfl | rfl
  · have hreport : report = sampleReport := Except.ok.inj (hok.symm.trans result_sampleTask)
    have hdeclarations := hregenerated.declarations
    rw [hreport] at hdeclarations
    refine hregenerated.last_eq.trans (congrArg Except.ok ?_)
    exact updated_sampleTask hregenerated.first_eq hdeclarations
  · exact absurd ⟨report, hok⟩ not_succeeds_spoiledFiles

end Task

end ExplicitInstantiation
