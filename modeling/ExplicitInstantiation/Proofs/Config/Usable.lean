import Mathlib.Order.Bounds.Defs
import ExplicitInstantiation.Proofs.Config.Targets
import ExplicitInstantiation.Task.Basic

/-!
# Usable configurations

`Config.Usable` says what a configuration has to be, without a check: the marker is a `//` comment
on one line, there are pipelines, no path of a pipeline is missing, and no two targets are the same.

* **The check accepts exactly the usable configurations** (`check_eq_ok_iff`), which comes down to
  one statement about the loop over the pipelines (`checkPipelines_eq_ok_iff`).
* **What is refused is blamed on the first pipeline that is at fault** (`blames_of_check`). The loop
  stops at a pipeline behind pipelines that all pass (`exists_stop_of_checkPipelines`), so the index
  of that pipeline is the least of those at fault (`isLeast_faulty`).
* **The tasks of a usable configuration pass their own check** (`check_task_of_usable`), because a
  path that is not empty does not become so below a root.
-/

namespace ExplicitInstantiation

/-! ### Markers -/

/-- What a marker has to be. -/
structure IsMarker (marker : Text) : Prop where
  /-- It is a comment, apart from blanks around it. -/
  comment : ['/', '/'] <+: marker.trim
  /-- Something follows the slashes. -/
  longer : 2 < marker.trim.byteLength
  /-- It is one line. -/
  line : '\n' ∉ marker

/-- Behind the two slashes, characters and bytes are missing together. -/
theorem two_lt_byteLength_iff {t : Text} (h : ['/', '/'] <+: t) :
    2 < t.byteLength ↔ 2 < t.length := by
  obtain ⟨rest, rfl⟩ := h
  rcases rest with _ | ⟨c, rest⟩
  · decide
  · have hsize := c.utf8Size_pos
    have hslash : Char.utf8Size '/' = 1 := by decide
    simp only [List.cons_append, List.nil_append, Text.byteLength_cons, List.length_cons, hslash]
    omega

/-- A marker is accepted exactly if it is what a marker has to be. -/
theorem checkMarker_eq_ok_iff {marker : Text} : checkMarker marker = .ok () ↔ IsMarker marker := by
  have hcomment : isComment marker = true ↔
      ['/', '/'] <+: marker.trim ∧ 2 < marker.trim.byteLength := by
    rw [isComment, Bool.and_eq_true, List.isPrefixOf_iff_prefix, decide_eq_true_eq]
    exact and_congr_right fun h => (two_lt_byteLength_iff h).symm
  unfold checkMarker
  constructor
  · intro h
    split at h
    · cases h
    next hnot =>
      split at h
      · cases h
      next hline =>
        obtain ⟨hslashes, hlonger⟩ := hcomment.mp (by simpa using hnot)
        exact ⟨hslashes, hlonger, by simpa using hline⟩
  · intro h
    have hyes : isComment marker = true := hcomment.mpr ⟨h.comment, h.longer⟩
    simp [hyes, h.line]

/-! ### Pipelines by themselves -/

namespace Pipeline

/-- Whether a pipeline has everything it needs. -/
structure Complete (pipeline : Pipeline) : Prop where
  /-- The declarations are named. -/
  declarations : pipeline.declarations.text ≠ []
  /-- There are usages. -/
  usages : pipeline.usages ≠ []
  /-- All of them are named. -/
  named : ∀ usage ∈ pipeline.usages, usage.text ≠ []
  /-- The target is named. -/
  target : pipeline.target.text ≠ []

/-- Whether a pipeline has a fault. -/
def Has (pipeline : Pipeline) : PipelineFault → Prop
  | .emptyDeclarations => pipeline.declarations.text = []
  | .noUsages => pipeline.usages = []
  | .emptyUsage => ∃ usage ∈ pipeline.usages, usage.text = []
  | .emptyTarget => pipeline.target.text = []

/-- A pipeline with a fault does not have everything it needs. -/
theorem Has.not_complete {pipeline : Pipeline} {fault : PipelineFault} (h : pipeline.Has fault) :
    ¬ pipeline.Complete := by
  intro hcomplete
  cases fault with
  | emptyDeclarations => exact hcomplete.declarations h
  | noUsages => exact hcomplete.usages h
  | emptyUsage =>
    obtain ⟨usage, hmem, hempty⟩ := h
    exact hcomplete.named usage hmem hempty
  | emptyTarget => exact hcomplete.target h

/-- The check of a pipeline finds nothing in a complete one, and otherwise a fault that is there. -/
theorem check_cases (pipeline : Pipeline) :
    (pipeline.check = .ok () ∧ pipeline.Complete) ∨
      ∃ fault, pipeline.check = .error fault ∧ pipeline.Has fault := by
  have hempty {path : Path} : path.isEmpty = true ↔ path.text = [] := by simp [Path.isEmpty]
  unfold check
  split
  next h => exact .inr ⟨_, rfl, hempty.mp h⟩
  split
  next h => exact .inr ⟨_, rfl, List.isEmpty_iff.mp h⟩
  split
  next h =>
    obtain ⟨usage, hmem, husage⟩ := List.any_eq_true.mp h
    exact .inr ⟨_, rfl, usage, hmem, hempty.mp husage⟩
  split
  next h => exact .inr ⟨_, rfl, hempty.mp h⟩
  next hdeclarations husages hnamed htarget =>
    refine .inl ⟨rfl, mt hempty.mpr hdeclarations, mt List.isEmpty_iff.mpr husages, ?_,
      mt hempty.mpr htarget⟩
    exact fun usage hmem hnil => hnamed (List.any_eq_true.mpr ⟨usage, hmem, hempty.mpr hnil⟩)

/-- A pipeline is accepted exactly if it has everything it needs. -/
theorem check_eq_ok_iff {pipeline : Pipeline} : pipeline.check = .ok () ↔ pipeline.Complete := by
  rcases pipeline.check_cases with ⟨hcheck, hcomplete⟩ | ⟨fault, hcheck, hfault⟩
  · simp [hcheck, hcomplete]
  · simp [hcheck, hfault.not_complete]

/-- The fault that a check finds is one that the pipeline has. -/
theorem has_of_check {pipeline : Pipeline} {fault : PipelineFault}
    (h : pipeline.check = .error fault) : pipeline.Has fault := by
  rcases pipeline.check_cases with ⟨hcheck, -⟩ | ⟨fault', hcheck, hfault⟩
  · rw [h] at hcheck
    cases hcheck
  · rw [h] at hcheck
    cases hcheck
    exact hfault

end Pipeline

namespace Config

/-! ### The loop over the pipelines -/

/-- Whether a pipeline can follow earlier ones. -/
def Follows (earlier : List Pipeline) (pipeline : Pipeline) : Prop :=
  pipeline.Complete ∧ ∀ other ∈ earlier, WriteApart other pipeline

/-- What is found in a pipeline that cannot follow earlier ones: a fault of its own, or else the
first of those that have its target. -/
inductive Stops (earlier : List Pipeline) (pipeline : Pipeline) : ConfigFault → Prop where
  /-- A fault of its own. -/
  | own {fault : PipelineFault} (hfault : pipeline.Has fault) :
    Stops earlier pipeline (.pipeline earlier.length fault)
  /-- The target of an earlier pipeline, and of none before that. -/
  | shared {before after : List Pipeline} {first : Pipeline} (hcomplete : pipeline.Complete)
    (hearlier : earlier = before ++ first :: after)
    (hsame : first.target.components = pipeline.target.components)
    (hfirst : ∀ other ∈ before, WriteApart other pipeline) :
    Stops earlier pipeline (.sharedTarget before.length earlier.length pipeline.target)

/-- The targets of two pipelines differ exactly if they write to different files. -/
theorem not_isSame_iff {a b : Pipeline} :
    ¬ a.target.isSame b.target = true ↔ WriteApart a b := by
  rw [Path.isSame_iff, WriteApart]

/-- One step of the loop: it goes on behind a pipeline that can follow, and otherwise stops. -/
theorem checkPipelines_cons (earlier rest : List Pipeline) (pipeline : Pipeline) :
    (Follows earlier pipeline ∧
        checkPipelines earlier (pipeline :: rest) = checkPipelines (earlier ++ [pipeline]) rest) ∨
      ∃ fault, checkPipelines earlier (pipeline :: rest) = .error fault ∧
        Stops earlier pipeline fault := by
  rw [checkPipelines]
  split
  next fault hcheck => exact .inr ⟨_, rfl, .own (Pipeline.has_of_check hcheck)⟩
  next hcheck =>
    have hcomplete := Pipeline.check_eq_ok_iff.mp hcheck
    split
    next first hfind =>
      obtain ⟨hlt, hsame, hbefore⟩ := List.findIdx?_eq_some_iff_getElem.mp hfind
      have hearlier : earlier = earlier.take first ++ earlier[first] :: earlier.drop (first + 1) :=
        by simp
      have hfirst : ∀ other ∈ earlier.take first, WriteApart other pipeline := by
        intro other hother
        obtain ⟨i, hi, rfl⟩ := List.mem_take_iff_getElem.mp hother
        exact not_isSame_iff.mp (hbefore i (by omega))
      have hstops := Stops.shared hcomplete hearlier (Path.isSame_iff.mp hsame) hfirst
      rw [List.length_take_of_le (Nat.le_of_lt hlt)] at hstops
      exact .inr ⟨_, rfl, hstops⟩
    next hfind =>
      refine .inl ⟨⟨hcomplete, ?_⟩, rfl⟩
      intro other hother
      exact not_isSame_iff.mp (by simp [List.findIdx?_eq_none_iff.mp hfind other hother])

/-- A pipeline in which something is found cannot follow the earlier ones. -/
theorem Stops.not_follows {earlier : List Pipeline} {pipeline : Pipeline} {fault : ConfigFault}
    (h : Stops earlier pipeline fault) : ¬ Follows earlier pipeline := by
  rintro ⟨hcomplete, hapart⟩
  cases h with
  | own hfault => exact hfault.not_complete hcomplete
  | shared _ hearlier hsame _ =>
    exact hapart _ (by simp [hearlier]) hsame

/-- The loop ends well exactly if each pipeline can follow all those before it. -/
theorem checkPipelines_eq_ok_iff {earlier pipelines : List Pipeline} :
    checkPipelines earlier pipelines = .ok () ↔
      ∀ before pipeline after, pipelines = before ++ pipeline :: after →
        Follows (earlier ++ before) pipeline := by
  induction pipelines generalizing earlier with
  | nil => simp [checkPipelines]
  | cons next rest ih =>
    rcases checkPipelines_cons earlier rest next with ⟨hfollows, hloop⟩ | ⟨fault, hloop, hstops⟩
    · rw [hloop, ih]
      constructor
      · intro h before pipeline after hsplit
        rcases before with _ | ⟨first, before⟩
        · obtain ⟨rfl, rfl⟩ := List.cons.inj hsplit
          simpa using hfollows
        · obtain ⟨rfl, rfl⟩ := List.cons.inj hsplit
          simpa using h before pipeline after rfl
      · intro h before pipeline after hsplit
        simpa using h (next :: before) pipeline after (by rw [hsplit, List.cons_append])
    · rw [hloop]
      constructor
      · intro h
        cases h
      · intro h
        exact absurd (by simpa using h [] next rest rfl) hstops.not_follows

/-- The loop stops at a pipeline behind pipelines that all pass. -/
theorem exists_stop_of_checkPipelines {earlier pipelines : List Pipeline} {fault : ConfigFault}
    (h : checkPipelines earlier pipelines = .error fault) :
    ∃ before pipeline after, pipelines = before ++ pipeline :: after ∧
      checkPipelines earlier before = .ok () ∧ Stops (earlier ++ before) pipeline fault := by
  induction pipelines generalizing earlier with
  | nil => cases h
  | cons next rest ih =>
    rcases checkPipelines_cons earlier rest next with ⟨hfollows, hloop⟩ | ⟨fault', hloop, hstops⟩
    · obtain ⟨before, pipeline, after, rfl, hbefore, hstops⟩ := ih (hloop ▸ h)
      refine ⟨next :: before, pipeline, after, rfl, ?_, by simpa using hstops⟩
      rcases checkPipelines_cons earlier before next with ⟨-, hstep⟩ | ⟨_, -, hstops'⟩
      · rw [hstep, hbefore]
      · exact absurd hfollows hstops'.not_follows
    · rw [hloop] at h
      cases h
      exact ⟨[], next, rest, rfl, rfl, by simpa using hstops⟩

/-! ### Blame -/

/-- Whether the pipelines with the indices `i` and `j` have the same target. -/
def SharesTarget (pipelines : List Pipeline) (i j : Nat) : Prop :=
  ∃ a b, pipelines[i]? = some a ∧ pipelines[j]? = some b ∧ a.target.components = b.target.components

/-- Whether the pipeline with the index `i` is malformed, or shares its target with an earlier
one. -/
def Faulty (pipelines : List Pipeline) (i : Nat) : Prop :=
  (∃ pipeline, pipelines[i]? = some pipeline ∧ ¬ pipeline.Complete) ∨
    ∃ j < i, SharesTarget pipelines j i

/-- What is said of the pipeline with the index `i`: a fault that it has, or, if it has none, the
least index of those that have its target. -/
inductive Blames (pipelines : List Pipeline) (i : Nat) : ConfigFault → Prop where
  /-- It is malformed. -/
  | malformed {pipeline : Pipeline} {fault : PipelineFault} (hat : pipelines[i]? = some pipeline)
    (hfault : pipeline.Has fault) : Blames pipelines i (.pipeline i fault)
  /-- It shares its target. -/
  | shared {pipeline : Pipeline} {first : Nat} (hat : pipelines[i]? = some pipeline)
    (hcomplete : pipeline.Complete)
    (hfirst : IsLeast { j | j < i ∧ SharesTarget pipelines j i } first) :
    Blames pipelines i (.sharedTarget first i pipeline.target)

/-- An element stands at the index that counts those before it. -/
theorem getElem?_append_cons {α : Type} (before after : List α) (a : α) :
    (before ++ a :: after)[before.length]? = some a := by
  simp

/-- Where the pipelines before it pass, no smaller index is at fault. -/
theorem not_faulty_of_lt {before after : List Pipeline} {pipeline : Pipeline}
    (hbefore : checkPipelines [] before = .ok ()) {i : Nat} (hi : i < before.length) :
    ¬ Faulty (before ++ pipeline :: after) i := by
  rw [checkPipelines_eq_ok_iff] at hbefore
  have hat {j : Nat} (hj : j < before.length) :
      (before ++ pipeline :: after)[j]? = some before[j] := by
    rw [List.getElem?_append_left hj, List.getElem?_eq_getElem hj]
  have hsplit : before = before.take i ++ before[i] :: before.drop (i + 1) := by simp
  obtain ⟨hcomplete, hapart⟩ := hbefore _ _ _ hsplit
  rintro (⟨found, hfound, hnot⟩ | ⟨j, hj, a, b, ha, hb, hsame⟩)
  · rw [hat hi] at hfound
    cases hfound
    exact hnot hcomplete
  · rw [hat (Nat.lt_trans hj hi)] at ha
    rw [hat hi] at hb
    cases ha
    cases hb
    refine hapart _ ?_ hsame
    rw [List.nil_append]
    exact List.mem_take_iff_getElem.mpr ⟨j, by omega, rfl⟩

/-- A pipeline at which the loop stops is the first one at fault, and is blamed for what stopped
it. -/
theorem isLeast_faulty {before after : List Pipeline} {pipeline : Pipeline} {fault : ConfigFault}
    (hbefore : checkPipelines [] before = .ok ()) (h : Stops before pipeline fault) :
    IsLeast { i | Faulty (before ++ pipeline :: after) i } before.length ∧
      Blames (before ++ pipeline :: after) before.length fault := by
  have hat := getElem?_append_cons before after pipeline
  have hleast : ∀ i, Faulty (before ++ pipeline :: after) i → before.length ≤ i := by
    intro i hfaulty
    exact Nat.le_of_not_lt fun hi => not_faulty_of_lt hbefore hi hfaulty
  cases h with
  | own hfault =>
    exact ⟨⟨.inl ⟨pipeline, hat, hfault.not_complete⟩, hleast⟩, .malformed hat hfault⟩
  | @shared front back first hcomplete hearlier hsame hfirst =>
    subst hearlier
    have hindex : front.length < (front ++ first :: back).length := by simp
    have hshares : SharesTarget (front ++ first :: back ++ pipeline :: after) front.length
        (front ++ first :: back).length := by
      refine ⟨first, pipeline, ?_, hat, hsame⟩
      rw [List.getElem?_append_left hindex, getElem?_append_cons]
    refine ⟨⟨.inr ⟨_, hindex, hshares⟩, hleast⟩, .shared hat hcomplete ⟨⟨hindex, hshares⟩, ?_⟩⟩
    rintro j ⟨-, a, b, ha, hb, hab⟩
    refine Nat.le_of_not_lt fun hj => ?_
    rw [hat] at hb
    cases hb
    rw [List.append_assoc, List.getElem?_append_left hj] at ha
    exact hfirst a (List.mem_of_getElem? ha) hab

/-! ### The check of a configuration -/

/-- Whether a configuration can be run. -/
structure Usable (config : Config) : Prop where
  /-- Its marker is one. -/
  marker : IsMarker config.marker
  /-- It has pipelines. -/
  pipelines : config.pipelines ≠ []
  /-- Each pipeline has everything it needs. -/
  complete : ∀ pipeline ∈ config.pipelines, pipeline.Complete
  /-- No two pipelines have the same target. -/
  targets : config.pipelines.Pairwise WriteApart

/-- With a marker and some pipelines, a configuration is checked pipeline by pipeline. -/
theorem check_of_marker {config : Config} (hmarker : IsMarker config.marker)
    (hpipelines : config.pipelines ≠ []) : config.check = checkPipelines [] config.pipelines := by
  unfold check
  rw [checkMarker_eq_ok_iff.mpr hmarker, if_neg (by simpa using hpipelines)]
  rfl

/-- An accepted configuration has a marker and some pipelines. -/
theorem marker_of_check {config : Config} (h : config.check = .ok ()) :
    IsMarker config.marker ∧ config.pipelines ≠ [] := by
  unfold check at h
  rcases hmarker : checkMarker config.marker with fault | ⟨⟩
  · rw [hmarker] at h
    cases h
  refine ⟨checkMarker_eq_ok_iff.mp hmarker, ?_⟩
  intro hnil
  rw [hmarker, hnil] at h
  cases h

/-- A configuration is accepted exactly if it is usable. -/
theorem check_eq_ok_iff {config : Config} : config.check = .ok () ↔ config.Usable := by
  constructor
  · intro h
    obtain ⟨hmarker, hpipelines⟩ := marker_of_check h
    refine ⟨hmarker, hpipelines, ?_, pairwise_targets_of_check h⟩
    intro pipeline hmem
    obtain ⟨before, after, hsplit⟩ := List.append_of_mem hmem
    exact (checkPipelines_eq_ok_iff.mp (checkPipelines_of_check h) _ _ _ hsplit).1
  · intro h
    rw [check_of_marker h.marker h.pipelines, checkPipelines_eq_ok_iff]
    intro before pipeline after hsplit
    refine ⟨h.complete pipeline (by simp [hsplit]), ?_⟩
    intro other hother
    have hpairwise := h.targets
    rw [hsplit, List.pairwise_append] at hpairwise
    exact hpairwise.2.2 other hother pipeline List.mem_cons_self

/-- A rejected configuration has a first faulty pipeline, and the fault says what is wrong with it.
-/
theorem blames_of_check {config : Config} {fault : ConfigFault} (hmarker : IsMarker config.marker)
    (hpipelines : config.pipelines ≠ []) (h : config.check = .error fault) :
    ∃ index, IsLeast { i | Faulty config.pipelines i } index ∧
      Blames config.pipelines index fault := by
  rw [check_of_marker hmarker hpipelines] at h
  obtain ⟨before, pipeline, after, hsplit, hbefore, hstops⟩ := exists_stop_of_checkPipelines h
  rw [hsplit]
  exact ⟨before.length, isLeast_faulty hbefore hstops⟩

/-! ### Tasks -/

/-- Seen from a root, a path that is not empty stays so. -/
theorem text_under_ne_nil (root : Path) {path : Path} (h : path.text ≠ []) :
    (root.under path).text ≠ [] := by
  unfold Path.under
  split
  · exact h
  · split <;> simp [h]

/-- The tasks of a usable configuration pass their own check. -/
theorem check_task_of_usable {config : Config} (h : config.Usable) (root : Path) (mode : Mode)
    {pipeline : Pipeline} (hmem : pipeline ∈ config.pipelines) :
    Task.check ⟨pipeline.under root, config.marker, mode⟩ = .ok () := by
  have hcomplete := h.complete pipeline hmem
  have hdeclarations := text_under_ne_nil root hcomplete.declarations
  have htarget := text_under_ne_nil root hcomplete.target
  have husages : pipeline.usages.map root.under ≠ [] := by simpa using hcomplete.usages
  unfold Task.check
  rw [checkMarker_eq_ok_iff.mpr h.marker]
  simp only [Pipeline.under, Path.isEmpty, List.isEmpty_iff, hdeclarations, htarget, husages]
  rfl

/-- **The check accepts exactly the usable configurations and blames the first pipeline at fault.**

* A configuration passes if and only if it is usable.
* If the marker is one and there are pipelines, a refusal names the least index whose pipeline is
  malformed or shares its target with an earlier one. It says that the pipeline is malformed if it
  is, and otherwise it names the least index with the same target.
* Every task made from a configuration that passes, below any root and with its marker, passes the
  check of tasks.
-/
theorem check_accepts_usable (config : Config) :
    (config.check = .ok () ↔ config.Usable) ∧
      (∀ fault, IsMarker config.marker → config.pipelines ≠ [] → config.check = .error fault →
        ∃ index, IsLeast { i | Faulty config.pipelines i } index ∧
          Blames config.pipelines index fault) ∧
      (config.check = .ok () → ∀ root mode, ∀ pipeline ∈ config.pipelines,
        Task.check ⟨pipeline.under root, config.marker, mode⟩ = .ok ()) := by
  refine ⟨check_eq_ok_iff, ?_, ?_⟩
  · exact fun fault hmarker hpipelines h => blames_of_check hmarker hpipelines h
  · intro h root mode pipeline hmem
    exact check_task_of_usable (check_eq_ok_iff.mp h) root mode hmem

/-- Two targets in different directories are accepted. A final slash does not make a target another
one, and the second pipeline is blamed for it. -/
theorem check_accepts_usable_samples :
    (twoTargets "a/game.cpp" "b/game.cpp").Usable ∧
      (∀ pipeline ∈ (twoTargets "a/game.cpp" "b/game.cpp").pipelines,
        Task.check ⟨pipeline.under (.ofString "/src"), defaultMarker, .update⟩ = .ok ()) ∧
      ∃ index, IsLeast { i | Faulty (twoTargets "game.cpp" "game.cpp/").pipelines i } index ∧
        Blames (twoTargets "game.cpp" "game.cpp/").pipelines index
          (.sharedTarget 0 1 (.ofString "game.cpp/")) := by
  have haccepted : (twoTargets "a/game.cpp" "b/game.cpp").check = .ok () := rfl
  have hrefused : (twoTargets "game.cpp" "game.cpp/").check =
      .error (.sharedTarget 0 1 (.ofString "game.cpp/")) := rfl
  have hmarker : IsMarker (twoTargets "game.cpp" "game.cpp/").marker :=
    checkMarker_eq_ok_iff.mp rfl
  obtain ⟨hiff, -, htasks⟩ := check_accepts_usable (twoTargets "a/game.cpp" "b/game.cpp")
  refine ⟨hiff.mp haccepted, htasks haccepted _ _, ?_⟩
  exact (check_accepts_usable _).2.1 _ hmarker (by simp [twoTargets]) hrefused

end Config

end ExplicitInstantiation
