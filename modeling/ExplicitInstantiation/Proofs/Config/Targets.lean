import ExplicitInstantiation.Config.Basic
import ExplicitInstantiation.Proofs.Path

/-!
# Targets of a configuration

No two pipelines of a configuration that passes its check have the same target, as the targets are
written (`pairwise_targets_of_check`). What the pipelines write to are the targets as they are seen
from a root, and these are different from each other exactly when no target comes to another one
there (`pairwise_targets_pipelinesUnder_iff`). The check knows no root and does not look for such
targets, so it accepts pipelines that write to one file (`check_accepts_shared_targets`).
-/

namespace ExplicitInstantiation

namespace Config

/-! ### Targets as they are written -/

/-- Whether two pipelines write to different files. -/
def WriteApart (a b : Pipeline) : Prop :=
  a.target.components ≠ b.target.components

instance (a b : Pipeline) : Decidable (WriteApart a b) :=
  inferInstanceAs (Decidable (_ ≠ _))

/-- Every pipeline that is checked is compared with all the pipelines before it. -/
theorem pairwise_of_checkPipelines {earlier pipelines : List Pipeline}
    (hearlier : earlier.Pairwise WriteApart) (h : checkPipelines earlier pipelines = .ok ()) :
    (earlier ++ pipelines).Pairwise WriteApart := by
  induction pipelines generalizing earlier with
  | nil => simpa using hearlier
  | cons pipeline rest ih =>
    rw [checkPipelines] at h
    split at h
    · cases h
    · split at h
      · cases h
      next hnone =>
        have hapart : ∀ other ∈ earlier, WriteApart other pipeline := by
          intro other hother
          have hdiffers := List.findIdx?_eq_none_iff.mp hnone other hother
          rwa [← Bool.not_eq_true, Path.isSame_iff] at hdiffers
        have hnext : (earlier ++ [pipeline]).Pairwise WriteApart :=
          List.pairwise_append.mpr ⟨hearlier, List.pairwise_singleton _ _, by simpa using hapart⟩
        simpa using ih hnext h

/-- In an accepted configuration the pipelines are accepted one after the other. -/
theorem checkPipelines_of_check {config : Config} (h : config.check = .ok ()) :
    checkPipelines [] config.pipelines = .ok () := by
  unfold check at h
  rcases hmarker : checkMarker config.marker with fault | ⟨⟩
  · rw [hmarker] at h
    cases h
  rcases hempty : config.pipelines.isEmpty with _ | _
  · rw [hmarker, hempty] at h
    exact h
  · rw [hmarker, hempty] at h
    cases h

/-- Pipelines that pass the check have different targets. -/
theorem pairwise_targets_of_check {config : Config} (h : config.check = .ok ()) :
    config.pipelines.Pairwise WriteApart :=
  pairwise_of_checkPipelines .nil (checkPipelines_of_check h)

/-! ### Targets seen from a root -/

/-- Whether, seen from `root`, neither of two targets comes to the other one. -/
def StayApart (root : Path) (a b : Pipeline) : Prop :=
  ¬ root.ComesTo a.target b.target ∧ ¬ root.ComesTo b.target a.target

instance (root : Path) (a b : Pipeline) : Decidable (StayApart root a b) :=
  inferInstanceAs (Decidable (_ ∧ _))

/-- Seen from a root, two pipelines write to different files exactly if they do so as written and
neither target comes to the other. -/
theorem writeApart_under_iff {root : Path} {a b : Pipeline} :
    WriteApart (a.under root) (b.under root) ↔ WriteApart a b ∧ StayApart root a b := by
  simp only [WriteApart, StayApart, Pipeline.under, ne_eq, Path.components_under_eq_iff, not_or]

/-- **Targets of a checked configuration.** Seen from a root, the pipelines of a configuration that
passes its check write to different files exactly when none of their targets comes to another one:
none of them is another one behind a leading `.`, and none spells out the root in front of
another one. -/
theorem pairwise_targets_pipelinesUnder_iff {config : Config} (h : config.check = .ok ())
    (root : Path) :
    (config.pipelinesUnder root).Pairwise WriteApart ↔
      config.pipelines.Pairwise (StayApart root) := by
  rw [pipelinesUnder, List.pairwise_map]
  constructor
  · exact fun hunder => hunder.imp fun hab => (writeApart_under_iff.mp hab).2
  · intro hstay
    have hboth := (pairwise_targets_of_check h).and hstay
    exact hboth.imp fun hab => writeApart_under_iff.mpr hab

/-- Two pipelines with the given targets. -/
def twoTargets (first second : String) : Config where
  marker := defaultMarker
  pipelines := [
    ⟨.ofString "grid.hpp", [.ofString "use.cpp"], .ofString first⟩,
    ⟨.ofString "unit.hpp", [.ofString "use.cpp"], .ofString second⟩]

/-- Targets that differ in a name stay apart. -/
theorem pairwise_targets_pipelinesUnder_sample :
    (twoTargets "grid.cpp" "./unit.cpp").check = .ok () ∧
      ((twoTargets "grid.cpp" "./unit.cpp").pipelinesUnder (.ofString "/game")).Pairwise
        WriteApart := by
  have hcheck : (twoTargets "grid.cpp" "./unit.cpp").check = .ok () := rfl
  exact ⟨hcheck, (pairwise_targets_pipelinesUnder_iff hcheck _).mpr (by decide +kernel)⟩

/-- The check accepts a target and the same target behind a leading `.`, and it accepts a relative
target and an absolute one that names the same file; in both cases two pipelines write to one
file. -/
theorem check_accepts_shared_targets :
    ((twoTargets "game.cpp" "./game.cpp").check = .ok () ∧
      ¬ ((twoTargets "game.cpp" "./game.cpp").pipelinesUnder (.ofString "src")).Pairwise
        WriteApart) ∧
    ((twoTargets "game.cpp" "/src/game.cpp").check = .ok () ∧
      ¬ ((twoTargets "game.cpp" "/src/game.cpp").pipelinesUnder (.ofString "/src")).Pairwise
        WriteApart) :=
  ⟨⟨rfl, by decide +kernel⟩, rfl, by decide +kernel⟩

end Config

end ExplicitInstantiation
