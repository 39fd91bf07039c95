import Mathlib.Logic.Relation
import ExplicitInstantiation.Proofs.Files.Store

/-!
# Procedures side by side

Several procedures can be under way on one store. `Pool.Step` lets any one of them that is not done
take its next step, so a sequence of such steps is an interleaving of the procedures. Every
interleaving comes to an end (`Pool.acc_step`), and where it cannot go on all procedures are done
(`Pool.exists_done_of_stuck`). Running procedures one after the other is one of the interleavings
(`Pool.reaches_runAll`).
-/

namespace ExplicitInstantiation

variable {α σ : Type} [Store σ]

namespace Procedure

/-! ### Single steps -/

/-- The next step of a procedure on a store: what is left to do then, and the store afterwards. -/
def advance : Procedure α → σ → Option (Procedure α × σ)
  | done _, _ => none
  | read path next, store => some (next (Store.read store path), store)
  | probe path next, store => some (next (Store.probe store path), store)
  | replace path content next, store =>
    match Store.replace store path content with
    | .ok changed => some (next (.ok ()), changed)
    | .error fault => some (next (.error fault), store)

/-- A replacement that succeeds goes on with the changed store. -/
theorem advance_replace_of_ok {path : Path} {content : Text} {store changed : σ}
    (next : Except WriteFault Unit → Procedure α)
    (h : Store.replace store path content = .ok changed) :
    (replace path content next).advance store = some (next (.ok ()), changed) := by
  simp only [advance, h]

/-- A replacement that fails goes on with the store as it is. -/
theorem advance_replace_of_error {path : Path} {content : Text} {store : σ} {fault : WriteFault}
    (next : Except WriteFault Unit → Procedure α)
    (h : Store.replace store path content = .error fault) :
    (replace path content next).advance store = some (next (.error fault), store) := by
  simp only [advance, h]

/-- A procedure that can take no step is done. -/
theorem exists_done_of_advance_eq_none {p : Procedure α} {store : σ}
    (h : p.advance store = none) : ∃ result, p = done result := by
  cases p with
  | done result => exact ⟨result, rfl⟩
  | read path next => cases h
  | probe path next => cases h
  | replace path content next =>
    rcases hreplace : Store.replace store path content with fault | changed
    · rw [advance_replace_of_error next hreplace] at h
      cases h
    · rw [advance_replace_of_ok next hreplace] at h
      cases h

/-- No procedure takes steps for ever. -/
theorem acc_advance (p : Procedure α) :
    Acc (fun q p : Procedure α => ∃ store changed : σ, p.advance store = some (q, changed)) p := by
  induction p with
  | done result =>
    refine ⟨_, ?_⟩
    rintro q ⟨store, changed, h⟩
    cases h
  | read path next ih =>
    refine ⟨_, ?_⟩
    rintro q ⟨store, changed, h⟩
    cases h
    exact ih _
  | probe path next ih =>
    refine ⟨_, ?_⟩
    rintro q ⟨store, changed, h⟩
    cases h
    exact ih _
  | replace path content next ih =>
    refine ⟨_, ?_⟩
    rintro q ⟨store, changed, h⟩
    rcases hreplace : Store.replace store path content with fault | changed'
    · rw [advance_replace_of_error next hreplace] at h
      cases h
      exact ih _
    · rw [advance_replace_of_ok next hreplace] at h
      cases h
      exact ih _

end Procedure

/-! ### Interleavings -/

/-- Procedures under way on one store. -/
structure Pool (σ α : Type) where
  /-- What is left of each procedure. -/
  procedures : List (Procedure α)
  /-- The store. -/
  store : σ

namespace Pool

/-- Any one procedure takes its next step. -/
inductive Step : Pool σ α → Pool σ α → Prop where
  /-- The procedure at a place of the list takes it. -/
  | mk (i : Nat) {procedures : List (Procedure α)} {p q : Procedure α} {store changed : σ}
    (hp : procedures[i]? = some p) (h : p.advance store = some (q, changed)) :
    Step ⟨procedures, store⟩ ⟨procedures.set i q, changed⟩

/-- One procedure of a list is replaced by what is left of it after a step on some store. -/
def Shortens (σ : Type) [Store σ] (shorter procedures : List (Procedure α)) : Prop :=
  ∃ (i : Nat) (p q : Procedure α), procedures[i]? = some p ∧ shorter = procedures.set i q ∧
    ∃ store changed : σ, p.advance store = some (q, changed)

/-- One more procedure that comes to an end does not keep the others from doing so. The two
inductions are on the steps of the first procedure and on those of the others. -/
theorem acc_shortens_cons {p : Procedure α} {procedures : List (Procedure α)}
    (hp : Acc (fun q p : Procedure α => ∃ store changed : σ, p.advance store = some (q, changed)) p)
    (hrest : Acc (Shortens σ) procedures) : Acc (Shortens σ) (p :: procedures) := by
  induction hp generalizing procedures with
  | intro p _ ihp =>
    induction hrest with
    | intro procedures hprocedures ihrest =>
      refine ⟨_, ?_⟩
      rintro shorter ⟨i, p', q, hi, rfl, hstep⟩
      cases i with
      | zero =>
        cases hi
        exact ihp q hstep ⟨procedures, hprocedures⟩
      | succ i => exact ihrest _ ⟨i, p', q, hi, rfl, hstep⟩

/-- However procedures take their steps, they come to an end. -/
theorem acc_shortens (procedures : List (Procedure α)) : Acc (Shortens σ) procedures := by
  induction procedures with
  | nil =>
    refine ⟨_, ?_⟩
    rintro shorter ⟨i, p, q, hi, -⟩
    cases hi
  | cons p procedures ih => exact acc_shortens_cons p.acc_advance ih

/-- Every interleaving comes to an end. -/
theorem acc_step (pool : Pool σ α) : Acc (fun next pool : Pool σ α => Step pool next) pool := by
  have hacc : Acc (InvImage (Shortens σ) Pool.procedures) pool :=
    InvImage.accessible Pool.procedures (acc_shortens pool.procedures)
  refine Subrelation.accessible ?_ hacc
  rintro _ _ ⟨i, hp, h⟩
  exact ⟨i, _, _, hp, rfl, _, _, h⟩

/-- Where an interleaving cannot go on, all procedures are done. -/
theorem exists_done_of_stuck {pool : Pool σ α} (h : ∀ next, ¬ Step pool next) {i : Nat}
    {p : Procedure α} (hp : pool.procedures[i]? = some p) : ∃ result, p = .done result := by
  rcases hstep : p.advance pool.store with _ | ⟨q, changed⟩
  · exact Procedure.exists_done_of_advance_eq_none hstep
  · exact absurd (Step.mk i hp hstep) (h _)

/-- Procedures each of which is done are done with a list of results. -/
theorem exists_results {procedures : List (Procedure α)}
    (h : ∀ p ∈ procedures, ∃ result, p = .done result) :
    ∃ results : List α, procedures = results.map .done := by
  induction procedures with
  | nil => exact ⟨[], rfl⟩
  | cons p procedures ih =>
    obtain ⟨⟨result, rfl⟩, hrest⟩ := List.forall_mem_cons.mp h
    obtain ⟨results, rfl⟩ := ih hrest
    exact ⟨result :: results, rfl⟩

/-- Where an interleaving cannot go on, it has a list of results. -/
theorem exists_results_of_stuck {pool : Pool σ α} (h : ∀ next, ¬ Step pool next) :
    ∃ results : List α, pool.procedures = results.map .done := by
  refine exists_results fun p hp => ?_
  obtain ⟨i, hi⟩ := List.getElem?_of_mem hp
  exact exists_done_of_stuck h hi

/-- Every interleaving can be brought to its end. -/
theorem exists_finish (pool : Pool σ α) :
    ∃ (results : List α) (store : σ),
      Relation.ReflTransGen Step pool ⟨results.map .done, store⟩ := by
  induction acc_step pool with
  | intro pool _ ih =>
    by_cases hstep : ∃ next, Step pool next
    · obtain ⟨next, hstep⟩ := hstep
      obtain ⟨results, store, hrest⟩ := ih next hstep
      exact ⟨results, store, .head hstep hrest⟩
    · obtain ⟨results, hresults⟩ := exists_results_of_stuck (not_exists.mp hstep)
      refine ⟨results, pool.store, ?_⟩
      rw [← hresults]

/-! ### One after the other -/

/-- Steps of some procedures are steps of more procedures. -/
theorem Step.cons {pool next : Pool σ α} (h : Step pool next) (p : Procedure α) :
    Step ⟨p :: pool.procedures, pool.store⟩ ⟨p :: next.procedures, next.store⟩ := by
  obtain @⟨i, procedures, first, left, store, changed, hfirst, hleft⟩ := h
  have hfirst' : (p :: procedures)[i + 1]? = some first := hfirst
  exact Step.mk (i + 1) hfirst' hleft

/-- The first procedure can be run to its end before the others start. -/
theorem reaches_run (p : Procedure α) (rest : List (Procedure α)) (store : σ) :
    Relation.ReflTransGen Step (⟨p :: rest, store⟩ : Pool σ α)
      ⟨.done (p.run store).result :: rest, (p.run store).store⟩ := by
  induction p generalizing store with
  | done result => exact .refl
  | read path next ih => exact .head (Step.mk 0 rfl rfl) (ih _ store)
  | probe path next ih => exact .head (Step.mk 0 rfl rfl) (ih _ store)
  | replace path content next ih =>
    rw [Procedure.run]
    rcases hreplace : Store.replace store path content with fault | changed
    · exact .head (Step.mk 0 rfl (Procedure.advance_replace_of_error next hreplace)) (ih _ store)
    · exact .head (Step.mk 0 rfl (Procedure.advance_replace_of_ok next hreplace)) (ih _ changed)

/-- To run procedures one after the other is an interleaving of them. -/
theorem reaches_runAll (procedures : List (Procedure α)) (store : σ) :
    Relation.ReflTransGen Step (⟨procedures, store⟩ : Pool σ α)
      ⟨(Procedure.runAll procedures store).result.map .done,
        (Procedure.runAll procedures store).store⟩ := by
  induction procedures generalizing store with
  | nil => exact .refl
  | cons p procedures ih =>
    refine (reaches_run p procedures store).trans ?_
    exact (ih (p.run store).store).lift
      (fun pool : Pool σ α =>
        (⟨.done (p.run store).result :: pool.procedures, pool.store⟩ : Pool σ α))
      fun _ _ h => h.cons _

end Pool

end ExplicitInstantiation
