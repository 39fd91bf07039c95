import Mathlib.Data.List.Induction
import Mathlib.Data.List.Nodup
import ExplicitInstantiation.Text.Basic

/-!
# Orders that are kept

What is left of a list without its repetitions stands in the order of first occurrences
(`pairwise_idxOf_eraseDups`).

Sorting is stable: whatever holds of each two elements of a list, the earlier one first, still holds
of those that the sorting takes for equal (`pairwise_mergeSort_of_pairwise`). So things that are
sorted by the length of their names, the longest first, keep their order where the lengths are the
same (`Text.pairwise_mergeSort_longer`).
-/

namespace ExplicitInstantiation

/-! ### First occurrences -/

section

variable {α : Type} [BEq α] [LawfulBEq α]

/-- One more element is kept if it is none of those before. -/
theorem eraseDups_concat (l : List α) (a : α) :
    (l ++ [a]).eraseDups = if a ∈ l then l.eraseDups else l.eraseDups ++ [a] := by
  rw [List.eraseDups_append]
  by_cases h : a ∈ l
  · have hold : [a].removeAll l = [] := by simpa [List.removeAll] using h
    rw [if_pos h, hold, List.eraseDups_nil, List.append_nil]
  · have hnew : [a].removeAll l = [a] := by simpa [List.removeAll] using h
    rw [if_neg h, hnew]
    rfl

/-- Without repetitions, the elements stand in the order in which they first occur. -/
theorem pairwise_idxOf_eraseDups (l : List α) :
    l.eraseDups.Pairwise fun a b => l.idxOf a < l.idxOf b := by
  induction l using List.reverseRecOn with
  | nil => exact .nil
  | append_singleton l next ih =>
    have hbefore {a : α} (ha : a ∈ l.eraseDups) : (l ++ [next]).idxOf a = l.idxOf a :=
      List.idxOf_append_of_mem (List.mem_eraseDups.mp ha)
    have hkept : l.eraseDups.Pairwise fun a b =>
        (l ++ [next]).idxOf a < (l ++ [next]).idxOf b := by
      refine ih.imp_of_mem fun ha hb hlt => ?_
      rwa [hbefore ha, hbefore hb]
    rw [eraseDups_concat]
    split
    · exact hkept
    next hnew =>
      refine List.pairwise_append.mpr ⟨hkept, List.pairwise_singleton _ _, ?_⟩
      intro a ha b hb
      obtain rfl := List.mem_singleton.mp hb
      rw [hbefore ha, List.idxOf_append_of_notMem hnew, List.idxOf_cons_self, Nat.add_zero]
      exact List.idxOf_lt_length_of_mem (List.mem_eraseDups.mp ha)

/-- Without repetitions no element stands twice. -/
theorem nodup_eraseDups (l : List α) : l.eraseDups.Nodup := by
  refine (pairwise_idxOf_eraseDups l).imp fun hlt heq => ?_
  rw [heq] at hlt
  exact Nat.lt_irrefl _ hlt

end

/-! ### Stable sorting -/

section

variable {α : Type} {R : α → α → Prop}

/-- Sorting keeps the order of what it takes for equal. -/
theorem pairwise_mergeSort_of_pairwise {le : α → α → Bool}
    (trans : ∀ a b c, le a b = true → le b c = true → le a c = true)
    (total : ∀ a b, (le a b || le b a) = true) {l : List α} (h : l.Pairwise R) :
    (l.mergeSort le).Pairwise fun a b => le a b = true ∧ (le b a = true → R a b) := by
  induction l with
  | nil => simp
  | cons a l ih =>
    rw [List.pairwise_cons] at h
    obtain ⟨before, after, hsort, hrest, hbefore⟩ := List.mergeSort_cons trans total a l
    have hmem {b : α} (hb : b ∈ before ++ after) : b ∈ l := by
      rw [← hrest] at hb
      exact List.mem_mergeSort.mp hb
    have hsorted := List.pairwise_mergeSort trans total (a :: l)
    have hothers := ih h.2
    rw [hrest, List.pairwise_append] at hothers
    rw [hsort, List.pairwise_append, List.pairwise_cons] at hsorted ⊢
    refine ⟨hothers.1, ⟨?_, hothers.2.1⟩, ?_⟩
    · intro b hb
      exact ⟨hsorted.2.1.1 b hb, fun _ => h.1 b (hmem (List.mem_append_right _ hb))⟩
    · intro b hb c hc
      rcases List.mem_cons.mp hc with rfl | hc
      · -- what is put before the first element of the list comes before it by the order alone
        have hnot : le c b = false := by simpa using hbefore b hb
        exact ⟨hsorted.2.2 b hb c hc, fun hle => absurd hle (by simp [hnot])⟩
      · exact hothers.2.2 b hb c hc

/-- Sorted by the length of their names, things with names of one length keep their order. -/
theorem Text.pairwise_mergeSort_longer (name : α → Text) {l : List α} (h : l.Pairwise R) :
    (l.mergeSort fun a b => (name b).byteLength ≤ (name a).byteLength).Pairwise fun a b =>
      (name b).byteLength < (name a).byteLength ∨
        (name a).byteLength = (name b).byteLength ∧ R a b := by
  refine (pairwise_mergeSort_of_pairwise (fun a b c => longer_trans (name a) (name b) (name c))
    (fun a b => longer_total (name a) (name b)) h).imp ?_
  intro a b ⟨hle, hequal⟩
  simp only [decide_eq_true_eq] at hle hequal
  rcases Nat.lt_or_eq_of_le hle with hlt | heq
  · exact .inl hlt
  · exact .inr ⟨heq.symm, hequal (Nat.le_of_eq heq.symm)⟩

end

end ExplicitInstantiation
