import Mathlib.Data.List.Nodup
import Mathlib.Data.List.Pairwise
import ExplicitInstantiation.Proofs.Order
import ExplicitInstantiation.TemplateClass.Declared

/-!
# Names and order of template classes

Classes are searched for in the order of `TemplateClass.longestFirst`. The order is stable
(`filter_longestFirst`), so the first class of a name remains the first of that name
(`find?_longestFirst`), and of two names the one that comes first is longer or, among names of one
length, listed earlier (`idxOf_longestFirst_lt`).

The classes that a header declares have different names (`nodup_declaredClasses`).
-/

namespace ExplicitInstantiation

namespace TemplateClass

/-! ### The longest names first -/

/-- No name stands before a longer one. -/
theorem pairwise_longestFirst (classes : List TemplateClass) :
    (longestFirst classes).Pairwise fun a b => b.name.byteLength ≤ a.name.byteLength := by
  have hany : classes.Pairwise fun _ _ => True := List.pairwise_of_forall fun _ _ => trivial
  refine (Text.pairwise_mergeSort_longer name hany).imp ?_
  intro a b h
  omega

/-- Classes with names of one length keep their order. -/
theorem filter_longestFirst {p : TemplateClass → Bool}
    (hp : ∀ a b, p a = true → p b = true → a.name.byteLength = b.name.byteLength)
    (classes : List TemplateClass) : (longestFirst classes).filter p = classes.filter p := by
  have hequal : (classes.filter p).Pairwise fun a b =>
      decide (b.name.byteLength ≤ a.name.byteLength) = true := by
    refine List.pairwise_of_forall_mem_list fun a ha b hb => ?_
    rw [hp a b (List.mem_filter.mp ha).2 (List.mem_filter.mp hb).2]
    exact decide_eq_true (Nat.le_refl _)
  have hsublist : (classes.filter p).Sublist ((longestFirst classes).filter p) := by
    have h := (List.sublist_mergeSort (fun a b c : TemplateClass =>
      Text.longer_trans a.name b.name c.name) (fun a b => Text.longer_total a.name b.name) hequal
      List.filter_sublist).filter p
    simpa [longestFirst, List.filter_filter] using h
  have hlength : ((longestFirst classes).filter p).length = (classes.filter p).length :=
    ((List.mergeSort_perm classes _).filter p).length_eq
  exact (hsublist.eq_of_length hlength.symm).symm

/-- The first class of a name stays the first of that name. -/
theorem find?_longestFirst (classes : List TemplateClass) (name : Text) :
    (longestFirst classes).find? (·.name == name) = classes.find? (·.name == name) := by
  rw [← List.head?_filter, ← List.head?_filter, filter_longestFirst]
  intro a b ha hb
  rw [eq_of_beq ha, eq_of_beq hb]

/-- A filter keeps the order in which the names that pass it occur first. -/
theorem idxOf_filter_lt_iff {p : Text → Bool} {a b : Text} (ha : p a = true) (hb : p b = true)
    (names : List Text) :
    (names.filter p).idxOf a < (names.filter p).idxOf b ↔ names.idxOf a < names.idxOf b := by
  induction names with
  | nil => rfl
  | cons name names ih =>
    by_cases hname : p name = true
    · rw [List.filter_cons_of_pos hname]
      grind
    · rw [List.filter_cons_of_neg hname, ih]
      have hnea : name ≠ a := fun h => hname (h ▸ ha)
      have hneb : name ≠ b := fun h => hname (h ▸ hb)
      rw [List.idxOf_cons_ne _ hnea, List.idxOf_cons_ne _ hneb, Nat.succ_lt_succ_iff]

/-- Of two names, the one that comes first in the order of the search is longer, or it is as long
and listed earlier. -/
theorem idxOf_longestFirst_lt {classes : List TemplateClass} {a b : Text}
    (hb : b ∈ classes.map name)
    (h : ((longestFirst classes).map name).idxOf a < ((longestFirst classes).map name).idxOf b) :
    b.byteLength < a.byteLength ∨
      a.byteLength = b.byteLength ∧ (classes.map name).idxOf a < (classes.map name).idxOf b := by
  have hsorted : ((longestFirst classes).map name).Pairwise
      fun a b => b.byteLength ≤ a.byteLength :=
    List.pairwise_map.mpr (pairwise_longestFirst classes)
  have hmem : b ∈ (longestFirst classes).map name :=
    ((List.mergeSort_perm classes _).map name).mem_iff.mpr hb
  have hle : b.byteLength ≤ a.byteLength := by
    have hindex := List.idxOf_lt_length_of_mem hmem
    have := List.pairwise_iff_getElem.mp hsorted _ _ (Nat.lt_trans h hindex) hindex h
    simpa using this
  rcases Nat.lt_or_eq_of_le hle with hlt | heq
  · exact .inl hlt
  · refine .inr ⟨heq.symm, ?_⟩
    have hfilter : ((longestFirst classes).map name).filter (·.byteLength = b.byteLength) =
        (classes.map name).filter (·.byteLength = b.byteLength) := by
      rw [List.filter_map, List.filter_map, filter_longestFirst]
      simp_all
    have hcount (names : List Text) :=
      @idxOf_filter_lt_iff (·.byteLength = b.byteLength) a b (by simp [heq]) (by simp) names
    rwa [← hcount, hfilter, hcount] at h

end TemplateClass

/-! ### Declared classes -/

namespace HeaderReading

/-- No two classes have the same name. -/
def Distinct (reading : HeaderReading) : Prop :=
  (reading.classes.map TemplateClass.name).Nodup

/-- To declare a class keeps the names different. -/
theorem Distinct.declare {reading : HeaderReading} (h : reading.Distinct) (name : Text)
    (required : Nat) : (reading.declare name required).Distinct := by
  rw [HeaderReading.declare]
  split
  · exact h
  next hnew =>
    have hname : name ∉ reading.classes.map TemplateClass.name := by simpa using hnew
    simpa [Distinct] using List.Nodup.concat hname h

/-- A line keeps the names different. -/
theorem Distinct.step {reading : HeaderReading} (h : reading.Distinct) (line : Text) :
    (reading.step line).Distinct := by
  have hsettled : (reading.settle line).Distinct := by
    have hfree : HeaderReading.Distinct { reading with pending := none } := h
    rw [settle.eq_def]
    split
    · exact hfree.declare _ _
    · exact hfree
  rw [HeaderReading.step, introduce.eq_def]
  split
  · exact hsettled
  · split
    · exact hsettled.declare _ _
    · exact hsettled

end HeaderReading

/-- A header declares each name once. -/
theorem nodup_declaredClasses (header : Text) :
    ((declaredClasses header).map TemplateClass.name).Nodup := by
  suffices h : ∀ (lines : List CodeLine) (reading : HeaderReading), reading.Distinct →
      (lines.foldl (fun reading line => reading.step line.code) reading).Distinct from
    h (codeLines header) .empty .nil
  intro lines
  induction lines with
  | nil => exact fun _ h => h
  | cons line lines ih => exact fun reading h => ih _ (h.step line.code)

end ExplicitInstantiation
