import Mathlib.Data.Finset.Card
import Mathlib.Data.List.Induction
import ExplicitInstantiation.Constant.Indexed
import ExplicitInstantiation.Proofs.Constant.Table

/-!
# The index finds what a search finds

Constants may be kept with an index that maps each name to the place of its constant in the list.
The list and the index stay in step (`Coherent.insert`, `coherent_ofList`), so the place at which a
text is replaced is that of the only constant with the name, and the list is the one that the search
through the list comes to (`toConstants_ofList`). `ofList_refines` puts this together with what is
known of the list: its order, what a name stands for, and in which order names are substituted.
-/

namespace ExplicitInstantiation

namespace IndexedConstants

/-! ### The list and the index -/

/-- Whether the index maps each name to the place of the constant with that name, and no other name
to anything. -/
def Coherent (table : IndexedConstants) : Prop :=
  ∀ (name : Text) (place : Nat), table.index[name]? = some place ↔
    (table.entries.map Constant.name)[place]? = some name

/-- Without constants the list and the index are in step. -/
theorem coherent_empty : empty.Coherent := by
  intro name place
  simp [empty]

variable {table : IndexedConstants}

/-- A name has one place only. -/
theorem Coherent.nodup_names (h : table.Coherent) : table.toConstants.names.Nodup := by
  rw [Constants.names, toConstants, List.nodup_iff_injective_get]
  intro i j hij
  have hplace (i : Fin (table.entries.map Constant.name).length) :
      table.index[(table.entries.map Constant.name).get i]? = some i.val :=
    (h _ _).mpr (List.getElem?_eq_some_iff.mpr ⟨i.isLt, rfl⟩)
  have hi := hplace i
  rw [hij, hplace j] at hi
  exact Fin.ext (Option.some.inj hi).symm

/-- A name that is not in the index is not in the list. -/
theorem Coherent.not_mem_of_index (h : table.Coherent) {name : Text}
    (hnone : table.index[name]? = none) : name ∉ table.toConstants.names := by
  intro hmem
  obtain ⟨place, hplace⟩ := List.mem_iff_getElem?.mp hmem
  rw [(h name place).mpr hplace] at hnone
  cases hnone

/-- What stands in a list with one more element at its end. -/
theorem getElem?_concat_eq_some_iff {α : Type} {l : List α} {a b : α} {i : Nat} :
    (l ++ [a])[i]? = some b ↔ l[i]? = some b ∨ i = l.length ∧ a = b := by
  rcases Nat.lt_trichotomy i l.length with hlt | rfl | hgt
  · simp [List.getElem?_append_left hlt, Nat.ne_of_lt hlt]
  · simp
  · have hnone : l[i]? = none := List.getElem?_eq_none (Nat.le_of_lt hgt)
    rw [List.getElem?_append_right (Nat.le_of_lt hgt), List.getElem?_singleton, if_neg (by omega)]
    simp [hnone, Nat.ne_of_gt hgt]

/-- A new text leaves the names where they are. -/
theorem map_name_modify (entries : List Constant) (place : Nat) (value : Text) :
    (entries.modify place fun entry => { entry with value }).map Constant.name =
      entries.map Constant.name := by
  apply List.ext_getElem?
  intro i
  rw [List.getElem?_map, List.getElem?_modify, List.getElem?_map]
  rcases entries[i]? with _ | entry
  · rfl
  · by_cases hi : place = i <;> simp [hi]

/-- A definition keeps the list and the index in step. -/
theorem Coherent.insert (h : table.Coherent) (constant : Constant) :
    (table.insert constant).Coherent := by
  intro name place
  rw [IndexedConstants.insert]
  split
  next => rw [map_name_modify, h name place]
  next hnew =>
    have hnone := h.not_mem_of_index hnew
    rw [Std.HashMap.getElem?_insert, List.map_append, List.map_singleton,
      getElem?_concat_eq_some_iff, List.length_map]
    by_cases hname : constant.name = name
    · subst hname
      have hother : (table.entries.map Constant.name)[place]? ≠ some constant.name :=
        fun heq => hnone (List.mem_of_getElem? heq)
      rw [if_pos (beq_self_eq_true _), Option.some.injEq]
      simp only [hother, false_or, and_true]
      exact eq_comm
    · rw [if_neg (by simpa using hname), h name place]
      simp only [hname, and_false, or_false]

/-- One more definition is made on top of the others. -/
theorem ofList_concat (definitions : List Constant) (next : Constant) :
    ofList (definitions ++ [next]) = (ofList definitions).insert next := by
  unfold ofList
  rw [List.foldl_append]
  rfl

/-- They are in step after any number of definitions. -/
theorem coherent_ofList (definitions : List Constant) : (ofList definitions).Coherent := by
  induction definitions using List.reverseRecOn with
  | nil => exact coherent_empty
  | append_singleton definitions next ih =>
    rw [ofList_concat]
    exact ih.insert next

/-! ### The same constants -/

/-- A definition with an index comes to the same constants. -/
theorem Coherent.toConstants_insert (h : table.Coherent) (constant : Constant) :
    (table.insert constant).toConstants = table.toConstants.define constant := by
  rw [IndexedConstants.insert]
  split
  next place hplace =>
    have hput := Constants.put_eq_modify h.nodup_names ((h _ _).mp hplace)
    exact congrArg Constants.mk hput.symm
  next hnew => exact congrArg Constants.mk (Constants.put_of_not_mem (h.not_mem_of_index hnew)).symm

/-- With an index, definitions come to the same constants. -/
theorem toConstants_ofList (definitions : List Constant) :
    (ofList definitions).toConstants = Constants.ofList definitions := by
  induction definitions using List.reverseRecOn with
  | nil => rfl
  | append_singleton definitions next ih =>
    rw [ofList_concat, (coherent_ofList definitions).toConstants_insert, ih,
      Constants.ofList_concat]

/-- The index finds what the search through the list finds. -/
theorem Coherent.get?_eq (h : table.Coherent) (name : Text) :
    table.get? name = table.toConstants.get? name := by
  rw [get?]
  rcases hindex : table.index[name]? with _ | place
  · rw [Constants.get?_of_not_mem (h.not_mem_of_index hindex)]
    rfl
  · have hname := (h name place).mp hindex
    rw [List.getElem?_map] at hname
    obtain ⟨entry, hentry, rfl⟩ := Option.map_eq_some_iff.mp hname
    rw [Option.bind_some, hentry, Option.map_some,
      Constants.get?_of_mem h.nodup_names (List.mem_of_getElem? hentry)]

/-- **Constants with an index are a map in the order of first definitions.** After any definitions:

* The constants are those that a search through the list comes to. The index maps each name to the
  place of the constant with that name, and nothing else to anything.
* Through the index or by a search, a name stands for the text that it was last given.
* There are as many constants as different names, and their names stand in the order of their first
  definitions.
* The constants are substituted with the longest names first, and those with names of one length in
  the order of their first definitions.
-/
theorem ofList_refines (definitions : List Constant) :
    (ofList definitions).toConstants = Constants.ofList definitions ∧
      (∀ (name : Text) (place : Nat), (ofList definitions).index[name]? = some place ↔
        ∃ entry, (ofList definitions).entries[place]? = some entry ∧ entry.name = name) ∧
      (∀ name, (ofList definitions).get? name =
          (definitions.reverse.find? (·.name == name)).map Constant.value ∧
        (Constants.ofList definitions).get? name = (ofList definitions).get? name) ∧
      (Constants.ofList definitions).size = (definitions.map Constant.name).toFinset.card ∧
      (Constants.ofList definitions).names = (definitions.map Constant.name).eraseDups ∧
      (Constants.ofList definitions).longestFirst.Perm (Constants.ofList definitions).entries ∧
      (Constants.ofList definitions).longestFirst.Pairwise fun a b =>
        b.name.byteLength < a.name.byteLength ∨
          a.name.byteLength = b.name.byteLength ∧
            (definitions.map Constant.name).idxOf a.name <
              (definitions.map Constant.name).idxOf b.name := by
  have hcoherent := coherent_ofList definitions
  have hsame := toConstants_ofList definitions
  have hnames := Constants.names_ofList definitions
  have hget (name : Text) :
      (Constants.ofList definitions).get? name = (ofList definitions).get? name := by
    rw [hcoherent.get?_eq, hsame]
  refine ⟨hsame, ?_, ?_, ?_, hnames, Constants.perm_longestFirst _, ?_⟩
  · intro name place
    rw [hcoherent name place, List.getElem?_map, Option.map_eq_some_iff]
  · intro name
    rw [← hget, Constants.get?_ofList]
    exact ⟨rfl, rfl⟩
  · have hsize :
        (Constants.ofList definitions).size = (Constants.ofList definitions).names.length :=
      (List.length_map _).symm
    rw [hsize, ← List.toFinset_card_of_nodup (Constants.nodup_names_ofList definitions), hnames]
    congr 1
    ext name
    rw [List.mem_toFinset, List.mem_toFinset, List.mem_eraseDups]
  · exact Constants.pairwise_longestFirst_of_pairwise (Constants.pairwise_ofList definitions)

end IndexedConstants

end ExplicitInstantiation
