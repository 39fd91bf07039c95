import ExplicitInstantiation.Constant.Basic
import ExplicitInstantiation.Proofs.Order
import ExplicitInstantiation.Proofs.Text.Bytes

/-!
# The names of constants

However constants were defined, their names stand in the order of their first definitions, each of
them once (`names_ofList`, `nodup_names_ofList`). So the text of a constant is what its name stands
for (`get?_of_mem`), and this is the text that it was last given (`get?_ofList`). The order in which
they are substituted has the same constants; those with names of one length keep their order in it
(`pairwise_longestFirst_of_pairwise`), and no name stands inside one that comes later
(`pairwise_not_infix_longestFirst`).
-/

namespace ExplicitInstantiation

namespace Constants

/-- The names in the order of their first definitions. -/
def names (constants : Constants) : List Text :=
  constants.entries.map Constant.name

/-! ### Definitions -/

/-- To put a constant keeps the names, or it adds a new one at the end. -/
theorem map_name_put (constant : Constant) (entries : List Constant) :
    (put constant entries).map Constant.name =
      if constant.name ∈ entries.map Constant.name then entries.map Constant.name
      else entries.map Constant.name ++ [constant.name] := by
  induction entries with
  | nil => rfl
  | cons entry entries ih =>
    rw [put]
    split
    next heq => simp [heq]
    next hne =>
      have hmem : constant.name ∈ (entry :: entries).map Constant.name ↔
          constant.name ∈ entries.map Constant.name := by
        rw [List.map_cons, List.mem_cons, or_iff_right (Ne.symm hne)]
      rw [List.map_cons, ih]
      simp only [hmem]
      split <;> rfl

/-- A constant with a new name is put at the end. -/
theorem put_of_not_mem {constant : Constant} {entries : List Constant}
    (h : constant.name ∉ entries.map Constant.name) :
    put constant entries = entries ++ [constant] := by
  induction entries with
  | nil => rfl
  | cons entry entries ih =>
    rw [List.map_cons, List.mem_cons, not_or] at h
    rw [put, if_neg (Ne.symm h.1), ih h.2, List.cons_append]

/-- A known constant is replaced at the place of its name. -/
theorem put_eq_modify {constant : Constant} {entries : List Constant} {place : Nat}
    (hnodup : (entries.map Constant.name).Nodup)
    (hplace : (entries.map Constant.name)[place]? = some constant.name) :
    put constant entries =
      entries.modify place fun entry => { entry with value := constant.value } := by
  induction entries generalizing place with
  | nil => simp at hplace
  | cons entry entries ih =>
    rw [List.map_cons, List.nodup_cons] at hnodup
    rw [Constants.put]
    cases place with
    | zero =>
      have hname : entry.name = constant.name := by simpa using hplace
      rw [if_pos hname, List.modify_zero_cons, hname]
    | succ place =>
      rw [List.map_cons, List.getElem?_cons_succ] at hplace
      have hname : entry.name ≠ constant.name :=
        fun heq => hnodup.1 (heq ▸ List.mem_of_getElem? hplace)
      rw [if_neg hname, ih hnodup.2 hplace, List.modify_succ_cons]

/-- One more definition is made on top of the others. -/
theorem ofList_concat (definitions : List Constant) (next : Constant) :
    ofList (definitions ++ [next]) = (ofList definitions).define next := by
  unfold ofList
  rw [List.foldl_append]
  rfl

/-! ### The order of names -/

/-- The names stand in the order of their first definitions. -/
theorem names_ofList (definitions : List Constant) :
    (ofList definitions).names = (definitions.map Constant.name).eraseDups := by
  induction definitions using List.reverseRecOn with
  | nil => rfl
  | append_singleton definitions next ih =>
    rw [ofList_concat, names, define, map_name_put, ← names, ih, List.map_append,
      List.map_singleton, eraseDups_concat]
    simp only [List.mem_eraseDups]

/-- Constants that were defined one after the other have different names. -/
theorem nodup_names_ofList (definitions : List Constant) : (ofList definitions).names.Nodup := by
  rw [names_ofList]
  exact nodup_eraseDups _

/-- Constants stand in the order of their first definitions. -/
theorem pairwise_ofList (definitions : List Constant) :
    (ofList definitions).entries.Pairwise fun a b =>
      (definitions.map Constant.name).idxOf a.name <
        (definitions.map Constant.name).idxOf b.name := by
  have hnames := pairwise_idxOf_eraseDups (definitions.map Constant.name)
  rw [← names_ofList, names, List.pairwise_map] at hnames
  exact hnames

/-! ### What names stand for -/

/-- A name stands for the text of the only constant with that name. -/
theorem get?_of_mem {constants : Constants} (h : constants.names.Nodup) {constant : Constant}
    (hmem : constant ∈ constants.entries) :
    constants.get? constant.name = some constant.value := by
  obtain ⟨entries⟩ := constants
  simp only [names, get?] at h hmem ⊢
  induction entries with
  | nil => cases hmem
  | cons entry entries ih =>
    rw [List.map_cons, List.nodup_cons] at h
    rcases List.mem_cons.mp hmem with rfl | hmem
    · simp
    · have hne : entry.name ≠ constant.name :=
        fun heq => h.1 (heq ▸ List.mem_map_of_mem hmem)
      rw [List.find?_cons_of_neg (by simpa using hne)]
      exact ih h.2 hmem

/-- A definition changes what its own name stands for, and nothing else. -/
theorem get?_define (constants : Constants) (constant : Constant) (name : Text) :
    (constants.define constant).get? name =
      if constant.name = name then some constant.value else constants.get? name := by
  by_cases hname : constant.name = name
  · rw [if_pos hname, ← hname, get?_define_self]
  · rw [if_neg hname]
    obtain ⟨entries⟩ := constants
    simp only [define, get?]
    congr 1
    induction entries with
    | nil => simp [put, hname]
    | cons entry entries ih =>
      rw [put]
      split
      next heq => simp [hname, heq]
      next => rw [List.find?_cons, List.find?_cons, ih]

/-- A name stands for the text it was last given. -/
theorem get?_ofList (definitions : List Constant) (name : Text) :
    (ofList definitions).get? name =
      (definitions.reverse.find? (·.name == name)).map Constant.value := by
  induction definitions using List.reverseRecOn with
  | nil => rfl
  | append_singleton definitions next ih =>
    rw [ofList_concat, get?_define, List.reverse_append, List.reverse_singleton,
      List.singleton_append, ih]
    split
    next hname => rw [List.find?_cons_of_pos (by simpa using hname), Option.map_some]
    next hname => rw [List.find?_cons_of_neg (by simpa using hname)]

/-- A later definition gives the text, and the constant keeps its place. -/
example :
    (ofList [⟨['A'], ['1']⟩, ⟨['B'], ['2']⟩, ⟨['A'], ['3']⟩]).entries =
      [⟨['A'], ['3']⟩, ⟨['B'], ['2']⟩] := by decide

/-- A name without a constant stands for nothing. -/
theorem get?_of_not_mem {constants : Constants} {name : Text} (h : name ∉ constants.names) :
    constants.get? name = none := by
  rw [get?, Option.map_eq_none_iff, List.find?_eq_none]
  intro entry hentry heq
  exact h (eq_of_beq heq ▸ List.mem_map_of_mem hentry)

/-! ### The longest names first -/

/-- To put the longest names first is to arrange the constants in another order. -/
theorem perm_longestFirst (constants : Constants) :
    constants.longestFirst.Perm constants.entries :=
  List.mergeSort_perm _ _

/-- Constants with names of one length keep their order. -/
theorem pairwise_longestFirst_of_pairwise {constants : Constants} {R : Constant → Constant → Prop}
    (h : constants.entries.Pairwise R) :
    constants.longestFirst.Pairwise fun a b =>
      b.name.byteLength < a.name.byteLength ∨ a.name.byteLength = b.name.byteLength ∧ R a b :=
  Text.pairwise_mergeSort_longer Constant.name h

/-- Of two constants the first one stays first, unless the name of the other one is longer. -/
theorem longestFirst_pair (a b : Constant) :
    longestFirst ⟨[a, b]⟩ =
      if b.name.byteLength ≤ a.name.byteLength then [a, b] else [b, a] := by
  rw [longestFirst]
  simp [List.mergeSort, List.cons_merge_cons]

/-- No name stands before a longer one. -/
theorem pairwise_longestFirst (constants : Constants) :
    constants.longestFirst.Pairwise fun a b => b.name.byteLength ≤ a.name.byteLength := by
  have hany : constants.entries.Pairwise fun _ _ => True :=
    List.pairwise_of_forall fun _ _ => trivial
  refine (pairwise_longestFirst_of_pairwise hany).imp ?_
  intro a b h
  omega

/-- In that order, too, the names are different. -/
theorem nodup_map_name_longestFirst {constants : Constants} (h : constants.names.Nodup) :
    (constants.longestFirst.map Constant.name).Nodup :=
  ((perm_longestFirst constants).map Constant.name).nodup_iff.mpr h

/-- A name does not stand inside one that comes later: that one is no longer, and it is another. -/
theorem pairwise_not_infix_longestFirst {constants : Constants} (h : constants.names.Nodup) :
    constants.longestFirst.Pairwise fun a b => ¬ a.name <:+: b.name := by
  have hne : constants.longestFirst.Pairwise fun a b => a.name ≠ b.name :=
    List.pairwise_map.mp (nodup_map_name_longestFirst h)
  refine (hne.and (pairwise_longestFirst constants)).imp ?_
  rintro a b ⟨hne, hle⟩ hinfix
  exact hne (Text.eq_of_isInfix hinfix hle)

end Constants

end ExplicitInstantiation
