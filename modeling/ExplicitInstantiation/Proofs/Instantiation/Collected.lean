import Mathlib.Data.Finset.Dedup
import Mathlib.Data.List.Induction
import ExplicitInstantiation.Instantiation.Register
import ExplicitInstantiation.Proofs.Order
import ExplicitInstantiation.Proofs.Traversal

/-!
# Instantiations are collected in turn

The sites are resolved one after the other, and of instantiations that are written alike the first
is kept.

* **Lines** (`Instantiations.declarations_ofList`). The declarations of a list of instantiations are
  their lines in order, without the repetitions of lines that came before.
* **Faults** (`Site.resolve_eq_error_iff`, `resolveSites_eq_error_iff`). A fault is that of the
  first argument with one, in the first site with one.
* **Keys** (`Register`). The written forms and the list of the instantiations stay in step
  (`Register.Keyed.insert`), so the look-up finds what a search of the list finds, and collecting
  with a register comes to the same instantiations (`Register.ordered_ofList`).

`resolveSites_collects` puts them together.
-/

namespace ExplicitInstantiation

/-! ### Lines -/

namespace Instantiation

/-- Two instantiations have the same line exactly if they are written alike. -/
theorem declaration_eq_iff {a b : Instantiation} :
    a.declaration = b.declaration ↔ a.toText = b.toText := by
  unfold declaration
  rw [List.append_left_inj, List.append_right_inj]

end Instantiation

namespace Instantiations

/-- A set contains an instantiation exactly when it has its line. -/
theorem contains_iff_mem_declarations {set : Instantiations} {instantiation : Instantiation} :
    set.contains instantiation = true ↔ instantiation.declaration ∈ set.declarations := by
  unfold contains declarations
  rw [List.any_eq_true, List.mem_map]
  constructor
  · rintro ⟨other, hother, hsame⟩
    refine ⟨other, hother, Instantiation.declaration_eq_iff.mpr ?_⟩
    exact (Instantiation.isSame_iff.mp hsame).symm
  · rintro ⟨other, hother, hline⟩
    refine ⟨other, hother, Instantiation.isSame_iff.mpr ?_⟩
    exact (Instantiation.declaration_eq_iff.mp hline).symm

/-- An instantiation adds its line, unless the line is already there. -/
theorem declarations_insert (set : Instantiations) (instantiation : Instantiation) :
    (set.insert instantiation).declarations =
      if instantiation.declaration ∈ set.declarations then set.declarations
      else set.declarations ++ [instantiation.declaration] := by
  unfold insert
  by_cases h : set.contains instantiation = true
  · rw [if_pos h, if_pos (contains_iff_mem_declarations.mp h)]
  · rw [if_neg h, if_neg (mt contains_iff_mem_declarations.mpr h)]
    simp [declarations]

/-- The last instantiation is added to the others. -/
theorem ofList_concat (instantiations : List Instantiation) (next : Instantiation) :
    ofList (instantiations ++ [next]) = (ofList instantiations).insert next := by
  unfold ofList
  rw [List.foldl_append]
  rfl

/-- The declarations of a list are its lines without later repetitions. -/
theorem declarations_ofList (instantiations : List Instantiation) :
    (ofList instantiations).declarations =
      (instantiations.map Instantiation.declaration).eraseDups := by
  induction instantiations using List.reverseRecOn with
  | nil => rfl
  | append_singleton instantiations next ih =>
    rw [ofList_concat, declarations_insert, ih, List.map_append, List.map_singleton,
      eraseDups_concat]
    simp only [List.mem_eraseDups]

/-- A list contains an instantiation exactly when one of it has its line. -/
theorem contains_ofList_iff {instantiations : List Instantiation} {next : Instantiation} :
    (ofList instantiations).contains next = true ↔
      next.declaration ∈ instantiations.map Instantiation.declaration := by
  rw [contains_iff_mem_declarations, declarations_ofList, List.mem_eraseDups]

/-- No line is declared twice. -/
theorem nodup_declarations_ofList (instantiations : List Instantiation) :
    (ofList instantiations).declarations.Nodup := by
  rw [declarations_ofList]
  exact nodup_eraseDups _

end Instantiations

/-! ### Faults -/

/-- A list has the fault of its first argument with one. -/
theorem foldArguments_eq_error_iff {t : Text} {fault : Unfoldable} :
    foldArguments t = .error fault ↔
      ∃ before part after, topLevelParts t = before ++ part :: after ∧
        (∀ other ∈ before, ∃ result, foldArgument other.trim = .ok result) ∧
        foldArgument part.trim = .error fault := by
  have hmapM : foldArguments t = .error fault ↔
      (topLevelParts t).mapM (fun argument => foldArgument (Text.trim argument)) =
        .error fault := by
    unfold foldArguments
    by_cases ht : t = []
    · subst ht
      constructor <;> intro h <;> cases h
    · rw [if_neg (by simpa using ht)]
  rw [hmapM, mapM_eq_error_iff]

namespace Site

/-- A site is resolved by folding its arguments after the substitution. -/
theorem resolve_eq_map (constants : Constants) (site : Site) :
    site.resolve constants =
      (foldArguments (constants.substitute site.arguments)).map (⟨site.templateClass.name, ·⟩) := by
  unfold resolve
  rcases foldArguments (constants.substitute site.arguments) with fault | arguments <;> rfl

/-- A site stands for its class with the arguments that its list folds into. -/
theorem resolve_eq_ok_iff {constants : Constants} {site : Site} {instantiation : Instantiation} :
    site.resolve constants = .ok instantiation ↔
      instantiation.className = site.templateClass.name ∧
        foldArguments (constants.substitute site.arguments) = .ok instantiation.arguments := by
  rw [resolve_eq_map, map_eq_ok]
  constructor
  · rintro ⟨arguments, harguments, rfl⟩
    exact ⟨rfl, harguments⟩
  · rintro ⟨hname, harguments⟩
    exact ⟨_, harguments, by rw [← hname]⟩

/-- Without constants the arguments are those that the list of the site folds into. -/
theorem resolve_empty {site : Site} {arguments : List Text}
    (h : foldArguments site.arguments = .ok arguments) :
    site.resolve .empty = .ok ⟨site.templateClass.name, arguments⟩ := by
  rw [resolve_eq_ok_iff, Constants.substitute_empty]
  exact ⟨rfl, h⟩

/-- A site can be resolved exactly if its arguments can be folded. -/
theorem exists_resolve_eq_ok_iff {constants : Constants} {site : Site} :
    (∃ instantiation, site.resolve constants = .ok instantiation) ↔
      ∃ arguments, foldArguments (constants.substitute site.arguments) = .ok arguments := by
  rw [resolve_eq_map, exists_map_eq_ok_iff]

/-- A site has the fault of its first argument with one. -/
theorem resolve_eq_error_iff {constants : Constants} {site : Site} {fault : Unfoldable} :
    site.resolve constants = .error fault ↔
      ∃ before part after,
        topLevelParts (constants.substitute site.arguments) = before ++ part :: after ∧
        (∀ other ∈ before, ∃ result, foldArgument other.trim = .ok result) ∧
        foldArgument part.trim = .error fault := by
  rw [resolve_eq_map, map_eq_error_iff, foldArguments_eq_error_iff]

end Site

/-- To resolve sites is to resolve each one and to collect what they stand for. -/
theorem resolveSites_eq_map (constants : Constants) (sites : List Site) :
    resolveSites constants sites =
      (sites.mapM (Site.resolve constants)).map Instantiations.ofList := by
  unfold resolveSites
  rcases sites.mapM (Site.resolve constants) with fault | instantiations <;> rfl

/-- Sites are resolved to the instantiations that each of them stands for, collected. -/
theorem resolveSites_eq_ok_iff {constants : Constants} {sites : List Site} {set : Instantiations} :
    resolveSites constants sites = .ok set ↔
      ∃ instantiations,
        List.Forall₂ (fun site instantiation => site.resolve constants = .ok instantiation)
          sites instantiations ∧ Instantiations.ofList instantiations = set := by
  rw [resolveSites_eq_map, map_eq_ok]
  simp only [mapM_eq_ok_iff]

/-- The fault is that of the first site with one. -/
theorem resolveSites_eq_error_iff {constants : Constants} {sites : List Site}
    {fault : Unfoldable} :
    resolveSites constants sites = .error fault ↔
      ∃ before site after, sites = before ++ site :: after ∧
        (∀ other ∈ before, ∃ instantiation, other.resolve constants = .ok instantiation) ∧
        site.resolve constants = .error fault := by
  rw [resolveSites_eq_map, map_eq_error_iff, mapM_eq_error_iff]

/-! ### Keys -/

namespace Register

/-- Whether the instantiations and the written forms correspond one to one. -/
structure Keyed (register : Register) : Prop where
  /-- No two instantiations are written alike. -/
  distinct : (register.ordered.map Instantiation.toText).Nodup
  /-- The written forms are those of the instantiations. -/
  seen_eq : register.seen = (register.ordered.map Instantiation.toText).toFinset

/-- Before anything is collected, nothing is out of step. -/
theorem keyed_empty : empty.Keyed := ⟨List.nodup_nil, rfl⟩

/-- The written forms are those of the instantiations. -/
theorem Keyed.mem_seen_iff {register : Register} (h : register.Keyed) {key : Text} :
    key ∈ register.seen ↔ key ∈ register.ordered.map Instantiation.toText := by
  rw [h.seen_eq, List.mem_toFinset]

/-- An insertion keeps the instantiations and the written forms in step. -/
theorem Keyed.insert {register : Register} (h : register.Keyed) (instantiation : Instantiation) :
    (register.insert instantiation).2.Keyed := by
  unfold Register.insert
  split
  · exact h
  next hnew =>
    constructor
    · rw [List.map_append]
      rw [h.mem_seen_iff] at hnew
      exact List.nodup_append'.mpr ⟨h.distinct, List.nodup_singleton _, by simpa using hnew⟩
    · ext key
      rw [Finset.mem_insert, h.mem_seen_iff, List.mem_toFinset, List.map_append, List.mem_append,
        List.map_singleton, List.mem_singleton, or_comm]

/-- The last instantiation is taken in after the others. -/
theorem ofList_concat (instantiations : List Instantiation) (next : Instantiation) :
    ofList (instantiations ++ [next]) = ((ofList instantiations).insert next).2 := by
  unfold ofList
  rw [List.foldl_append]
  rfl

/-- They are in step after any number of insertions. -/
theorem keyed_ofList (instantiations : List Instantiation) : (ofList instantiations).Keyed := by
  induction instantiations using List.reverseRecOn with
  | nil => exact keyed_empty
  | append_singleton instantiations next ih =>
    rw [ofList_concat]
    exact ih.insert next

/-- The look-up among the written forms finds what the search of the list finds. -/
theorem Keyed.mem_seen_iff_contains {register : Register} (h : register.Keyed)
    (instantiation : Instantiation) :
    instantiation.toText ∈ register.seen ↔
      (Instantiations.mk register.ordered).contains instantiation = true := by
  rw [h.mem_seen_iff, Instantiations.contains, List.any_eq_true, List.mem_map]
  simp only [Instantiation.isSame_iff]
  exact exists_congr fun _ => and_congr_right fun _ => eq_comm

/-- Collecting with a register comes to the same instantiations. -/
theorem ordered_ofList (instantiations : List Instantiation) :
    (ofList instantiations).ordered = (Instantiations.ofList instantiations).items := by
  induction instantiations using List.reverseRecOn with
  | nil => rfl
  | append_singleton instantiations next ih =>
    have hseen := (keyed_ofList instantiations).mem_seen_iff_contains next
    rw [ih] at hseen
    rw [ofList_concat, Instantiations.ofList_concat, insert, Instantiations.insert]
    by_cases h : next.toText ∈ (ofList instantiations).seen
    · rw [if_pos h, if_pos (hseen.mp h)]
      exact ih
    · rw [if_neg h, if_neg (mt hseen.mpr h), ih]

/-- An insertion reports as new what a search of the list does not find. -/
theorem insert_ofList_fst (instantiations : List Instantiation) (next : Instantiation) :
    ((ofList instantiations).insert next).1 =
      !(Instantiations.ofList instantiations).contains next := by
  have hseen := (keyed_ofList instantiations).mem_seen_iff_contains next
  rw [ordered_ofList] at hseen
  unfold insert
  split
  next h => simpa using hseen.mp h
  next h => simpa using mt hseen.mpr h

/-- To collect site by site is to resolve each one and to collect what they stand for. -/
theorem ofSites_eq_map (constants : Constants) (sites : List Site) :
    ofSites constants sites = (sites.mapM (Site.resolve constants)).map ofList :=
  foldlM_eq_map_foldl (fun (register : Register) instantiation =>
    (register.insert instantiation).2) empty

end Register

/-- **Sites are resolved in turn, and each line is declared once.**

* There is a result exactly if the arguments of every site fold.
* The declarations are then the lines of the sites in order, without later repetitions.
* Otherwise the fault is that of the first argument that does not fold, in the first site that has
  one.
* The instantiations are those collected in a register. At any time its list and its set of written
  forms correspond one to one, and an insertion reports an instantiation as new exactly if it is not
  yet contained, that is, if its line is new.
-/
theorem resolveSites_collects (constants : Constants) (sites : List Site) :
    ((∃ set, resolveSites constants sites = .ok set) ↔
        ∀ site ∈ sites, ∃ arguments,
          foldArguments (constants.substitute site.arguments) = .ok arguments) ∧
      (∀ set, resolveSites constants sites = .ok set →
        ∃ instantiations,
          List.Forall₂ (fun site instantiation =>
            instantiation.className = site.templateClass.name ∧
              foldArguments (constants.substitute site.arguments) = .ok instantiation.arguments)
            sites instantiations ∧
          set.declarations = (instantiations.map Instantiation.declaration).eraseDups ∧
          set.declarations.Nodup) ∧
      (∀ fault, resolveSites constants sites = .error fault ↔
        ∃ before site after, sites = before ++ site :: after ∧
          (∀ other ∈ before, ∃ arguments,
            foldArguments (constants.substitute other.arguments) = .ok arguments) ∧
          ∃ front part back,
            topLevelParts (constants.substitute site.arguments) = front ++ part :: back ∧
            (∀ other ∈ front, ∃ result, foldArgument other.trim = .ok result) ∧
            foldArgument part.trim = .error fault) ∧
      (resolveSites constants sites).map Instantiations.items =
        (Register.ofSites constants sites).map Register.ordered ∧
      ∀ instantiations next,
        (Register.ofList instantiations).ordered = (Instantiations.ofList instantiations).items ∧
          (Register.ofList instantiations).Keyed ∧
          ((Register.ofList instantiations).insert next).1 =
            !(Instantiations.ofList instantiations).contains next ∧
          (((Register.ofList instantiations).insert next).1 = true ↔
            next.declaration ∉ instantiations.map Instantiation.declaration) := by
  refine ⟨?_, ?_, ?_, ?_, ?_⟩
  · rw [resolveSites_eq_map, exists_map_eq_ok_iff, exists_mapM_eq_ok_iff]
    simp only [Site.exists_resolve_eq_ok_iff]
  · intro set hset
    obtain ⟨instantiations, hresolve, rfl⟩ := resolveSites_eq_ok_iff.mp hset
    simp only [Site.resolve_eq_ok_iff] at hresolve
    exact ⟨instantiations, hresolve, Instantiations.declarations_ofList instantiations,
      Instantiations.nodup_declarations_ofList instantiations⟩
  · intro fault
    simp only [resolveSites_eq_error_iff, Site.exists_resolve_eq_ok_iff, Site.resolve_eq_error_iff]
  · rw [resolveSites_eq_map, Register.ofSites_eq_map]
    rcases sites.mapM (Site.resolve constants) with fault | instantiations
    · rfl
    · simp [Except.map, Register.ordered_ofList]
  · intro instantiations next
    refine ⟨Register.ordered_ofList instantiations, Register.keyed_ofList instantiations,
      Register.insert_ofList_fst instantiations next, ?_⟩
    rw [Register.insert_ofList_fst, ← Instantiations.contains_ofList_iff]
    simp

end ExplicitInstantiation
