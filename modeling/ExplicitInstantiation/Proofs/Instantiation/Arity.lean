import ExplicitInstantiation.Proofs.Site.Survey
import ExplicitInstantiation.Proofs.Source.Nesting
import ExplicitInstantiation.Proofs.Task.Ending
import ExplicitInstantiation.Proofs.Text.Replace
import ExplicitInstantiation.Proofs.Traversal

/-!
# The number of arguments of an instantiation

Whether a site passes enough arguments is decided on the list as it is written. What is emitted are
the parts of that list after constants have been replaced in it, and a replacement can change their
number: it removes the characters of the name and puts those of the value in their place.

* **Self-contained constants** (`Constant.SelfContained`) lose no argument. Read side by side, the
  list after the replacement is never deeper in brackets than the list before it, so every comma
  that separates arguments before does so after (`SelfContained.length_partsFrom_le`).
* **Every instantiation** comes from a site that was accepted on the written list, so it has enough
  arguments if the constants replaced there are self-contained (`required_le_length_arguments`).
* **Other constants** can take arguments away (`yieldsTooFew_samples`).
-/

namespace ExplicitInstantiation

/-! ### Replacing names -/

/-- A constant whose replacement leaves the arguments around it apart: its name has no comma and no
closing bracket, and its value closes every bracket that it opens. -/
def Constant.SelfContained (constant : Constant) : Prop :=
  (∀ c ∈ constant.name, c ≠ ',' ∧ isCloser c = false) ∧ depthAtEnd 0 constant.value = 0

instance (constant : Constant) : Decidable constant.SelfContained :=
  decidable_of_iff
    ((constant.name.all fun c => c != ',' && !isCloser c) = true ∧ depthAtEnd 0 constant.value = 0)
    (by simp [Constant.SelfContained])

/-- A character that closes nothing does not lower the depth. -/
theorem le_depthAfter {c : Char} (h : isCloser c = false) (depth : Nat) :
    depth ≤ depthAfter depth c := by
  simp only [depthAfter, h]
  split <;> simp

/-- Replacing a self-contained constant leaves at least as many parts, also when the text after it
starts at a lower depth. While the name is passed over, the text before it can only get deeper. -/
theorem Constant.SelfContained.length_partsFrom_le {constant : Constant}
    (h : constant.SelfContained) (hname : constant.name ≠ []) {t : Text}
    {skip depth depth' : Nat} (hdepth : depth' ≤ depth)
    (hpassed : ∀ c ∈ t.take skip, c ≠ ',' ∧ isCloser c = false) :
    (partsFrom depth t).length ≤
      (partsFrom depth' (Text.replaceFrom constant.name constant.value skip t)).length := by
  induction t generalizing skip depth depth' with
  | nil => simp [Text.replaceFrom, partsFrom]
  | cons c t ih =>
    cases skip with
    | succ skip =>
      obtain ⟨hcomma, hcloser⟩ := hpassed c (by simp)
      rw [Text.replaceFrom, length_partsFrom_cons (by simp [hcomma])]
      exact ih (Nat.le_trans hdepth (le_depthAfter hcloser depth))
        fun d hd => hpassed d (by simp [hd])
    | zero =>
      rw [Text.replaceFrom]
      split
      next hstands =>
        obtain ⟨⟨hcomma, hcloser⟩, hrest⟩ := Text.forall_of_isPrefixOf hname h.1 hstands
        rw [length_partsFrom_cons (by simp [hcomma])]
        refine Nat.le_trans (ih ?_ hrest) (length_partsFrom_le_append depth' constant.value _)
        calc depthAtEnd depth' constant.value
          _ ≤ depth' := depthAtEnd_le_of_zero h.2 depth'
          _ ≤ depth := hdepth
          _ ≤ depthAfter depth c := le_depthAfter hcloser depth
      next =>
        have hih {depth depth' : Nat} (hdepth : depth' ≤ depth) :=
          @ih 0 depth depth' hdepth (by simp)
        by_cases hcut' : c = ',' ∧ depth' = 0
        · obtain ⟨rfl, rfl⟩ := hcut'
          rw [length_partsFrom_comma]
          by_cases hcut : depth = 0
          · subst hcut
            rw [length_partsFrom_comma]
            exact Nat.succ_le_succ (hih hdepth)
          · rw [length_partsFrom_cons (by simp [hcut])]
            exact Nat.le_succ_of_le (hih (Nat.zero_le _))
        · have hcut : ¬ (c = ',' ∧ depth = 0) := fun hcut => hcut' ⟨hcut.1, by omega⟩
          rw [length_partsFrom_cons hcut, length_partsFrom_cons hcut']
          exact hih (depthAfter_mono hdepth c)

/-! ### Substitution -/

namespace Constants

/-- The constants of a list whose names stand in the text when their turn comes. -/
def appliedFrom : List Constant → Text → List Constant
  | [], _ => []
  | constant :: constants, t =>
    if t.hasText constant.name then
      constant :: appliedFrom constants (t.replaceAll constant.name constant.value)
    else appliedFrom constants t

/-- The constants that a substitution replaces in a text. -/
def applied (constants : Constants) (t : Text) : List Constant :=
  appliedFrom constants.longestFirst t

/-- If no name stands in the text at its turn, the text stays as it is. -/
theorem foldl_of_appliedFrom {constants : List Constant} {t : Text}
    (h : appliedFrom constants t = []) :
    constants.foldl (fun t constant => t.replaceAll constant.name constant.value) t = t := by
  induction constants with
  | nil => rfl
  | cons constant constants ih =>
    rw [appliedFrom] at h
    split at h
    next => cases h
    next habsent =>
      rw [List.foldl_cons, Text.replaceAll_of_not_hasText _ (by simpa using habsent)]
      exact ih h

/-- A substitution that replaces no constant changes nothing. -/
theorem substitute_of_applied {constants : Constants} {t : Text} (h : constants.applied t = []) :
    constants.substitute t = t :=
  foldl_of_appliedFrom h

/-- A substitution of self-contained constants loses no argument. -/
theorem argumentCount_le_foldl {constants : List Constant}
    (hgiven : ∀ constant ∈ constants, constant.name ≠ [] ∧ constant.value ≠ []) {t : Text}
    (happlied : ∀ constant ∈ appliedFrom constants t, constant.SelfContained) :
    argumentCount t ≤ argumentCount
      (constants.foldl (fun t constant => t.replaceAll constant.name constant.value) t) := by
  induction constants generalizing t with
  | nil => exact Nat.le_refl _
  | cons constant constants ih =>
    rw [List.forall_mem_cons] at hgiven
    rw [List.foldl_cons]
    rw [appliedFrom] at happlied
    split at happlied
    next =>
      rw [List.forall_mem_cons] at happlied
      refine Nat.le_trans ?_ (ih hgiven.2 happlied.2)
      by_cases ht : t = []
      · simp [ht]
      · have hreplaced := Text.replaceAll_ne_nil ht constant.name hgiven.1.2
        rw [argumentCount, argumentCount, if_neg (by simpa using ht),
          if_neg (by simpa using hreplaced)]
        exact happlied.1.length_partsFrom_le hgiven.1.1 (Nat.le_refl 0) (by simp)
    next habsent =>
      rw [Text.replaceAll_of_not_hasText _ (by simpa using habsent)]
      exact ih hgiven.2 happlied

/-- A substitution of constants that leave the arguments apart takes no argument away. -/
theorem argumentCount_le_substitute {constants : Constants} (hgiven : constants.Given) {t : Text}
    (happlied : ∀ constant ∈ constants.applied t, constant.SelfContained) :
    argumentCount t ≤ argumentCount (constants.substitute t) :=
  argumentCount_le_foldl
    (fun constant hconstant => hgiven constant (List.mem_mergeSort.mp hconstant)) happlied

end Constants

/-! ### Resolution -/

/-- Folding neither joins nor drops arguments. -/
theorem length_of_foldArguments {t : Text} {arguments : List Text}
    (h : foldArguments t = .ok arguments) : arguments.length = argumentCount t := by
  rw [foldArguments] at h
  rw [argumentCount]
  split at h
  · cases h
    simp_all
  · rw [if_neg ‹_›, (results_of_mapM h).1]

/-- A resolved site has the name of its class and as many arguments as its list after the
substitution. -/
theorem Site.resolve_eq_ok {constants : Constants} {site : Site} {instantiation : Instantiation}
    (h : site.resolve constants = .ok instantiation) :
    instantiation.className = site.templateClass.name ∧
      instantiation.arguments.length = argumentCount (constants.substitute site.arguments) := by
  obtain ⟨arguments, harguments, h⟩ := bind_eq_ok.mp h
  cases h
  exact ⟨rfl, length_of_foldArguments harguments⟩

/-- What is in the set after an insertion was there before or has been inserted. -/
theorem Instantiations.mem_insert {set : Instantiations} {instantiation other : Instantiation}
    (h : other ∈ (set.insert instantiation).items) : other ∈ set.items ∨ other = instantiation := by
  rw [insert] at h
  split at h
  · exact .inl h
  · simpa using h

/-- What is in the set after many insertions was there before or has been inserted. -/
theorem Instantiations.mem_foldl_insert {instantiations : List Instantiation} {set : Instantiations}
    {other : Instantiation} (h : other ∈ (instantiations.foldl insert set).items) :
    other ∈ set.items ∨ other ∈ instantiations := by
  induction instantiations generalizing set with
  | nil => exact .inl h
  | cons instantiation instantiations ih =>
    rcases ih h with h | h
    · exact (mem_insert h).imp_right fun heq => by simp [heq]
    · exact .inr (List.mem_cons_of_mem _ h)

/-- Every instantiation is that of a site. -/
theorem exists_site_of_mem_resolveSites {constants : Constants} {sites : List Site}
    {set : Instantiations} (h : resolveSites constants sites = .ok set)
    {instantiation : Instantiation} (hmem : instantiation ∈ set.items) :
    ∃ site ∈ sites, site.resolve constants = .ok instantiation := by
  obtain ⟨instantiations, hall, h⟩ := bind_eq_ok.mp h
  cases h
  have hresult : instantiation ∈ instantiations :=
    (Instantiations.mem_foldl_insert hmem).resolve_left (by simp [Instantiations.empty])
  exact (results_of_mapM hall).2 instantiation hresult

/-! ### Usage files -/

namespace Task

/-- Usage files yield accepted sites and constants with names and values. -/
theorem surveyUsages_accepted {view : Path → Except FileFault Text} {classes : List TemplateClass}
    {paths : List Path} {usage usage' : Usage}
    (h : surveyUsages view classes paths usage = .ok usage')
    (hsites : ∀ site ∈ usage.sites, site.Accepted classes) (hconstants : usage.constants.Given) :
    (∀ site ∈ usage'.sites, site.Accepted classes) ∧ usage'.constants.Given := by
  induction paths generalizing usage with
  | nil =>
    cases h
    exact ⟨hsites, hconstants⟩
  | cons path paths ih =>
    rw [surveyUsages] at h
    split at h
    · cases h
    · simp only at h
      split at h
      · cases h
      next sites hfile =>
        refine ih h (fun site hsite => ?_) (surveyLines_given hconstants _)
        rcases List.mem_append.mp hsite with hsite | hsite
        · exact hsites site hsite
        · exact surveyLines_accepted hfile site hsite

end Task

/-- **Instantiations have enough arguments.** An instantiation stands for a site of a declared
class. If the constants that are replaced in the arguments of that site are self-contained, it has
at least as many arguments as the class of its name requires. -/
theorem required_le_length_arguments {header : Text} {view : Path → Except FileFault Text}
    {paths : List Path} {usage : Task.Usage} {set : Instantiations}
    (hsurvey : Task.surveyUsages view (declaredClasses header) paths ⟨[], .empty⟩ = .ok usage)
    (hresolve : resolveSites usage.constants usage.sites = .ok set)
    {instantiation : Instantiation} (hmem : instantiation ∈ set.items) :
    ∃ site ∈ usage.sites, site.resolve usage.constants = .ok instantiation ∧
      site.templateClass ∈ declaredClasses header ∧
      ((∀ constant ∈ usage.constants.applied site.arguments, constant.SelfContained) →
        ∀ c ∈ declaredClasses header, c.name = instantiation.className →
          c.required ≤ instantiation.arguments.length) := by
  obtain ⟨haccepted, hgiven⟩ := Task.surveyUsages_accepted hsurvey (by simp)
    (by simp [Constants.Given, Constants.empty])
  obtain ⟨site, hsite, hsiteresolve⟩ := exists_site_of_mem_resolveSites hresolve hmem
  obtain ⟨hname, hlength⟩ := Site.resolve_eq_ok hsiteresolve
  obtain ⟨hlisted, hsuffices⟩ := haccepted site hsite
  refine ⟨site, hsite, hsiteresolve, hlisted, fun happlied c hc hcname => ?_⟩
  obtain rfl : c = site.templateClass :=
    List.inj_on_of_nodup_map (nodup_declaredClasses header) hc hlisted (hcname.trans hname)
  calc site.templateClass.required
    _ ≤ argumentCount site.arguments := hsuffices
    _ ≤ argumentCount (usage.constants.substitute site.arguments) :=
      Constants.argumentCount_le_substitute hgiven happlied
    _ = instantiation.arguments.length := hlength.symm

/-- A constant with a plain name and value. -/
theorem required_le_length_arguments_sample :
    ∃ usage set,
      Task.surveyUsages (fun _ => .ok "#define SIZE 5\nAction<int,SIZE> a;".toList)
          (declaredClasses "template<typename T, int N> class Action;".toList)
          [.ofString "use.cpp"] ⟨[], .empty⟩ = .ok usage ∧
        resolveSites usage.constants usage.sites = .ok set ∧
        ⟨"Action".toList, ["int".toList, "5".toList]⟩ ∈ set.items ∧
        2 ≤ ["int".toList, "5".toList].length := by
  have hsurvey : Task.surveyUsages (fun _ => .ok "#define SIZE 5\nAction<int,SIZE> a;".toList)
      (declaredClasses "template<typename T, int N> class Action;".toList)
      [.ofString "use.cpp"] ⟨[], .empty⟩ =
      .ok ⟨[⟨⟨"Action".toList, 2⟩, "int,SIZE".toList, ⟨.ofString "use.cpp", 2⟩⟩],
        ⟨[⟨"SIZE".toList, "5".toList⟩]⟩⟩ := toOption_eq_some_iff.mp (by decide +kernel)
  have hresolve : resolveSites ⟨[⟨"SIZE".toList, "5".toList⟩]⟩
      [⟨⟨"Action".toList, 2⟩, "int,SIZE".toList, ⟨.ofString "use.cpp", 2⟩⟩] =
      .ok ⟨[⟨"Action".toList, ["int".toList, "5".toList]⟩]⟩ :=
    toOption_eq_some_iff.mp (by decide +kernel)
  obtain ⟨site, hsite, -, -, henough⟩ :=
    required_le_length_arguments hsurvey hresolve List.mem_cons_self
  obtain rfl := List.mem_singleton.mp hsite
  exact ⟨_, _, hsurvey, hresolve, List.mem_cons_self,
    henough (by decide +kernel) ⟨"Action".toList, 2⟩ (by decide +kernel) rfl⟩

/-- A usage file that is read and resolved without a fault and yet yields an instantiation with
fewer arguments than the class of its name requires. -/
def YieldsTooFew (header content : Text) : Prop :=
  ∃ usage set,
    Task.surveyUsages (fun _ => .ok content) (declaredClasses header) [.ofString "use.cpp"]
        ⟨[], .empty⟩ = .ok usage ∧
      resolveSites usage.constants usage.sites = .ok set ∧
      ∃ instantiation ∈ set.items, ∃ c ∈ declaredClasses header,
        c.name = instantiation.className ∧ instantiation.arguments.length < c.required

/-- A name with a comma in it takes an argument away, and a bracket left open in a value joins two
arguments. -/
theorem yieldsTooFew_samples :
    YieldsTooFew "template<typename T, int N> class Action;".toList
        "#define A,B 5\nAction<A,B> a;".toList ∧
      YieldsTooFew "template<bool B, int N> class Action;".toList
        "constexpr bool SMALL = 1 < 2;\nAction<SMALL,3> a;".toList := by
  constructor
  · let usage : Task.Usage :=
      ⟨[⟨⟨"Action".toList, 2⟩, "A,B".toList, ⟨.ofString "use.cpp", 2⟩⟩],
        ⟨[⟨"A,B".toList, "5".toList⟩]⟩⟩
    refine ⟨usage, ⟨[⟨"Action".toList, ["5".toList]⟩]⟩, ?_, ?_, by decide +kernel⟩
    · exact toOption_eq_some_iff.mp (by decide +kernel)
    · exact toOption_eq_some_iff.mp (by decide +kernel)
  · let usage : Task.Usage :=
      ⟨[⟨⟨"Action".toList, 2⟩, "SMALL,3".toList, ⟨.ofString "use.cpp", 2⟩⟩],
        ⟨[⟨"SMALL".toList, "1 < 2".toList⟩]⟩⟩
    refine ⟨usage, ⟨[⟨"Action".toList, ["1 < 2,3".toList]⟩]⟩, ?_, ?_, by decide +kernel⟩
    · exact toOption_eq_some_iff.mp (by decide +kernel)
    · exact toOption_eq_some_iff.mp (by decide +kernel)

end ExplicitInstantiation
