import ExplicitInstantiation.Path

/-!
# Paths seen from a root

Which file a path names is decided by its components. A path has a start (`Path.start`): the root of
the file system, a leading `.`, or nothing; behind it come the steps (`Path.steps`), which are names
and `..`. Two paths are the same if both agree (`components_eq_iff`).

Seen from a root, a relative path keeps its steps and loses its start (`components_under`). So paths
that are told apart as they are written need not be told apart from a root, and there are two ways
for this to happen (`ComesTo`): one of them is the other behind a leading `.`, or one is absolute
and spells out the root in front of the other. There are no more ways (`components_under_eq_iff`).
-/

namespace ExplicitInstantiation

namespace Path

/-! ### Start and steps -/

/-- The component a path starts with that is no step: the root, or a leading `.`. -/
def start (path : Path) : List Component :=
  if path.isAbsolute then [.root]
  else if (path.text.splitOn '/').head? = some ['.'] then [.here]
  else []

/-- The names and `..` of a path. -/
def steps (path : Path) : List Component :=
  (path.text.splitOn '/').filterMap Component.ofPiece?

/-- The components of a path are its start and its steps. -/
theorem components_eq (path : Path) : path.components = path.start ++ path.steps := rfl

/-- Whether a component is a name or `..`. -/
def Component.isStep : Component → Bool
  | root | here => false
  | up | name _ => true

/-- A piece between slashes gives a step, if it gives anything. -/
theorem Component.isStep_of_ofPiece? {piece : Text} {component : Component}
    (h : ofPiece? piece = some component) : component.isStep = true := by
  unfold ofPiece? at h
  split at h
  · cases h
  · split at h <;> cases h <;> rfl

/-- The steps of a path are steps. -/
theorem isStep_of_mem_steps {path : Path} {component : Component} (h : component ∈ path.steps) :
    component.isStep = true := by
  obtain ⟨piece, -, hpiece⟩ := List.mem_filterMap.mp h
  exact Component.isStep_of_ofPiece? hpiece

/-- An absolute path starts at the root. -/
theorem start_of_isAbsolute {path : Path} (h : path.isAbsolute = true) : path.start = [.root] := by
  simp [start, h]

/-- A relative path starts with `.` or with a step. -/
theorem start_of_not_isAbsolute {path : Path} (h : path.isAbsolute = false) :
    path.start = [] ∨ path.start = [.here] := by
  simp only [start, h, Bool.false_eq_true, if_false]
  split
  · exact .inr rfl
  · exact .inl rfl

/-- The start of a path is no step. -/
theorem filter_isStep_start (path : Path) : path.start.filter Component.isStep = [] := by
  unfold start
  split
  · rfl
  · split <;> rfl

/-- The steps of a path can be read off its components. -/
theorem filter_isStep_components (path : Path) :
    path.components.filter Component.isStep = path.steps := by
  rw [components_eq, List.filter_append, filter_isStep_start, List.nil_append,
    List.filter_eq_self.mpr fun _ => isStep_of_mem_steps]

/-- Two paths have the same components when they have the same start and the same steps. -/
theorem components_eq_iff {a b : Path} :
    a.components = b.components ↔ a.start = b.start ∧ a.steps = b.steps := by
  constructor
  · intro h
    have hsteps : a.steps = b.steps := by
      rw [← filter_isStep_components, h, filter_isStep_components]
    rw [components_eq, components_eq, hsteps] at h
    exact ⟨List.append_cancel_right h, hsteps⟩
  · rintro ⟨hstart, hsteps⟩
    rw [components_eq, components_eq, hstart, hsteps]

/-- A path is absolute when the root is one of its components. -/
theorem root_mem_components_iff {path : Path} :
    Component.root ∈ path.components ↔ path.isAbsolute = true := by
  rw [components_eq, List.mem_append]
  constructor
  · rintro (hstart | hsteps)
    · rcases habsolute : path.isAbsolute with _ | _
      · rcases start_of_not_isAbsolute habsolute with h | h
        · simp [h] at hstart
        · simp [h] at hstart
      · rfl
    · cases isStep_of_mem_steps hsteps
  · intro h
    exact .inl (by simp [start_of_isAbsolute h])

/-- There is one empty path. -/
theorem eq_nil_of_isEmpty {path : Path} (h : path.isEmpty = true) : path = ⟨[]⟩ := by
  obtain ⟨text⟩ := path
  simpa [isEmpty] using h

/-- An absolute path is not empty. -/
theorem isEmpty_of_isAbsolute {path : Path} (h : path.isAbsolute = true) :
    path.isEmpty = false := by
  rcases htext : path.text with _ | ⟨c, rest⟩
  · simp [isAbsolute, htext] at h
  · simp [isEmpty, htext]

/-! ### Joining -/

/-- Seen from any root, an absolute path stays as it is. -/
@[simp] theorem under_of_isAbsolute {root path : Path} (h : path.isAbsolute = true) :
    root.under path = path := by
  simp [under, h]

/-- A relative path is put behind the root and a slash. If the root ends in a slash, that one
serves. -/
theorem exists_text_under {root path : Path} (hroot : root.isEmpty = false)
    (hpath : path.isAbsolute = false) :
    ∃ before, (root.under path).text = before ++ '/' :: path.text ∧
      (root.text = before ∨ root.text = before ++ ['/']) := by
  simp only [under, hroot, hpath, Bool.false_eq_true, if_false, Bool.false_or]
  split
  next hslash =>
    obtain ⟨before, hbefore⟩ := List.getLast?_eq_some_iff.mp (eq_of_beq hslash)
    exact ⟨before, by simp [hbefore], .inr hbefore⟩
  next => exact ⟨root.text, rfl, .inl rfl⟩

/-- A text before a slash and the text with the slash start alike. -/
theorem head?_append_slash {root before : Text} (hroot : root ≠ [])
    (h : root = before ∨ root = before ++ ['/']) (rest : Text) :
    (before ++ '/' :: rest).head? = root.head? := by
  rcases before with _ | ⟨c, before⟩
  · rcases h with h | h
    · exact absurd h hroot
    · rw [h]
      rfl
  · rcases h with h | h <;> rw [h] <;> rfl

/-- Behind a root a relative path keeps its steps, and the root keeps all of its components. -/
theorem components_under {root path : Path} (hroot : root.isEmpty = false)
    (hpath : path.isAbsolute = false) :
    (root.under path).components = root.components ++ path.steps := by
  obtain ⟨before, htext, hbefore⟩ := exists_text_under hroot hpath
  have hne : root.text ≠ [] := by simpa [isEmpty] using hroot
  have hpieces : (root.under path).text.splitOn '/' =
      before.splitOn '/' ++ path.text.splitOn '/' := by
    rw [htext, List.splitOn_append_cons_self]
  have hrootpieces : root.text.splitOn '/' = before.splitOn '/' ∨
      root.text.splitOn '/' = before.splitOn '/' ++ [[]] := by
    rcases hbefore with h | h
    · exact .inl (by rw [h])
    · exact .inr (by rw [h, List.splitOn_append_cons_self]; rfl)
  have hsteps : (root.under path).steps = root.steps ++ path.steps := by
    simp only [steps, hpieces, List.filterMap_append]
    rcases hrootpieces with h | h
    · rw [h]
    · simp [h, Component.ofPiece?]
  have habsolute : (root.under path).isAbsolute = root.isAbsolute := by
    simp only [isAbsolute, htext, head?_append_slash hne hbefore]
  have hhead : ((root.under path).text.splitOn '/').head? = (root.text.splitOn '/').head? := by
    obtain ⟨piece, pieces, hcons⟩ := List.exists_cons_of_ne_nil (List.splitOn_ne_nil '/' before)
    rw [hpieces, hcons]
    rcases hrootpieces with h | h <;> rw [h, hcons] <;> rfl
  have hstart : (root.under path).start = root.start := by
    simp only [start, habsolute, hhead]
  rw [components_eq, components_eq, hstart, hsteps, List.append_assoc]

/-- Paths that are the same as they are written are the same seen from any root. -/
theorem components_under_congr (root : Path) {a b : Path} (h : a.components = b.components) :
    (root.under a).components = (root.under b).components := by
  have habsolute : a.isAbsolute = b.isAbsolute := by
    rw [Bool.eq_iff_iff, ← root_mem_components_iff, ← root_mem_components_iff, h]
  rcases hb : b.isAbsolute with _ | _
  · rcases hroot : root.isEmpty with _ | _
    · rw [components_under hroot (habsolute.trans hb), components_under hroot hb,
        (components_eq_iff.mp h).2]
    · rw [eq_nil_of_isEmpty hroot, under_nil, under_nil, h]
  · rw [under_of_isAbsolute (habsolute.trans hb), under_of_isAbsolute hb, h]

/-! ### Paths that come to the same -/

/-- Seen from `root`, `a` comes to what `b` comes to, although it is not the same path: it is `b`
behind a leading `.`, or it is absolute and spells out `root` in front of `b`. -/
def ComesTo (root a b : Path) : Prop :=
  (root.isEmpty = false ∧ a.components = .here :: b.components) ∨
    (root.isAbsolute = true ∧ b.isAbsolute = false ∧ a.components = root.components ++ b.steps)

instance (root a b : Path) : Decidable (ComesTo root a b) :=
  inferInstanceAs (Decidable (_ ∨ _))

/-- Relative paths with the same steps are the same, but for a leading `.`. -/
theorem components_cases_of_steps_eq {a b : Path} (ha : a.isAbsolute = false)
    (hb : b.isAbsolute = false) (h : a.steps = b.steps) :
    a.components = b.components ∨ a.components = .here :: b.components ∨
      b.components = .here :: a.components := by
  simp only [components_eq, h]
  rcases start_of_not_isAbsolute ha with ha | ha <;>
    rcases start_of_not_isAbsolute hb with hb | hb <;> simp [ha, hb]

/-- What is behind a leading `.` has neither a root nor a leading `.` itself. -/
theorem steps_eq_of_here_cons {a b : Path} (h : a.components = .here :: b.components) :
    a.isAbsolute = false ∧ b.isAbsolute = false ∧ a.steps = b.steps := by
  have hsteps : a.steps = b.steps := by
    rw [← filter_isStep_components, ← filter_isStep_components, h]
    rfl
  have ha : a.isAbsolute = false := by
    rcases habsolute : a.isAbsolute with _ | _
    · rfl
    · rw [components_eq, start_of_isAbsolute habsolute] at h
      cases h
  refine ⟨ha, ?_, hsteps⟩
  rw [← Bool.not_eq_true, ← root_mem_components_iff]
  intro hmem
  have hroot : Component.root ∈ a.components := by simp [h, hmem]
  rw [root_mem_components_iff, ha] at hroot
  cases hroot

/-- Paths of which one comes to the other have the same components, seen from the root. -/
theorem ComesTo.components_under_eq {root a b : Path} (h : ComesTo root a b) :
    (root.under a).components = (root.under b).components := by
  rcases h with ⟨hroot, hdot⟩ | ⟨hroot, hb, hspelled⟩
  · obtain ⟨ha, hb, hsteps⟩ := steps_eq_of_here_cons hdot
    rw [components_under hroot ha, components_under hroot hb, hsteps]
  · have ha : a.isAbsolute = true := by
      rw [← root_mem_components_iff, hspelled]
      exact List.mem_append_left _ (root_mem_components_iff.mpr hroot)
    rw [under_of_isAbsolute ha, components_under (isEmpty_of_isAbsolute hroot) hb, hspelled]

/-- An absolute path that is the same as a relative one seen from a root spells out the root. -/
theorem comesTo_of_isAbsolute {root a b : Path} (ha : a.isAbsolute = true)
    (hb : b.isAbsolute = false) (hroot : root.isEmpty = false)
    (h : a.components = (root.under b).components) : ComesTo root a b := by
  rw [components_under hroot hb] at h
  refine .inr ⟨?_, hb, h⟩
  have hmem : Component.root ∈ root.components ++ b.steps := h ▸ root_mem_components_iff.mpr ha
  rcases List.mem_append.mp hmem with hmem | hmem
  · exact root_mem_components_iff.mp hmem
  · cases isStep_of_mem_steps hmem

/-- **Joining forgets two things.** Seen from a root two paths are the same exactly when they are
the same as they are written, or one of them comes to the other. -/
theorem components_under_eq_iff {root a b : Path} :
    (root.under a).components = (root.under b).components ↔
      a.components = b.components ∨ ComesTo root a b ∨ ComesTo root b a := by
  constructor
  · intro h
    rcases hroot : root.isEmpty with _ | _
    · rcases ha : a.isAbsolute with _ | _ <;> rcases hb : b.isAbsolute with _ | _
      · rw [components_under hroot ha, components_under hroot hb] at h
        rcases components_cases_of_steps_eq ha hb (List.append_cancel_left h) with h | h | h
        · exact .inl h
        · exact .inr (.inl (.inl ⟨hroot, h⟩))
        · exact .inr (.inr (.inl ⟨hroot, h⟩))
      · rw [under_of_isAbsolute hb] at h
        exact .inr (.inr (comesTo_of_isAbsolute hb ha hroot h.symm))
      · rw [under_of_isAbsolute ha] at h
        exact .inr (.inl (comesTo_of_isAbsolute ha hb hroot h))
      · rw [under_of_isAbsolute ha, under_of_isAbsolute hb] at h
        exact .inl h
    · rw [eq_nil_of_isEmpty hroot, under_nil, under_nil] at h
      exact .inl h
  · rintro (h | h | h)
    · exact components_under_congr root h
    · exact h.components_under_eq
    · exact h.components_under_eq.symm

end Path

end ExplicitInstantiation
