import Mathlib.Data.List.Forall2

/-!
# Computations that stop at the first fault

A computation in steps has a result if every step has one (`bind_eq_ok`); otherwise it has the fault
of the first step that has one.

So it is with traversals. A list is traversed from left to right, and the first element with a fault
ends the traversal. It has results if every element has one (`mapM_eq_ok_iff`), and otherwise the
fault of the first element that has one (`mapM_eq_error_iff`). A loop that takes in each result as
it comes is the traversal with the loop over its results behind it (`foldlM_eq_map_foldl`).
-/

namespace ExplicitInstantiation

/-! ### Results -/

/-- A computation in steps has a result exactly when its steps have. -/
theorem bind_eq_ok {ε α β : Type} {x : Except ε α} {f : α → Except ε β} {b : β} :
    (x >>= f) = .ok b ↔ ∃ a, x = .ok a ∧ f a = .ok b := by
  cases x with
  | error e =>
    constructor
    · intro h
      cases h
    · rintro ⟨a, ha, -⟩
      cases ha
  | ok a =>
    constructor
    · intro h
      exact ⟨a, rfl, h⟩
    · rintro ⟨a', ha', h⟩
      cases ha'
      exact h

/-- A check followed by a computation has a result when the check is passed and the computation has
that result. -/
theorem then_eq_ok {ε α : Type} {x : Except ε Unit} {y : Except ε α} {a : α} :
    (do x; y) = .ok a ↔ x = .ok () ∧ y = .ok a := by
  rw [bind_eq_ok]
  constructor
  · rintro ⟨⟨⟩, hx, hy⟩
    exact ⟨hx, hy⟩
  · rintro ⟨hx, hy⟩
    exact ⟨(), hx, hy⟩

/-- A function of a result is a result when the computation has one that it takes there. -/
theorem map_eq_ok {ε α β : Type} {x : Except ε α} {f : α → β} {b : β} :
    x.map f = .ok b ↔ ∃ a, x = .ok a ∧ f a = b := by
  cases x <;> simp [Except.map]

/-- A computation has a result exactly if that is all that is kept of it. -/
theorem toOption_eq_some_iff {ε α : Type} {x : Except ε α} {a : α} :
    x.toOption = some a ↔ x = .ok a := by
  cases x <;> simp [Except.toOption]

variable {ε α β σ : Type} {f : α → Except ε β} {l : List α}

/-- A function of a result is there when the result is. -/
theorem exists_map_eq_ok_iff {x : Except ε α} {g : α → β} :
    (∃ b, x.map g = .ok b) ↔ ∃ a, x = .ok a := by
  cases x <;> simp [Except.map]

/-- A function of a result has the faults of the computation. -/
theorem map_eq_error_iff {x : Except ε α} {g : α → β} {fault : ε} :
    x.map g = .error fault ↔ x = .error fault := by
  cases x <;> simp [Except.map]

/-! ### Traversals -/

/-- A traversal has results exactly when each element has its own. -/
theorem mapM_eq_ok_iff {results : List β} :
    l.mapM f = .ok results ↔ List.Forall₂ (fun a b => f a = .ok b) l results := by
  induction l generalizing results with
  | nil =>
    rw [List.mapM_nil, List.forall₂_nil_left_iff]
    constructor
    · intro h
      cases h
      rfl
    · rintro rfl
      rfl
  | cons a l ih =>
    rw [List.mapM_cons, bind_eq_ok, List.forall₂_cons_left_iff]
    constructor
    · rintro ⟨b, hb, h⟩
      obtain ⟨rest, hrest, h⟩ := bind_eq_ok.mp h
      cases h
      exact ⟨b, rest, hb, ih.mp hrest, rfl⟩
    · rintro ⟨b, rest, hb, hrest, rfl⟩
      exact ⟨b, hb, bind_eq_ok.mpr ⟨rest, ih.mpr hrest, rfl⟩⟩

/-- A traversal has one result for each element, and no others. -/
theorem results_of_mapM {results : List β} (h : l.mapM f = .ok results) :
    results.length = l.length ∧ ∀ b ∈ results, ∃ a ∈ l, f a = .ok b := by
  rw [mapM_eq_ok_iff] at h
  refine ⟨h.length_eq.symm, ?_⟩
  induction h with
  | nil => simp
  | cons hb _ ih =>
    refine List.forall_mem_cons.mpr ⟨⟨_, List.mem_cons_self, hb⟩, ?_⟩
    intro c hc
    obtain ⟨d, hd, hdc⟩ := ih c hc
    exact ⟨d, List.mem_cons_of_mem _ hd, hdc⟩

/-- The result of each element is among the results. -/
theorem mem_results_of_mapM {results : List β} (h : l.mapM f = .ok results) {a : α} (ha : a ∈ l)
    {b : β} (hb : f a = .ok b) : b ∈ results := by
  rw [mapM_eq_ok_iff] at h
  induction h with
  | nil => simp at ha
  | cons hfirst _ ih =>
    rcases List.mem_cons.mp ha with rfl | ha
    · rw [hfirst] at hb
      cases hb
      exact List.mem_cons_self
    · exact List.mem_cons_of_mem _ (ih ha)

/-- A traversal has results when every element has one. -/
theorem exists_mapM_eq_ok_iff :
    (∃ results, l.mapM f = .ok results) ↔ ∀ a ∈ l, ∃ b, f a = .ok b := by
  simp only [mapM_eq_ok_iff]
  induction l with
  | nil => simp
  | cons a l ih =>
    rw [List.forall_mem_cons, ← ih]
    constructor
    · rintro ⟨results, h⟩
      obtain ⟨b, rest, hb, hrest, -⟩ := List.forall₂_cons_left_iff.mp h
      exact ⟨⟨b, hb⟩, rest, hrest⟩
    · rintro ⟨⟨b, hb⟩, rest, hrest⟩
      exact ⟨b :: rest, .cons hb hrest⟩

/-- A traversal has the fault of its first element, or else the fault of the rest. -/
theorem mapM_cons_eq_error_iff {a : α} {fault : ε} :
    (a :: l).mapM f = .error fault ↔
      f a = .error fault ∨ (∃ b, f a = .ok b) ∧ l.mapM f = .error fault := by
  rw [List.mapM_cons]
  rcases f a with first | b
  · simp [bind, Except.bind]
  · rcases l.mapM f with first | rest <;> simp [bind, Except.bind, pure, Except.pure]

/-- A traversal has a fault exactly when that is the fault of the first element that has one. -/
theorem mapM_eq_error_iff {fault : ε} :
    l.mapM f = .error fault ↔
      ∃ before a after, l = before ++ a :: after ∧ (∀ b ∈ before, ∃ result, f b = .ok result) ∧
        f a = .error fault := by
  induction l with
  | nil =>
    rw [List.mapM_nil]
    constructor
    · intro h
      cases h
    · rintro ⟨before, a, after, h, -, -⟩
      simp at h
  | cons a l ih =>
    rw [mapM_cons_eq_error_iff, ih]
    constructor
    · rintro (ha | ⟨hfirst, before, c, after, rfl, hbefore, hc⟩)
      · exact ⟨[], a, l, rfl, by simp, ha⟩
      · exact ⟨a :: before, c, after, rfl, List.forall_mem_cons.mpr ⟨hfirst, hbefore⟩, hc⟩
    · rintro ⟨before, c, after, h, hbefore, hc⟩
      rcases before with _ | ⟨d, before⟩
      · obtain ⟨rfl, -⟩ := List.cons.inj h
        exact .inl hc
      · obtain ⟨rfl, rfl⟩ := List.cons.inj h
        rw [List.forall_mem_cons] at hbefore
        exact .inr ⟨hbefore.1, before, c, after, rfl, hbefore.2, hc⟩

/-! ### Loops -/

/-- A loop that takes in each result as it comes. -/
theorem foldlM_eq_map_foldl (take : σ → β → σ) (start : σ) :
    l.foldlM (fun state a => (f a).map (take state)) start =
      (l.mapM f).map (List.foldl take start) := by
  induction l generalizing start with
  | nil => rfl
  | cons a l ih =>
    rw [List.foldlM_cons, List.mapM_cons]
    rcases f a with fault | b
    · rfl
    · refine (ih (take start b)).trans ?_
      rcases l.mapM f with fault | rest <;> rfl

/-- What each step of a loop keeps is kept by the loop. -/
theorem foldlM_keeps {f : β → α → Except ε β} (kept : β → Prop)
    (hstep : ∀ a ∈ l, ∀ b b', kept b → f b a = .ok b' → kept b') {b b' : β}
    (h : l.foldlM f b = .ok b') (hb : kept b) : kept b' := by
  induction l generalizing b with
  | nil =>
    cases h
    exact hb
  | cons a l ih =>
    rw [List.forall_mem_cons] at hstep
    rw [List.foldlM_cons, bind_eq_ok] at h
    obtain ⟨next, hnext, h⟩ := h
    exact ih hstep.2 h (hstep.1 b next hb hnext)

/-- Where the steps of a loop succeed, so do those of another one with its states moved. Then the
other loop comes to the state that is moved from the end of the first. -/
theorem foldlM_map_of_ok {f g : σ → α → Except ε σ} (move : σ → σ)
    (hstep : ∀ a s s', f s a = .ok s' → g (move s) a = .ok (move s')) {s s' : σ}
    (h : l.foldlM f s = .ok s') : l.foldlM g (move s) = .ok (move s') := by
  induction l generalizing s with
  | nil =>
    cases h
    rfl
  | cons a l ih =>
    rw [List.foldlM_cons, bind_eq_ok] at h
    obtain ⟨next, hnext, h⟩ := h
    rw [List.foldlM_cons, hstep a s next hnext]
    exact ih h

end ExplicitInstantiation
