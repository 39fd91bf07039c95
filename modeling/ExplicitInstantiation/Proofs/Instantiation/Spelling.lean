import ExplicitInstantiation.Proofs.Instantiation.Written

/-!
# Spellings of an integer

One integer can be written in many ways: in decimal or in hexadecimal, with a suffix, in
parentheses, as a sum. An argument with an operator is replaced by the decimal form of its value.
One without an operator stays as it is, also where it has a value. So folding tells two spellings of
an integer apart unless each of them has an operator or is the decimal form already
(`foldArgument_eq_iff`).

Two sites of one class whose arguments differ only in such spellings are therefore declared once or
twice (`respelled_declared_once_iff`): `2*3` and `6` once, `2*3` and `(6)` twice
(`declarations_parenthesised_six`).
-/

namespace ExplicitInstantiation

/-! ### One argument -/

/-- Whether an argument with the value `n` becomes the decimal form of `n`: it contains an operator,
or it is that form. -/
def FoldsToDecimal (n : Int) (argument : Text) : Prop :=
  argument.any isOperatorChar = true ∨ argument = Text.ofInt n

instance (n : Int) (argument : Text) : Decidable (FoldsToDecimal n argument) :=
  inferInstanceAs (Decidable (_ ∨ _))

/-- An argument folds to the decimal form of its value exactly if it has an operator or is that
form. -/
theorem foldArgument_eq_ofInt_iff {argument : Text} {n : Int}
    (h : evaluate argument = .ok (.int n)) :
    foldArgument argument = .ok (Text.ofInt n) ↔ FoldsToDecimal n argument := by
  rw [foldArgument_of_int h, FoldsToDecimal, Except.ok.injEq]
  by_cases hoperator : argument.any isOperatorChar = true
  · simp [hoperator]
  · simp [hoperator]

/-- Two spellings of an integer become one text only if they are one text, or both become its
decimal form. -/
theorem foldArgument_eq_iff {a b : Text} {n : Int} (ha : evaluate a = .ok (.int n))
    (hb : evaluate b = .ok (.int n)) :
    foldArgument a = foldArgument b ↔ a = b ∨ FoldsToDecimal n a ∧ FoldsToDecimal n b := by
  constructor
  · intro h
    by_cases hdecimal : FoldsToDecimal n a
    · have hb' := h.symm.trans ((foldArgument_eq_ofInt_iff ha).mpr hdecimal)
      exact .inr ⟨hdecimal, (foldArgument_eq_ofInt_iff hb).mp hb'⟩
    · have hdecimal' : ¬ FoldsToDecimal n b := by
        rwa [← foldArgument_eq_ofInt_iff hb, ← h, foldArgument_eq_ofInt_iff ha]
      -- Neither has an operator, so both are passed on.
      rw [foldArgument_of_int ha, foldArgument_of_int hb, if_neg (mt .inl hdecimal),
        if_neg (mt .inl hdecimal')] at h
      exact .inl (Except.ok.inj h)
  · rintro (rfl | ⟨ha', hb'⟩)
    · rfl
    · rw [(foldArgument_eq_ofInt_iff ha).mpr ha', (foldArgument_eq_ofInt_iff hb).mpr hb']

/-! ### Lists of arguments -/

/-- The arguments of a site, before they are folded. -/
def Site.writtenArguments (constants : Constants) (site : Site) : List Text :=
  (topLevelParts (constants.substitute site.arguments)).map Text.trim

/-- Arguments that differ at most in how an integer is spelled. -/
inductive Respelled : Text → Text → Prop where
  /-- The same argument, which folds. -/
  | same {a result : Text} (h : foldArgument a = .ok result) : Respelled a a
  /-- Two spellings of an integer. -/
  | integer {a b : Text} {n : Int} (ha : evaluate a = .ok (.int n))
    (hb : evaluate b = .ok (.int n)) : Respelled a b

/-- Arguments that fold to the same text. -/
inductive SpelledAlike : Text → Text → Prop where
  /-- The same argument. -/
  | same (a : Text) : SpelledAlike a a
  /-- Two spellings of an integer that both become its decimal form. -/
  | decimal {a b : Text} {n : Int} (ha : evaluate a = .ok (.int n))
    (hb : evaluate b = .ok (.int n)) (hdecimal : FoldsToDecimal n a ∧ FoldsToDecimal n b) :
    SpelledAlike a b

namespace Respelled

variable {a b : Text}

/-- Both of two spellings can be folded. -/
theorem exists_foldArgument_eq_ok (h : Respelled a b) :
    (∃ result, foldArgument a = .ok result) ∧ ∃ result, foldArgument b = .ok result := by
  cases h with
  | same h => exact ⟨⟨_, h⟩, _, h⟩
  | integer ha hb => exact ⟨⟨_, foldArgument_of_int ha⟩, _, foldArgument_of_int hb⟩

/-- Two spellings fold alike exactly if they have one result. -/
theorem spelledAlike_iff (h : Respelled a b) :
    SpelledAlike a b ↔ foldArgument a = foldArgument b := by
  constructor
  · intro halike
    cases halike with
    | same => rfl
    | decimal ha hb hdecimal => exact (foldArgument_eq_iff ha hb).mpr (.inr hdecimal)
  · intro hsame
    cases h with
    | same => exact .same a
    | integer ha hb =>
      rcases (foldArgument_eq_iff ha hb).mp hsame with rfl | hdecimal
      · exact .same a
      · exact .decimal ha hb hdecimal

end Respelled

/-- All arguments of two spellings of a list can be folded. -/
theorem forall_exists_foldArgument_eq_ok {as bs : List Text} (h : List.Forall₂ Respelled as bs) :
    (∀ a ∈ as, ∃ result, foldArgument a = .ok result) ∧
      ∀ b ∈ bs, ∃ result, foldArgument b = .ok result := by
  induction h with
  | nil => simp
  | cons hab _ ih =>
    obtain ⟨ha, hb⟩ := hab.exists_foldArgument_eq_ok
    exact ⟨List.forall_mem_cons.mpr ⟨ha, ih.1⟩, List.forall_mem_cons.mpr ⟨hb, ih.2⟩⟩

/-- Lists that differ only in spellings fold alike exactly if their arguments are spelled alike. -/
theorem results_eq_iff {as bs xs ys : List Text} (h : List.Forall₂ Respelled as bs)
    (hx : List.Forall₂ (fun a x => foldArgument a = .ok x) as xs)
    (hy : List.Forall₂ (fun b y => foldArgument b = .ok y) bs ys) :
    xs = ys ↔ List.Forall₂ SpelledAlike as bs := by
  induction h generalizing xs ys with
  | nil =>
    obtain rfl := List.forall₂_nil_left_iff.mp hx
    obtain rfl := List.forall₂_nil_left_iff.mp hy
    simp
  | cons hab _ ih =>
    obtain ⟨x, xs, hax, hxs, rfl⟩ := List.forall₂_cons_left_iff.mp hx
    obtain ⟨y, ys, hby, hys, rfl⟩ := List.forall₂_cons_left_iff.mp hy
    rw [List.forall₂_cons, hab.spelledAlike_iff, hax, hby, Except.ok.injEq, List.cons.injEq,
      ih hxs hys]

/-- A list can be folded if each of its arguments can be. -/
theorem exists_foldArguments_eq_ok {t : Text}
    (h : ∀ argument ∈ (topLevelParts t).map Text.trim,
      ∃ result, foldArgument argument = .ok result) :
    ∃ arguments, foldArguments t = .ok arguments := by
  rcases hfold : foldArguments t with fault | arguments
  · obtain ⟨before, part, after, hparts, -, hfault⟩ := foldArguments_eq_error_iff.mp hfold
    obtain ⟨result, hresult⟩ := h part.trim (List.mem_map_of_mem (by simp [hparts]))
    rw [hfault] at hresult
    cases hresult
  · exact ⟨arguments, rfl⟩

/-- The text of the folded arguments is that of the folded parts; the empty list has none, but one
part. -/
theorem exists_foldsInto {t : Text} {arguments : List Text} (h : foldArguments t = .ok arguments) :
    ∃ results, FoldsInto t results ∧ Text.join [','] results = Text.join [','] arguments := by
  by_cases ht : t = []
  · subst ht
    cases h
    exact ⟨[[]], .cons rfl .nil, rfl⟩
  · exact ⟨arguments, (foldArguments_eq_ok_iff ht).mp h, rfl⟩

/-! ### Declarations -/

/-- A site can be resolved if each of its arguments can be folded. -/
theorem Site.exists_resolve_eq_ok {constants : Constants} {site : Site}
    (h : ∀ argument ∈ site.writtenArguments constants,
      ∃ result, foldArgument argument = .ok result) :
    ∃ instantiation, site.resolve constants = .ok instantiation :=
  exists_resolve_eq_ok_iff.mpr (exists_foldArguments_eq_ok h)

/-- Sites of one class whose arguments differ only in spellings are declared by the same line
exactly if their arguments are spelled alike. -/
theorem declaration_eq_iff_spelledAlike {constants : Constants} {first second : Site}
    {a b : Instantiation} (hname : first.templateClass.name = second.templateClass.name)
    (hspelled : List.Forall₂ Respelled (first.writtenArguments constants)
      (second.writtenArguments constants))
    (ha : first.resolve constants = .ok a) (hb : second.resolve constants = .ok b) :
    a.declaration = b.declaration ↔
      List.Forall₂ SpelledAlike (first.writtenArguments constants)
        (second.writtenArguments constants) := by
  obtain ⟨hclass, harguments⟩ := Site.resolve_eq_ok_iff.mp ha
  obtain ⟨hclass', harguments'⟩ := Site.resolve_eq_ok_iff.mp hb
  obtain ⟨xs, hxs, hjoin⟩ := exists_foldsInto harguments
  obtain ⟨ys, hys, hjoin'⟩ := exists_foldsInto harguments'
  have hwritten : a.toText = b.toText ↔ Text.join [','] xs = Text.join [','] ys := by
    unfold Instantiation.toText
    rw [hclass, hclass', hname, List.append_left_inj, List.append_right_inj, List.cons.injEq, hjoin,
      hjoin']
    simp
  rw [Instantiation.declaration_eq_iff, hwritten, hxs.join_eq_iff hys]
  exact results_eq_iff hspelled (List.forall₂_map_left_iff.mpr hxs)
    (List.forall₂_map_left_iff.mpr hys)

/-- Each site has its line among the declarations, and no line stands there twice. -/
theorem resolveSites_declares {constants : Constants} {sites : List Site} {set : Instantiations}
    (h : resolveSites constants sites = .ok set) :
    set.declarations.Nodup ∧
      ∀ site ∈ sites, ∀ instantiation, site.resolve constants = .ok instantiation →
        instantiation.declaration ∈ set.declarations := by
  obtain ⟨instantiations, hresolve, rfl⟩ := resolveSites_eq_ok_iff.mp h
  refine ⟨Instantiations.nodup_declarations_ofList instantiations, ?_⟩
  intro site hsite instantiation hinstantiation
  rw [Instantiations.declarations_ofList, List.mem_eraseDups]
  exact List.mem_map_of_mem
    (mem_results_of_mapM (mapM_eq_ok_iff.mpr hresolve) hsite hinstantiation)

/-- Of two members of a list without repetitions there is one exactly if they are equal. -/
theorem countP_eq_one_iff {α : Type} [DecidableEq α] {l : List α} (hl : l.Nodup) {x y : α}
    (hx : x ∈ l) (hy : y ∈ l) : l.countP (fun z => z = x ∨ z = y) = 1 ↔ x = y := by
  constructor
  · intro h
    rw [List.countP_eq_length_filter, List.length_eq_one_iff] at h
    obtain ⟨z, hz⟩ := h
    have hxz : x ∈ [z] := hz ▸ List.mem_filter.mpr ⟨hx, by simp⟩
    have hyz : y ∈ [z] := hz ▸ List.mem_filter.mpr ⟨hy, by simp⟩
    rw [List.mem_singleton.mp hxz, List.mem_singleton.mp hyz]
  · rintro rfl
    simpa [List.count, beq_eq_decide] using List.count_eq_one_of_mem hl hx

/-- **Spellings of an integer that have an operator, or are decimal, become one.**

* Two arguments with the same integer value fold, to the decimal form of the value if they have an
  operator and to themselves otherwise. The results are the same exactly if the arguments are, or
  each has an operator or is that decimal form.
* Two sites of one class whose arguments differ only in the spelling of integers resolve, alone and
  one with the other. Wherever they are resolved among other sites, they are declared by one line
  exactly if that is so for each two of their arguments, and otherwise by two.
-/
theorem respelled_declared_once_iff :
    (∀ a b n, evaluate a = .ok (.int n) → evaluate b = .ok (.int n) →
      foldArgument a = .ok (if a.any isOperatorChar then Text.ofInt n else a) ∧
        foldArgument b = .ok (if b.any isOperatorChar then Text.ofInt n else b) ∧
        (foldArgument a = foldArgument b ↔ a = b ∨ FoldsToDecimal n a ∧ FoldsToDecimal n b)) ∧
      ∀ constants first second, first.templateClass.name = second.templateClass.name →
        List.Forall₂ Respelled (first.writtenArguments constants)
          (second.writtenArguments constants) →
        ∃ a b, first.resolve constants = .ok a ∧ second.resolve constants = .ok b ∧
          (∃ set, resolveSites constants [first, second] = .ok set) ∧
          ∀ sites set, first ∈ sites → second ∈ sites → resolveSites constants sites = .ok set →
            (set.declarations.countP
                (fun line => line = a.declaration ∨ line = b.declaration) = 1 ↔
              List.Forall₂ SpelledAlike (first.writtenArguments constants)
                (second.writtenArguments constants)) := by
  constructor
  · intro a b n ha hb
    exact ⟨foldArgument_of_int ha, foldArgument_of_int hb, foldArgument_eq_iff ha hb⟩
  · intro constants first second hname hspelled
    obtain ⟨hfirst, hsecond⟩ := forall_exists_foldArgument_eq_ok hspelled
    obtain ⟨a, ha⟩ := first.exists_resolve_eq_ok hfirst
    obtain ⟨b, hb⟩ := second.exists_resolve_eq_ok hsecond
    have htogether : ∃ set, resolveSites constants [first, second] = .ok set :=
      ⟨_, resolveSites_eq_ok_iff.mpr ⟨[a, b], .cons ha (.cons hb .nil), rfl⟩⟩
    refine ⟨a, b, ha, hb, htogether, ?_⟩
    intro sites set hmem hmem' hset
    obtain ⟨hnodup, hdeclares⟩ := resolveSites_declares hset
    rw [countP_eq_one_iff hnodup (hdeclares first hmem a ha) (hdeclares second hmem' b hb)]
    exact declaration_eq_iff_spelledAlike hname hspelled ha hb

/-- A site of a class with two parameters. -/
def actionSite (arguments : String) (line : Nat) : Site :=
  ⟨⟨"Action".toList, 2⟩, arguments.toList, ⟨.ofString "use.cpp", line⟩⟩

/-- A product and the number that it comes to. -/
theorem respelled_declared_once_six :
    foldArgument "2*3".toList = foldArgument "6".toList ∧
      ∃ a b set, (actionSite "int,2*3" 1).resolve .empty = .ok a ∧
        (actionSite "int,6" 2).resolve .empty = .ok b ∧
        resolveSites .empty [actionSite "int,2*3" 1, actionSite "int,6" 2] = .ok set ∧
        set.declarations.countP (fun line => line = a.declaration ∨ line = b.declaration) = 1 := by
  have hproduct := evaluate_product_six
  have hnumber : evaluate "6".toList = .ok (.int 6) :=
    Expression.Exact.evaluate_eq (by decide : (Expression.literal 6).Exact)
      (.cons [] nofun (.ofNat 6) (.nil [] nofun))
  have hdecimal : FoldsToDecimal 6 "2*3".toList ∧ FoldsToDecimal 6 "6".toList := by decide
  have hwritten (arguments : String) (line : Nat) :
      (actionSite arguments line).writtenArguments .empty =
        (topLevelParts arguments.toList).map Text.trim := by
    rw [Site.writtenArguments, Constants.substitute_empty]
    rfl
  have hfirst : foldArguments "int,2*3".toList = .ok ["int".toList, "6".toList] :=
    (foldArguments_eq_ok_iff (by decide)).mpr
      (.cons rfl (.cons (foldArgument_of_int hproduct) .nil))
  have hsecond : foldArguments "int,6".toList = .ok ["int".toList, "6".toList] := rfl
  have hset : resolveSites .empty [actionSite "int,2*3" 1, actionSite "int,6" 2] =
      .ok ⟨[⟨"Action".toList, ["int".toList, "6".toList]⟩]⟩ :=
    resolveSites_eq_ok_iff.mpr
      ⟨_, .cons (Site.resolve_empty hfirst) (.cons (Site.resolve_empty hsecond) .nil), by decide⟩
  obtain ⟨hfold, hsites⟩ := respelled_declared_once_iff
  refine ⟨(hfold _ _ 6 hproduct hnumber).2.2.mpr (.inr hdecimal), ?_⟩
  have hspelled : List.Forall₂ Respelled ((actionSite "int,2*3" 1).writtenArguments .empty)
      ((actionSite "int,6" 2).writtenArguments .empty) := by
    rw [hwritten, hwritten]
    exact .cons (.same rfl) (.cons (.integer hproduct hnumber) .nil)
  obtain ⟨a, b, ha, hb, -, honce⟩ := hsites .empty _ _ (by rfl) hspelled
  refine ⟨a, b, _, ha, hb, hset, (honce _ _ (by simp) (by simp) hset).mpr ?_⟩
  rw [hwritten, hwritten]
  exact .cons (.same _) (.cons (.decimal hproduct hnumber hdecimal) .nil)

/-- A number in parentheses has no operator. It is passed on, and declared beside the number. -/
theorem declarations_parenthesised_six :
    evaluate "2*3".toList = .ok (.int 6) ∧ evaluate "(6)".toList = .ok (.int 6) ∧
      foldArgument "2*3".toList = .ok "6".toList ∧ foldArgument "(6)".toList = .ok "(6)".toList ∧
      ∃ set, resolveSites .empty [actionSite "int,2*3" 1, actionSite "int,(6)" 2] = .ok set ∧
        set.declarations = ["template class Action<int,6>;".toList,
          "template class Action<int,(6)>;".toList] := by
  have hfold : foldArgument "2*3".toList = .ok "6".toList :=
    foldArgument_of_int evaluate_product_six
  have hparentheses : evaluate "(6)".toList = .ok (.int 6) :=
    (evaluate_tree_eq_ok_iff (.term (.factor (.parens (.term (.factor (.number (.int 6)))))))
      (.cons [] nofun .leftParen <| .cons [] nofun (.ofNat 6) <| .cons [] nofun .rightParen <|
        .nil [] nofun)).mpr ⟨by decide, rfl⟩
  have hfirst : foldArguments "int,2*3".toList = .ok ["int".toList, "6".toList] :=
    (foldArguments_eq_ok_iff (by decide)).mpr (.cons rfl (.cons hfold .nil))
  have hsecond : foldArguments "int,(6)".toList = .ok ["int".toList, "(6)".toList] := rfl
  have hset : resolveSites .empty [actionSite "int,2*3" 1, actionSite "int,(6)" 2] =
      .ok ⟨[⟨"Action".toList, ["int".toList, "6".toList]⟩,
        ⟨"Action".toList, ["int".toList, "(6)".toList]⟩]⟩ :=
    resolveSites_eq_ok_iff.mpr
      ⟨_, .cons (Site.resolve_empty hfirst) (.cons (Site.resolve_empty hsecond) .nil), by decide⟩
  exact ⟨evaluate_product_six, hparentheses, hfold, rfl, _, hset, by decide⟩

end ExplicitInstantiation
