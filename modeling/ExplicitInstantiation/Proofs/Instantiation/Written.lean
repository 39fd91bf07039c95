import Mathlib.Data.List.Forall2
import Mathlib.Data.List.Induction
import ExplicitInstantiation.Proofs.Arithmetic.Exact
import ExplicitInstantiation.Proofs.Instantiation.Collected
import ExplicitInstantiation.Proofs.Source.Parts
import ExplicitInstantiation.Proofs.Text.Words

/-!
# Instantiations are told apart by how they are written

Two instantiations are taken for the same when they are written alike. In general the written form
does not determine the arguments: a comma in it may separate two of them or stand inside one. It
does for the arguments that come from folding a list, because they are cut as the parts of the list
were (`FoldsInto.topLevelParts_join`). A folded argument is the trimmed part, or a number, and
numbers are written with letters, digits, signs and points (`Number.numeral_toText`), so without
commas and brackets (`Number.plain_toText`) and as one word (`Number.isWord_toText`).

So where class names hold no `<`, collecting instantiations by their written forms is collecting
them by their names and arguments (`toText_determines`).
-/

namespace ExplicitInstantiation

/-! ### Numbers are plain words -/

/-- Whether a character can stand in the text of a number: a letter or digit, a sign or a point. -/
def isNumeralChar (c : Char) : Bool :=
  c.isAlphanum || c == '-' || c == '.'

/-- No character of a number is a blank. -/
theorem isBlank_of_isNumeralChar {c : Char} (h : isNumeralChar c = true) : isBlank c = false := by
  rw [← Bool.not_eq_true]
  intro hblank
  have hcode := Token.toNat_of_isBlank hblank
  simp only [isNumeralChar, Bool.or_eq_true, beq_iff_eq] at h
  rcases h with (h | rfl) | rfl
  · have := Token.toNat_of_isAlphanum h
    omega
  · cases hblank
  · cases hblank

/-- A natural number is written with such characters. -/
theorem Text.numeral_ofNat (n : Nat) : (ofNat n).all isNumeralChar = true := by
  rw [List.all_eq_true]
  intro c hc
  simp [isNumeralChar, Token.isAlphanum_of_isDigit (isDigit_ofNat n c hc)]

/-- A minus sign in front keeps a text one of such characters. -/
theorem numeral_withSign (negative : Bool) {t : Text} (h : t.all isNumeralChar = true) :
    (withSign negative t).all isNumeralChar = true := by
  cases negative with
  | false => exact h
  | true => exact (List.all_cons ..).trans h

/-- An integer is written with such characters. -/
theorem Text.numeral_ofInt (n : Int) : (ofInt n).all isNumeralChar = true := by
  cases n with
  | ofNat n => exact numeral_ofNat n
  | negSucc n => exact numeral_withSign true (numeral_ofNat (n + 1))

/-- A decimal is written with such characters. -/
theorem Decimal.numeral_positional (d : Decimal) : d.positional.all isNumeralChar = true := by
  have hdigits := Text.numeral_ofNat d.digits
  have hzeros (n : Nat) : (List.replicate n '0').all isNumeralChar = true := by
    have hzero : isNumeralChar '0' = true := by decide
    rw [List.all_replicate, hzero, ite_self]
  unfold positional
  split
  next e _ =>
    rw [List.all_append, hdigits, hzeros]
    rfl
  next e _ =>
    simp only
    split
    · rw [← List.take_append_drop ((Text.ofNat d.digits).length - (e + 1)) (Text.ofNat d.digits),
        List.all_append, Bool.and_eq_true] at hdigits
      rw [List.all_append, List.all_cons, hdigits.1, hdigits.2]
      rfl
    · rw [List.all_append, hdigits, List.all_cons, List.all_cons, hzeros]
      rfl

/-- A decimal is not written as nothing. -/
theorem Decimal.positional_ne_nil (d : Decimal) : d.positional ≠ [] := by
  unfold positional
  split
  · exact List.append_ne_nil_of_left_ne_nil (Text.ofNat_ne_nil _) _
  · simp only
    split
    · simp
    · exact List.cons_ne_nil _ _

/-- A real is written with characters of numbers, and with some of them. -/
theorem numeral_valueText (x : Float) :
    (valueText x).all isNumeralChar = true ∧ valueText x ≠ [] := by
  have hsign {negative : Bool} {t : Text} (h : t.all isNumeralChar = true ∧ t ≠ []) :
      (withSign negative t).all isNumeralChar = true ∧ withSign negative t ≠ [] := by
    refine ⟨numeral_withSign negative h.1, ?_⟩
    cases negative with
    | false => exact h.2
    | true => exact List.cons_ne_nil _ _
  unfold valueText
  split
  · unfold nonFiniteText
    split
    · decide
    · exact hsign (by decide)
  next magnitude _ =>
    have hpositional := And.intro magnitude.shortest.numeral_positional
      magnitude.shortest.positional_ne_nil
    apply hsign
    split
    next n _ =>
      split
      · rw [List.all_append, Text.numeral_ofNat]
        exact ⟨rfl, List.append_ne_nil_of_left_ne_nil (Text.ofNat_ne_nil n) _⟩
      · exact hpositional
    · exact hpositional

/-- A number is written with characters of numbers, and with some of them. -/
theorem Number.numeral_toText (number : Number) :
    number.toText.all isNumeralChar = true ∧ number.toText ≠ [] := by
  cases number with
  | int n =>
    refine ⟨Text.numeral_ofInt n, ?_⟩
    cases n with
    | ofNat n => exact Text.ofNat_ne_nil n
    | negSucc n => exact List.cons_ne_nil _ _
  | real x => exact numeral_valueText x

/-- A number is written without commas and brackets. -/
theorem Number.plain_toText (number : Number) : number.toText.all isPlain = true :=
  plain_of_class (by decide) number.numeral_toText.1

/-- A number is written as one word. -/
theorem Number.isWord_toText (number : Number) : number.toText.IsWord := by
  refine ⟨number.numeral_toText.2, ?_⟩
  rw [List.any_eq_false]
  intro c hc
  simp [isBlank_of_isNumeralChar (List.all_eq_true.mp number.numeral_toText.1 c hc)]

/-! ### Folding keeps the cut -/

/-- An argument without an operator folds to itself, and any other to the text of its value. -/
theorem foldArgument_eq_ok_iff {argument result : Text} :
    foldArgument argument = .ok result ↔
      (argument.any isOperatorChar = false ∧ argument = result) ∨
        (argument.any isOperatorChar = true ∧
          ∃ number, evaluate argument = .ok number ∧ number.toText = result) := by
  unfold foldArgument valueOf
  rcases argument.any isOperatorChar with _ | _
  · simp
  · rcases evaluate argument with reason | number <;> simp [Except.map, Except.mapError]

/-- A folded argument can stand in the place of the part that it comes from. -/
theorem keepsCut_foldArgument {part result : Text} (h : foldArgument part.trim = .ok result) :
    KeepsCut part result := by
  rcases foldArgument_eq_ok_iff.mp h with ⟨-, rfl⟩ | ⟨-, number, -, rfl⟩
  · exact keepsCut_trim part
  · exact keepsCut_of_plain number.plain_toText part

/-- The arguments of a list are folded part by part. -/
def FoldsInto (t : Text) (arguments : List Text) : Prop :=
  List.Forall₂ (fun part argument => foldArgument part.trim = .ok argument) (topLevelParts t)
    arguments

/-- A list that is not empty is folded part by part. -/
theorem foldArguments_eq_ok_iff {t : Text} (ht : t ≠ []) {arguments : List Text} :
    foldArguments t = .ok arguments ↔ FoldsInto t arguments := by
  unfold foldArguments
  rw [if_neg (by simpa using ht), mapM_eq_ok_iff]
  rfl

/-- Folded arguments are read back from their written form. -/
theorem FoldsInto.topLevelParts_join {t : Text} {arguments : List Text}
    (h : FoldsInto t arguments) : topLevelParts (Text.join [','] arguments) = arguments := by
  rw [← cutsInto_iff]
  exact (cutsInto_topLevelParts t).of_forall₂ (h.imp fun _ _ => keepsCut_foldArgument)

/-- Folded arguments are determined by the text that they make with commas between them. -/
theorem FoldsInto.join_eq_iff {t t' : Text} {arguments arguments' : List Text}
    (h : FoldsInto t arguments) (h' : FoldsInto t' arguments') :
    Text.join [','] arguments = Text.join [','] arguments' ↔ arguments = arguments' := by
  constructor
  · intro hjoin
    rw [← h.topLevelParts_join, hjoin, h'.topLevelParts_join]
  · rintro rfl
    rfl

/-! ### Written forms -/

/-- What stands before and behind the first mark is determined by the text. -/
theorem append_cons_inj {mark : Char} {name name' rest rest' : Text} (hname : mark ∉ name)
    (hname' : mark ∉ name') (h : name ++ mark :: rest = name' ++ mark :: rest') :
    name = name' ∧ rest = rest' := by
  rcases List.append_eq_append_iff.mp h with ⟨middle, rfl, hrest⟩ | ⟨middle, rfl, hrest⟩
  · rcases middle with _ | ⟨c, middle⟩
    · simpa using hrest
    · obtain ⟨rfl, -⟩ := List.cons.inj hrest
      simp at hname'
  · rcases middle with _ | ⟨c, middle⟩
    · simpa [eq_comm] using hrest
    · obtain ⟨rfl, -⟩ := List.cons.inj hrest
      simp at hname

/-- The class name ends at the first `<`. -/
theorem Instantiation.toText_eq_iff {a b : Instantiation} (ha : '<' ∉ a.className)
    (hb : '<' ∉ b.className) :
    a.toText = b.toText ↔
      a.className = b.className ∧ Text.join [','] a.arguments = Text.join [','] b.arguments := by
  unfold toText
  constructor
  · intro h
    rw [List.append_left_inj] at h
    exact append_cons_inj ha hb h
  · rintro ⟨hname, harguments⟩
    rw [hname, harguments]

/-- Whether an instantiation is one that sites stand for: its class name holds no `<`, and its
arguments come from folding a list. -/
structure Instantiation.Folded (instantiation : Instantiation) : Prop where
  /-- No angle bracket opens in the name. -/
  name : '<' ∉ instantiation.className
  /-- The arguments have been folded from some list. -/
  arguments : ∃ t ≠ [], foldArguments t = .ok instantiation.arguments

/-- Its written form is read back. -/
theorem Instantiation.Folded.eq_of_toText_eq {a b : Instantiation} (ha : a.Folded) (hb : b.Folded)
    (h : a.toText = b.toText) : a = b := by
  obtain ⟨t, ht, hfold⟩ := ha.arguments
  obtain ⟨t', ht', hfold'⟩ := hb.arguments
  obtain ⟨hname, hjoin⟩ := (toText_eq_iff ha.name hb.name).mp h
  rw [foldArguments_eq_ok_iff ht] at hfold
  rw [foldArguments_eq_ok_iff ht'] at hfold'
  have harguments : a.arguments = b.arguments := (hfold.join_eq_iff hfold').mp hjoin
  cases a
  cases b
  exact (Instantiation.mk.injEq ..).mpr ⟨hname, harguments⟩

/-- What a site with arguments stands for has been folded. -/
theorem Site.folded_of_resolve {constants : Constants} {site : Site} {instantiation : Instantiation}
    (hname : '<' ∉ site.templateClass.name) (hgiven : constants.substitute site.arguments ≠ [])
    (h : site.resolve constants = .ok instantiation) : instantiation.Folded := by
  obtain ⟨hclass, hfold⟩ := resolve_eq_ok_iff.mp h
  exact ⟨hclass ▸ hname, _, hgiven, hfold⟩

/-- Where different instantiations are written differently, the first of each is kept. -/
theorem Instantiations.items_ofList {instantiations : List Instantiation}
    (h : ∀ a ∈ instantiations, ∀ b ∈ instantiations, a.toText = b.toText → a = b) :
    (ofList instantiations).items = instantiations.eraseDups := by
  induction instantiations using List.reverseRecOn with
  | nil => rfl
  | append_singleton instantiations next ih =>
    have hcontains : (ofList instantiations).contains next = true ↔ next ∈ instantiations := by
      rw [contains_ofList_iff, List.mem_map]
      constructor
      · rintro ⟨other, hother, hline⟩
        rw [Instantiation.declaration_eq_iff] at hline
        rw [← h other (List.mem_append_left _ hother) next (by simp) hline]
        exact hother
      · intro hmem
        exact ⟨next, hmem, rfl⟩
    have hfirst := ih fun a ha b hb =>
      h a (List.mem_append_left _ ha) b (List.mem_append_left _ hb)
    rw [ofList_concat, insert, eraseDups_concat, ← hfirst]
    by_cases hmem : next ∈ instantiations
    · rw [if_pos (hcontains.mpr hmem), if_pos hmem]
    · rw [if_neg (mt hcontains.mp hmem), if_neg hmem]

/-- **The written form determines an instantiation.**

* Folded arguments are the parts of the text in which they are joined.
* With names that hold no `<`, folded arguments that are written alike are the same, and so are the
  names.
* So of the instantiations of sites no two different ones are taken for the same: the set consists
  of the instantiations without later repetitions.
-/
theorem toText_determines :
    (∀ t arguments, t ≠ [] → foldArguments t = .ok arguments →
        topLevelParts (Text.join [','] arguments) = arguments) ∧
      (∀ t t' name name' arguments arguments', t ≠ [] → t' ≠ [] → '<' ∉ name → '<' ∉ name' →
        foldArguments t = .ok arguments → foldArguments t' = .ok arguments' →
        Instantiation.toText ⟨name, arguments⟩ = Instantiation.toText ⟨name', arguments'⟩ →
        name = name' ∧ arguments = arguments') ∧
      (∀ constants sites set,
        (∀ site ∈ sites, '<' ∉ site.templateClass.name ∧
          constants.substitute site.arguments ≠ []) →
        resolveSites constants sites = .ok set →
        ∃ instantiations,
          List.Forall₂ (fun site instantiation => site.resolve constants = .ok instantiation)
            sites instantiations ∧ set.items = instantiations.eraseDups) := by
  refine ⟨?_, ?_, ?_⟩
  · intro t arguments ht h
    exact ((foldArguments_eq_ok_iff ht).mp h).topLevelParts_join
  · intro t t' name name' arguments arguments' ht ht' hname hname' h h' hsame
    have hfolded : Instantiation.Folded ⟨name, arguments⟩ := ⟨hname, t, ht, h⟩
    have hfolded' : Instantiation.Folded ⟨name', arguments'⟩ := ⟨hname', t', ht', h'⟩
    exact (Instantiation.mk.injEq ..).mp (hfolded.eq_of_toText_eq hfolded' hsame)
  · intro constants sites set hsites hset
    obtain ⟨instantiations, hresolve, rfl⟩ := resolveSites_eq_ok_iff.mp hset
    have hfolded : ∀ a ∈ instantiations, a.Folded := by
      intro a ha
      obtain ⟨site, hsite, hsiteResolve⟩ := (results_of_mapM (mapM_eq_ok_iff.mpr hresolve)).2 a ha
      exact site.folded_of_resolve (hsites site hsite).1 (hsites site hsite).2 hsiteResolve
    refine ⟨instantiations, hresolve, Instantiations.items_ofList ?_⟩
    exact fun a ha b hb => (hfolded a ha).eq_of_toText_eq (hfolded b hb)

/-- A product has its value. -/
theorem evaluate_product_six : evaluate "2*3".toList = .ok (.int 6) := by
  have hwrites : Token.Writes (Expression.binary .mul (.literal 2) (.literal 3)).tokens
      "2*3".toList :=
    .cons [] nofun (.ofNat 2) <| .cons [] nofun .star <| .cons [] nofun (.ofNat 3) <| .nil [] nofun
  exact Expression.Exact.evaluate_eq (by decide) hwrites

/-- A pair and a product that folds, with blanks around them, beside the same arguments written
without them. The comma of the pair is not one between arguments. -/
theorem toText_determines_pair_product :
    ∃ (arguments arguments' : List Text) (set : Instantiations)
      (instantiations : List Instantiation),
      foldArguments " std::pair<int,int> , 2*3".toList = .ok arguments ∧
        topLevelParts (Text.join [','] arguments) = arguments ∧
        foldArguments "std::pair<int,int>,6".toList = .ok arguments' ∧
        arguments = arguments' ∧
        resolveSites .empty
            [⟨⟨"Grid".toList, 2⟩, " std::pair<int,int> , 2*3".toList, ⟨.ofString "use.cpp", 1⟩⟩,
              ⟨⟨"Cell".toList, 2⟩, "std::pair<int,int>,6".toList, ⟨.ofString "use.cpp", 2⟩⟩] =
          .ok set ∧
        instantiations.length = 2 ∧ set.items = instantiations.eraseDups := by
  have hproduct : foldArgument "2*3".toList = .ok "6".toList :=
    foldArgument_of_int evaluate_product_six
  have hfold : foldArguments " std::pair<int,int> , 2*3".toList =
      .ok ["std::pair<int,int>".toList, "6".toList] :=
    (foldArguments_eq_ok_iff (by decide)).mpr (.cons rfl (.cons hproduct .nil))
  have hfold' : foldArguments "std::pair<int,int>,6".toList =
      .ok ["std::pair<int,int>".toList, "6".toList] := rfl
  have hset : resolveSites .empty
      [⟨⟨"Grid".toList, 2⟩, " std::pair<int,int> , 2*3".toList, ⟨.ofString "use.cpp", 1⟩⟩,
        ⟨⟨"Cell".toList, 2⟩, "std::pair<int,int>,6".toList, ⟨.ofString "use.cpp", 2⟩⟩] =
      .ok ⟨[⟨"Grid".toList, ["std::pair<int,int>".toList, "6".toList]⟩,
        ⟨"Cell".toList, ["std::pair<int,int>".toList, "6".toList]⟩]⟩ :=
    resolveSites_eq_ok_iff.mpr
      ⟨_, .cons (Site.resolve_empty hfold) (.cons (Site.resolve_empty hfold') .nil), by decide⟩
  obtain ⟨hparts, hwritten, hsites⟩ := toText_determines
  obtain ⟨instantiations, hresolve, hitems⟩ := hsites .empty _ _ (by simp) hset
  exact ⟨_, _, _, instantiations, hfold, hparts _ _ (by decide) hfold, hfold',
    (hwritten _ _ "Grid".toList "Grid".toList _ _ (by decide) (by decide) (by decide) (by decide)
      hfold hfold' rfl).2,
    hset, hresolve.length_eq.symm, hitems⟩

end ExplicitInstantiation
