import ExplicitInstantiation.Proofs.Source.Line
import ExplicitInstantiation.Proofs.Source.Nesting
import ExplicitInstantiation.Proofs.TemplateClass.Defaults

/-!
# Declarations of template classes

A declaration is written as a template head and a class heading, `template<P>` and `class X TAIL` or
`struct X TAIL`, on one line or on two, with blanks and comments around them. Reading it records one
class (`Declaration.foldl_step`). The template head is found by its first word and captured as a
whole, since `P` is well bracketed (`WrittenHead.ofLine?_text`). The name is looked for behind the
first word `class` of the line and only then behind the first `struct`, wherever these words stand
(`Heading.namedClass?_front`).

So a class that is introduced by `class` is recorded under its name, and so is one introduced by
`struct`, unless the code behind its name holds the word `class` with a name behind it
(`declaredClasses_of_declaration`). Then that name is recorded instead
(`declaredClasses_inner_class`).
-/

namespace ExplicitInstantiation

/-! ### Words -/

namespace Text

/-- The word that starts a template head is an identifier. -/
theorem isIdentifier_template : IsIdentifier "template".toList := by decide

/-- The word `class` is an identifier. -/
theorem isIdentifier_class : IsIdentifier "class".toList := by decide

/-- The word `struct` is an identifier. -/
theorem isIdentifier_struct : IsIdentifier "struct".toList := by decide

/-- No comment starts inside an identifier. -/
theorem IsIdentifier.slash_not_mem {name : Text} (h : name.IsIdentifier) : '/' ∉ name :=
  fun hmem => absurd (h.2 '/' hmem) (by decide)

end Text

/-! ### Class names -/

/-- A blank ends the name of a class. -/
theorem endsClassName_of_isBlank {c : Char} (h : isBlank c = true) : endsClassName c = true := by
  simp [endsClassName, h]

/-- What ends the name of a class is no identifier character. -/
theorem isIdentifierChar_of_endsClassName {c : Char} (h : endsClassName c = true) :
    isIdentifierChar c = false := by
  simp only [endsClassName, Bool.or_eq_true, beq_iff_eq] at h
  rcases h with (((hblank | rfl) | rfl) | rfl) | rfl
  · exact Text.isIdentifierChar_of_isBlank hblank
  all_goals decide

/-- Whether a name that a text stands behind ends there. -/
def EndsName (t : Text) : Prop :=
  ∀ c ∈ t.head?, endsClassName c = true

instance (t : Text) : Decidable (EndsName t) :=
  decidable_of_iff (t.head?.all endsClassName = true) (Option.all_eq_true _ _)

/-- What follows a name starts with no identifier character. -/
theorem EndsName.head?_any {t : Text} (h : EndsName t) : t.head?.any isIdentifierChar = false := by
  rcases t with _ | ⟨c, t⟩
  · rfl
  · exact isIdentifierChar_of_endsClassName (h c rfl)

/-- The name that a text starts with. -/
def leadingName (t : Text) : Text :=
  t.takeWhile fun c => !endsClassName c

/-- A word is read as a whole if something follows that ends a name. -/
theorem leadingName_append {word t : Text} (hword : ∀ c ∈ word, isIdentifierChar c = true)
    (ht : EndsName t) : leadingName (word ++ t) = word := by
  have hplain : ∀ c ∈ word, endsClassName c = false := by
    intro c hc
    rw [← Bool.not_eq_true]
    intro hends
    exact absurd (hword c hc) (by simp [isIdentifierChar_of_endsClassName hends])
  rw [leadingName, List.takeWhile_append_of_pos (by simpa using hplain)]
  rcases t with _ | ⟨c, t⟩
  · rw [List.takeWhile_nil, List.append_nil]
  · rw [List.takeWhile_cons_of_neg (by simp [ht c rfl]), List.append_nil]

/-- Blanks in front do not matter for the name behind a keyword. -/
theorem nameAfter?_append_of_blank {keyword : Text} (hkeyword : keyword.IsIdentifier)
    {blanks : Text} (h : blanks.all isBlank = true) (t : Text) :
    nameAfter? keyword (blanks ++ t) = nameAfter? keyword t := by
  rw [nameAfter?, Text.afterWord?_append_of_blank hkeyword h, nameAfter?]

/-- The name behind `class` is taken, and that behind `struct` only if there is none. -/
theorem namedClass?_eq (t : Text) :
    namedClass? t = (nameAfter? "class".toList t).or (nameAfter? "struct".toList t) := by
  simp only [namedClass?, List.findSome?_cons, List.findSome?_nil]
  cases nameAfter? "class".toList t <;> cases nameAfter? "struct".toList t <;> rfl

/-- Blanks in front do not matter for the class that is named. -/
theorem namedClass?_append_of_blank {blanks : Text} (h : blanks.all isBlank = true) (t : Text) :
    namedClass? (blanks ++ t) = namedClass? t := by
  rw [namedClass?_eq, nameAfter?_append_of_blank Text.isIdentifier_class h,
    nameAfter?_append_of_blank Text.isIdentifier_struct h, namedClass?_eq]

/-- Where a keyword is no word of the text, no name stands behind it. -/
theorem nameAfter?_of_not_mem {keyword t : Text} (hkeyword : keyword.IsIdentifier)
    (h : keyword ∉ t.runWords) : nameAfter? keyword t = none := by
  rw [nameAfter?, (Text.afterWord?_eq_none_iff hkeyword).mpr h]

/-- Where neither `class` nor `struct` is a word, no class is named. -/
theorem namedClass?_of_not_mem {t : Text} (hclass : "class".toList ∉ t.runWords)
    (hstruct : "struct".toList ∉ t.runWords) : namedClass? t = none := by
  rw [namedClass?_eq, nameAfter?_of_not_mem Text.isIdentifier_class hclass,
    nameAfter?_of_not_mem Text.isIdentifier_struct hstruct, Option.none_or]

/-- The name behind a keyword that starts a text ends where the text behind the name does not go on
with it. -/
theorem nameAfter?_keyword {keyword gap name t : Text} (hkeyword : keyword.IsIdentifier)
    (hne : gap ≠ []) (hgap : gap.all isBlank = true) (hname : name.IsIdentifier)
    (ht : EndsName t) :
    nameAfter? keyword (keyword ++ (gap ++ (name ++ t))) = some name := by
  have hlead : (name ++ t).takeWhile (fun c => !endsClassName c) = name :=
    leadingName_append hname.2 ht
  have htrim : Text.trimStart (name ++ t) = name ++ t := by
    rcases name with _ | ⟨c, name⟩
    · exact absurd rfl hname.1
    · exact Text.trimStart_cons_of_not (hname.not_blank List.mem_cons_self) _
  rw [nameAfter?, (Text.startsRun_of_gap hkeyword hne hgap _).afterWord?_eq hkeyword, if_pos rfl]
  rcases gap with _ | ⟨c, gap⟩
  · exact absurd rfl hne
  · rw [List.all_cons, Bool.and_eq_true] at hgap
    simp only [List.cons_append, hgap.1, if_true, Text.trimStart_append_of_blank hgap.2, htrim,
      hlead, List.isEmpty_eq_false_iff.mpr hname.1, Bool.false_eq_true, if_false]

/-! ### Headings -/

/-- The words that introduce a class. -/
inductive ClassKey where
  /-- `class` -/
  | ofClass
  /-- `struct` -/
  | ofStruct
  deriving Repr, DecidableEq

/-- The word itself. -/
def ClassKey.text : ClassKey → Text
  | ofClass => "class".toList
  | ofStruct => "struct".toList

/-- Each of the two keywords is an identifier. -/
theorem ClassKey.isIdentifier_text (key : ClassKey) : key.text.IsIdentifier := by
  cases key <;> decide

/-- The heading of a class, `class X TAIL` or `struct X TAIL`. -/
structure Heading where
  /-- The word that introduces the class. -/
  key : ClassKey
  /-- What stands between this word and the name. -/
  gap : Text
  /-- The name of the class. -/
  name : Text
  /-- What follows the name on the line. -/
  tail : Text
  /-- The name stands apart. -/
  gap_ne_nil : gap ≠ [] := by decide
  /-- Only blanks stand before the name. -/
  isBlank_gap : gap.all isBlank = true := by decide
  /-- The name is an identifier. -/
  isIdentifier_name : name.IsIdentifier := by decide
  /-- Something that ends a name follows it. -/
  endsName_tail : EndsName tail := by decide
  /-- No other template is declared on the line. -/
  template_not_mem : "template".toList ∉ (name ++ tail).runWords := by decide

namespace Heading

/-- The heading up to the name. -/
def front (heading : Heading) : Text :=
  heading.key.text ++ (heading.gap ++ heading.name)

/-- The heading as it is written. -/
def text (heading : Heading) : Text :=
  heading.front ++ heading.tail

/-- The name under which the class is recorded when `behind` is the code behind its name. -/
def recordedName (heading : Heading) (behind : Text) : Text :=
  match heading.key with
  | .ofClass => heading.name
  | .ofStruct => (nameAfter? "class".toList (heading.name ++ behind)).getD heading.name

variable (heading : Heading)

/-- A heading starts with its keyword, as a word. -/
theorem startsRun_front (t : Text) :
    Text.StartsRun (heading.front ++ t) heading.key.text (heading.gap ++ (heading.name ++ t)) := by
  rw [front, List.append_assoc, List.append_assoc]
  exact Text.startsRun_of_gap heading.key.isIdentifier_text heading.gap_ne_nil heading.isBlank_gap _

/-- No comment starts in a heading up to the name. -/
theorem slash_not_mem_front : '/' ∉ heading.front := by
  simp only [front, List.mem_append, not_or]
  exact ⟨heading.key.isIdentifier_text.slash_not_mem, slash_not_mem_of_blank heading.isBlank_gap,
    heading.isIdentifier_name.slash_not_mem⟩

/-- A heading up to the name does not end with a blank. -/
theorem getLast?_append_front (s : Text) :
    ∃ c ∈ (s ++ heading.front).getLast?, isBlank c = false := by
  rw [front, ← List.append_assoc, ← List.append_assoc]
  exact heading.isIdentifier_name.getLast?_append _

/-- A heading up to the name is neither trimmed nor cut at a comment. -/
theorem solid_front : Solid heading.front :=
  .of_not_mem heading.slash_not_mem_front (heading.key.isIdentifier_text.head?_append _)
    (heading.getLast?_append_front [])

/-- Behind the word that introduces the class, another word is looked for from the name on. -/
theorem nameAfter?_front {keyword : Text} (hkeyword : keyword.IsIdentifier)
    (hne : heading.key.text ≠ keyword) (behind : Text) :
    nameAfter? keyword (heading.front ++ behind) = nameAfter? keyword (heading.name ++ behind) := by
  rw [nameAfter?, (heading.startsRun_front behind).afterWord?_eq hkeyword, if_neg hne,
    Text.afterWord?_append_of_blank hkeyword heading.isBlank_gap, nameAfter?]

/-- The name in a heading is the one behind its keyword. -/
theorem nameAfter?_key {keyword behind : Text} (hkey : heading.key.text = keyword)
    (h : EndsName behind) : nameAfter? keyword (heading.front ++ behind) = some heading.name := by
  subst hkey
  rw [front, List.append_assoc, List.append_assoc]
  exact nameAfter?_keyword heading.key.isIdentifier_text heading.gap_ne_nil heading.isBlank_gap
    heading.isIdentifier_name h

/-- The class that a line with a heading names. -/
theorem namedClass?_front {behind : Text} (h : EndsName behind) :
    namedClass? (heading.front ++ behind) = some (heading.recordedName behind) := by
  rw [namedClass?_eq]
  unfold recordedName
  cases hkey : heading.key with
  | ofClass =>
    have hname : nameAfter? "class".toList (heading.front ++ behind) = some heading.name :=
      heading.nameAfter?_key (congrArg ClassKey.text hkey) h
    rw [hname, Option.some_or]
  | ofStruct =>
    have hname : nameAfter? "struct".toList (heading.front ++ behind) = some heading.name :=
      heading.nameAfter?_key (congrArg ClassKey.text hkey) h
    rw [heading.nameAfter?_front Text.isIdentifier_class (by rw [hkey]; decide), hname]
    cases nameAfter? "class".toList (heading.name ++ behind) <;> rfl

/-- The recorded name is that of the class, unless another one stands behind the word `class`. -/
theorem recordedName_eq_iff (behind : Text) :
    heading.recordedName behind = heading.name ↔
      heading.key = .ofClass ∨
        ∀ other, nameAfter? "class".toList (heading.name ++ behind) = some other →
          other = heading.name := by
  unfold recordedName
  cases heading.key with
  | ofClass => simp
  | ofStruct => cases nameAfter? "class".toList (heading.name ++ behind) <;> simp

end Heading

/-! ### Template heads -/

/-- Where `template` is no word of a line, no template head stands there. -/
theorem TemplateHead.ofLine?_of_not_mem {line : Text} (h : "template".toList ∉ line.runWords) :
    ofLine? line = none := by
  rw [ofLine?, (Text.afterWord?_eq_none_iff Text.isIdentifier_template).mpr h, Option.map_none]

/-- A template head, `template<P>`. -/
structure WrittenHead where
  /-- What stands between the word and the parameter list. -/
  gap : Text
  /-- The parameter list. -/
  parameters : Text
  /-- Only blanks stand before the list. -/
  isBlank_gap : gap.all isBlank = true := by decide
  /-- The brackets in the list are closed. -/
  wellBracketed : WellBracketed parameters := by decide
  /-- No comment starts in the list. -/
  uncommented : ¬ ['/', '/'] <:+: parameters := by decide

namespace WrittenHead

/-- The template head as it is written. -/
def text (head : WrittenHead) : Text :=
  "template".toList ++ (head.gap ++ '<' :: (head.parameters ++ ['>']))

/-- The number of parameters that an instantiation has to pass. -/
def required (head : WrittenHead) : Nat :=
  TemplateHead.requiredCount head.parameters

variable (head : WrittenHead)

/-- A template head is read with its number of required arguments, and what follows it is left. -/
theorem ofLine?_text (rest : Text) :
    TemplateHead.ofLine? (head.text ++ rest) = some ⟨head.required, rest⟩ := by
  have hstarts : Text.StartsRun (head.text ++ rest) "template".toList
      (head.gap ++ '<' :: (head.parameters ++ '>' :: rest)) := by
    refine ⟨Text.isIdentifier_template, ?_, ?_⟩
    · exact Text.head?_any_append_of_blank head.isBlank_gap rfl
    · unfold text
      generalize "template".toList = keyword
      simp
  have hopens : TemplateHead.OpensList (head.text ++ rest) (head.parameters ++ '>' :: rest) := by
    rw [TemplateHead.OpensList, hstarts.afterWord?_eq Text.isIdentifier_template, if_pos rfl,
      Option.map_some, Text.trimStart_append_of_blank head.isBlank_gap,
      Text.trimStart_cons_of_not (by decide)]
  exact TemplateHead.ofLine?_of_opensList hopens
    (cutAtClosingAngle_of_wellBracketed head.wellBracketed rest)

/-- A template head is neither trimmed nor cut at a comment. -/
theorem solid_text : Solid head.text := by
  have hkeyword := Text.isIdentifier_template
  unfold text
  generalize "template".toList = keyword at hkeyword ⊢
  refine ⟨?_, hkeyword.head?_append _, '>', ?_, by decide, by decide⟩
  · rw [comment_infix_append_left hkeyword.slash_not_mem,
      comment_infix_append_left (slash_not_mem_of_blank head.isBlank_gap),
      ← @List.singleton_append _ '<', comment_infix_append_left (by decide),
      comment_infix_append_right (by decide)]
    exact head.uncommented
  · rw [← List.cons_append, ← List.append_assoc, ← List.append_assoc, List.getLast?_concat]
    rfl

end WrittenHead

/-! ### Declarations -/

/-- Where the heading of a class stands. -/
inductive Placement where
  /-- On the line of the template head. -/
  | sameLine (margins : Margins) (gap : Text) (isBlank_gap : gap.all isBlank = true)
  /-- On a line below, with nothing but blanks and comments on the lines between. -/
  | nextLine (upper : Margins) (between : List Text) (lower : Margins)
      (isRemark_between : ∀ line ∈ between, IsRemark line)

/-- What stands on a line around the heading. -/
def Placement.margins : Placement → Margins
  | sameLine margins _ _ => margins
  | nextLine _ _ lower _ => lower

/-- A declaration of a template class. -/
structure Declaration where
  /-- The template head. -/
  head : WrittenHead
  /-- The heading of the class. -/
  heading : Heading
  /-- Where the heading stands. -/
  placement : Placement

namespace Declaration

variable (declaration : Declaration)

/-- The lines of a declaration. -/
def lines : List Text :=
  match declaration.placement with
  | .sameLine margins gap _ =>
    [margins.around (declaration.head.text ++ (gap ++ declaration.heading.text))]
  | .nextLine upper between lower _ =>
    upper.around declaration.head.text :: (between ++ [lower.around declaration.heading.text])

/-- The code behind the name of the class. -/
def behind : Text :=
  codeBehind (declaration.heading.tail ++ declaration.placement.margins.remark)

/-- The class that is recorded, with the count of the template head. -/
def recorded : TemplateClass :=
  ⟨declaration.heading.recordedName declaration.behind, declaration.head.required⟩

/-- What follows the name in a declaration ends it. -/
theorem endsName_behind : EndsName declaration.behind := by
  intro c hc
  rcases declaration.placement.margins.isRemark.head?_codeBehind hc with hc | hc
  · exact declaration.heading.endsName_tail c hc
  · exact endsClassName_of_isBlank hc

/-- The words of the code from the name on are written there. -/
theorem mem_runWords_of_behind {word : Text}
    (h : word ∈ (declaration.heading.name ++ declaration.behind).runWords) :
    word ∈ (declaration.heading.name ++ declaration.heading.tail).runWords := by
  rw [Text.runWords_append declaration.endsName_behind.head?_any, List.mem_append] at h
  rw [Text.runWords_append declaration.heading.endsName_tail.head?_any, List.mem_append]
  exact h.imp_right declaration.placement.margins.isRemark.mem_runWords

/-- The class that a heading names is the one that is recorded. -/
theorem namedClass?_heading :
    namedClass? (declaration.heading.front ++ declaration.behind) =
      some declaration.recorded.name :=
  declaration.heading.namedClass?_front declaration.endsName_behind

/-- No template head stands behind the heading. -/
theorem ofLine?_heading :
    TemplateHead.ofLine? (declaration.heading.front ++ declaration.behind) = none := by
  refine TemplateHead.ofLine?_of_not_mem ?_
  rw [(declaration.heading.startsRun_front declaration.behind).runWords_eq,
    Text.runWords_append_of_blank declaration.heading.isBlank_gap, List.mem_cons, not_or]
  refine ⟨?_, fun hmem => declaration.heading.template_not_mem ?_⟩
  · cases declaration.heading.key <;> decide
  · exact declaration.mem_runWords_of_behind hmem

/-- On one line, the head and the heading are followed by the code behind the name. -/
theorem codesOf_sameLine {margins : Margins} {gap : Text} {isBlank_gap : gap.all isBlank = true}
    (h : declaration.placement = .sameLine margins gap isBlank_gap) :
    codesOf declaration.lines =
      [declaration.head.text ++ (gap ++ (declaration.heading.front ++ declaration.behind))] := by
  have hsolid : Solid (declaration.head.text ++ (gap ++ declaration.heading.front)) := by
    refine declaration.head.solid_text.append ?_ (declaration.heading.getLast?_append_front gap)
    rw [List.mem_append, not_or]
    exact ⟨slash_not_mem_of_blank isBlank_gap, declaration.heading.slash_not_mem_front⟩
  have hcode := hsolid.codesOf_around margins declaration.heading.tail
  simp only [List.append_assoc] at hcode
  simpa only [lines, behind, h, Heading.text, Placement.margins] using hcode

/-- On two lines, the head stands on one and the heading, with the code behind the name, on the
other. -/
theorem codesOf_nextLine {upper lower : Margins} {between : List Text}
    {isRemark_between : ∀ line ∈ between, IsRemark line}
    (h : declaration.placement = .nextLine upper between lower isRemark_between) :
    codesOf declaration.lines =
      [declaration.head.text, declaration.heading.front ++ declaration.behind] := by
  have hbehind : declaration.behind = codeBehind (declaration.heading.tail ++ lower.remark) := by
    rw [behind, h, Placement.margins]
  have hlines : declaration.lines = [upper.around declaration.head.text] ++
      (between ++ [lower.around declaration.heading.text]) := by
    rw [lines, h]
    rfl
  rw [hlines, codesOf_append, codesOf_append, declaration.head.solid_text.codesOf_around_self,
    codesOf_of_forall fun line hline => (isRemark_between line hline).codeOf_eq, Heading.text,
    declaration.heading.solid_front.codesOf_around, ← hbehind]
  rfl

end Declaration

/-! ### Reading a declaration -/

namespace HeaderReading

variable {classes : List TemplateClass} {line : Text}

/-- A template head and a name on one line declare the class. -/
theorem step_named {head : TemplateHead} {name : Text}
    (hhead : TemplateHead.ofLine? line = some head) (hname : namedClass? head.rest = some name) :
    step ⟨none, classes⟩ line = declare ⟨none, classes⟩ name head.required := by
  simp only [step, settle, introduce, hhead, hname]

/-- A template head without a name waits for the next line. -/
theorem step_unnamed {head : TemplateHead} (hhead : TemplateHead.ofLine? line = some head)
    (hname : namedClass? head.rest = none) :
    step ⟨none, classes⟩ line = ⟨some head.required, classes⟩ := by
  simp only [step, settle, introduce, hhead, hname]

/-- A name below a template head declares the class. -/
theorem step_settles {required : Nat} {name : Text} (hhead : TemplateHead.ofLine? line = none)
    (hname : namedClass? line = some name) :
    step ⟨some required, classes⟩ line = declare ⟨none, classes⟩ name required := by
  simp only [step, settle, introduce, hhead, hname]

/-- A line without a head and without a name drops the head that waits. -/
theorem step_drops {pending : Option Nat} (hhead : TemplateHead.ofLine? line = none)
    (hname : namedClass? line = none) : step ⟨pending, classes⟩ line = ⟨none, classes⟩ := by
  cases pending <;> simp only [step, settle, introduce, hhead, hname]

end HeaderReading

/-- A template head alone on its line is left open. -/
theorem WrittenHead.step_text (head : WrittenHead) (classes : List TemplateClass) :
    HeaderReading.step ⟨none, classes⟩ head.text = ⟨some head.required, classes⟩ := by
  have hhead := head.ofLine?_text []
  rw [List.append_nil] at hhead
  have hname : namedClass? [] = none := namedClass?_of_not_mem (by decide) (by decide)
  exact HeaderReading.step_unnamed hhead hname

/-- **Reading a declaration.** One class is recorded, and no template head is left open. -/
theorem Declaration.foldl_step (declaration : Declaration) (classes : List TemplateClass) :
    (codesOf declaration.lines).foldl HeaderReading.step ⟨none, classes⟩ =
      HeaderReading.declare ⟨none, classes⟩ declaration.recorded.name
        declaration.recorded.required := by
  cases hplacement : declaration.placement with
  | sameLine margins gap isBlank_gap =>
    have hname := declaration.namedClass?_heading
    rw [← namedClass?_append_of_blank isBlank_gap] at hname
    rw [declaration.codesOf_sameLine hplacement]
    exact HeaderReading.step_named (declaration.head.ofLine?_text _) hname
  | nextLine upper between lower isRemark_between =>
    rw [declaration.codesOf_nextLine hplacement, List.foldl_cons, declaration.head.step_text]
    exact HeaderReading.step_settles declaration.ofLine?_heading declaration.namedClass?_heading

/-- The classes of a header, from the code on its lines. -/
theorem declaredClasses_eq (header : Text) :
    declaredClasses header =
      ((codesOf header.lines).foldl HeaderReading.step HeaderReading.empty).classes := by
  rw [declaredClasses, HeaderReading.ofLines, ← map_code_codeLines, List.foldl_map]

/-- **The recorded class.** A header that consists of one declaration records one class, with the
count of the declaration. It is recorded under its name exactly if it is introduced by `class`, or
no other name stands behind the first word `class` from its name on. -/
theorem declaredClasses_of_declaration {header : Text} {declaration : Declaration}
    (h : header.lines = declaration.lines) :
    declaredClasses header = [declaration.recorded] ∧
      (declaration.recorded.name = declaration.heading.name ↔
        declaration.heading.key = .ofClass ∨
          ∀ other, nameAfter? "class".toList (declaration.heading.name ++ declaration.behind) =
            some other → other = declaration.heading.name) := by
  refine ⟨?_, declaration.heading.recordedName_eq_iff declaration.behind⟩
  rw [declaredClasses_eq, h, HeaderReading.empty, declaration.foldl_step]
  rfl

/-- A blank between two words is there. -/
theorem space_ne_nil : [' '] ≠ [] :=
  List.cons_ne_nil _ _

/-- The name of the sample class is an identifier. -/
theorem isIdentifier_grid : Text.IsIdentifier "Grid".toList := by decide

/-- Nothing at all is a remark. -/
theorem isRemark_nil : IsRemark [] := by decide

/-- `template <template<class, class> class C, int N = 4>` -/
def sampleHead : WrittenHead where
  gap := [' ']
  parameters := "template<class, class> class C, int N = 4".toList
  isBlank_gap := .refl true

/-- The lines between a template head and the heading of its class. -/
def sampleBetween : List Text :=
  ["".toList, " // class Cell".toList]

/-- Between the head and the heading stand only remarks. -/
theorem isRemark_sampleBetween : ∀ line ∈ sampleBetween, IsRemark line := by decide

/-- A line that holds a heading and nothing behind it. -/
def sampleMargins : Margins where
  indent := ['\t']
  remark := []
  isBlank_indent := .refl true
  isRemark := isRemark_nil

/-- A class with a default, a member class and remarks. -/
def sampleDeclaration : Declaration where
  head := sampleHead
  heading :=
    { key := .ofStruct, gap := [' '], name := "Grid".toList
      tail := " \x7b struct Cell; \x7d;".toList
      gap_ne_nil := space_ne_nil, isBlank_gap := .refl true
      isIdentifier_name := isIdentifier_grid }
  placement :=
    .nextLine
      { indent := "  ".toList, remark := " // class of grids".toList, isBlank_indent := .refl true }
      sampleBetween sampleMargins isRemark_sampleBetween

/-- A header that consists of it. -/
def sampleLayout : Text :=
  "  template <template<class, class> class C, int N = 4> // class of grids\r\n\n".toList ++
    " // class Cell\n\tstruct Grid \x7b struct Cell; \x7d;\n".toList

/-- Neither the words in comments nor the member class disturb the reading. -/
theorem declaredClasses_sampleLayout :
    sampleLayout.lines = sampleDeclaration.lines ∧
      declaredClasses sampleLayout = [⟨"Grid".toList, 1⟩] := by
  have hlines : sampleLayout.lines = sampleDeclaration.lines := by decide +kernel
  refine ⟨hlines, (declaredClasses_of_declaration hlines).1.trans ?_⟩
  decide +kernel

/-- The name of a member class or of a friend, or a class named in the base, is recorded in place of
the class itself. -/
theorem declaredClasses_inner_class :
    declaredClasses "template<int N> struct Grid \x7b class Cell; \x7d;\n".toList =
      [⟨"Cell".toList, 1⟩] ∧
    declaredClasses "template<int N>\nstruct Grid \x7b friend class View; \x7d;\n".toList =
      [⟨"View".toList, 1⟩] ∧
    declaredClasses "template<int N> struct Grid : Tagged<class Tag> \x7b\x7d;\n".toList =
      [⟨"Tag>".toList, 1⟩] := by
  decide +kernel

end ExplicitInstantiation
