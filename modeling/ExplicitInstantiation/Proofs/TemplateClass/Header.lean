import ExplicitInstantiation.Proofs.TemplateClass.Declaration

/-!
# Well-formed headers

A header is put together from declarations of template classes, template functions and other lines
(`Item`). Reading it lists the declared classes in order, the first one of each name
(`declaredClasses_items`).

Reading has one open place only, for a template head that has not met its class. It is filled and
cleared again within each item: a class takes the head, and a function, whose line names no class,
drops it (`Item.foldl_step`). So each item is read as if it stood alone.

The counts are those of the parameters without an equals sign, since such a sign always introduces a
default (`PlainDeclaration.recorded_required`), and the names are those of the classes, since no
other class is named on their lines (`PlainDeclaration.recorded_name`).
-/

namespace ExplicitInstantiation

/-! ### Items -/

/-- The words by which a header is read. -/
def reservedWords : List Text :=
  ["template".toList, "class".toList, "struct".toList]

/-- Whether none of these words stands in a text. -/
def Unreserved (t : Text) : Prop :=
  ∀ word ∈ reservedWords, word ∉ t.runWords

instance (t : Text) : Decidable (Unreserved t) :=
  inferInstanceAs (Decidable (∀ word ∈ reservedWords, word ∉ t.runWords))

/-- A declaration of a template class in which an equals sign introduces a default. -/
structure PlainDeclaration extends Declaration where
  /-- A parameter has one equals sign at most, and that one outside all brackets. -/
  plain : ∀ parameter ∈ TemplateHead.parameters head.parameters,
    TemplateHead.isPlain parameter = true
  /-- The name is none of these words, which the language reserves, and none of them follows it on
  the line. -/
  unreserved : Unreserved (heading.name ++ heading.tail)

/-- A template function: a template head alone on its line, and below it a line of code. -/
structure TemplateFunction where
  /-- The template head. -/
  head : WrittenHead
  /-- What stands around it. -/
  margins : Margins
  /-- The lines between. -/
  between : List Text
  /-- The line of the function. -/
  line : Text
  /-- The lines between have blanks and comments only. -/
  isRemark_between : ∀ line ∈ between, IsRemark line
  /-- The line of the function has code. -/
  code_ne_nil : codeOf line ≠ []
  /-- No class is named on it, and no template is declared. -/
  unreserved : Unreserved (codeOf line)

/-- A line that is neither. Words in its comment do not count. -/
structure Filler where
  /-- The line. -/
  line : Text
  /-- No class is named on it, and no template is declared. -/
  unreserved : Unreserved (codeOf line)

/-- A piece of a header. -/
inductive Item where
  /-- A template class. -/
  | declaration (declaration : PlainDeclaration)
  /-- A template function. -/
  | function (function : TemplateFunction)
  /-- Another line. -/
  | filler (filler : Filler)

/-- The number of parameters without an equals sign. -/
def plainParameters (list : Text) : Nat :=
  (TemplateHead.parameters list).countP fun parameter => !parameter.contains '='

namespace Item

/-- The lines of an item. -/
def lines : Item → List Text
  | declaration d => d.lines
  | function f => f.margins.around f.head.text :: (f.between ++ [f.line])
  | filler f => [f.line]

/-- The class that an item declares. -/
def declared : Item → List TemplateClass
  | declaration d => [⟨d.heading.name, plainParameters d.head.parameters⟩]
  | function _ => []
  | filler _ => []

end Item

/-! ### Lines without reserved words -/

/-- On a line without the reserved words stands no template head. -/
theorem Unreserved.ofLine? {t : Text} (h : Unreserved t) : TemplateHead.ofLine? t = none :=
  TemplateHead.ofLine?_of_not_mem (h _ (by decide))

/-- On a line without the reserved words no class is named. -/
theorem Unreserved.namedClass? {t : Text} (h : Unreserved t) : namedClass? t = none :=
  namedClass?_of_not_mem (h _ (by decide)) (h _ (by decide))

/-- A line without reserved words clears the open place. -/
theorem Unreserved.step {t : Text} (h : Unreserved t) (pending : Option Nat)
    (classes : List TemplateClass) :
    HeaderReading.step ⟨pending, classes⟩ t = ⟨none, classes⟩ :=
  HeaderReading.step_drops h.ofLine? h.namedClass?

/-! ### Declarations -/

namespace TemplateHead

/-- An equals sign of a plain parameter introduces its default. -/
theorem hasDefault_of_isPlain {parameter : Text} (h : isPlain parameter = true) :
    hasDefault parameter = parameter.contains '=' := by
  rw [isPlain, beq_iff_eq] at h
  rw [Bool.eq_iff_iff, List.contains_iff_mem, ← List.count_pos_iff, h]
  cases hasDefault parameter <;> decide

/-- The count of a list of plain parameters. -/
theorem requiredCount_of_plain {list : Text}
    (h : ∀ parameter ∈ parameters list, isPlain parameter = true) :
    requiredCount list = plainParameters list := by
  rw [(requiredCount_eq_withoutDefault_iff list).mpr (.inl h), withoutDefault, plainParameters]
  refine List.countP_congr fun parameter hparameter => ?_
  rw [hasDefault_of_isPlain (h parameter hparameter)]

end TemplateHead

namespace PlainDeclaration

variable (d : PlainDeclaration)

/-- No other name stands on the line of the class. -/
theorem recorded_name : d.recorded.name = d.heading.name := by
  refine (d.heading.recordedName_eq_iff d.behind).mpr (.inr fun other hother => ?_)
  have hclass : "class".toList ∉ (d.heading.name ++ d.behind).runWords :=
    fun hmem => d.unreserved _ (by decide) (d.mem_runWords_of_behind hmem)
  rw [nameAfter?_of_not_mem Text.isIdentifier_class hclass] at hother
  cases hother

/-- The recorded number is that of the parameters without a default. -/
theorem recorded_required : d.recorded.required = plainParameters d.head.parameters :=
  TemplateHead.requiredCount_of_plain d.plain

end PlainDeclaration

/-! ### Reading item by item -/

/-- The classes with another one, unless its name is known. -/
def TemplateClass.addNew (classes : List TemplateClass) (c : TemplateClass) : List TemplateClass :=
  if classes.any (·.name == c.name) then classes else classes ++ [c]

/-- To declare a class, when no head waits, is to add it to the list. -/
theorem HeaderReading.declare_eq (classes : List TemplateClass) (c : TemplateClass) :
    declare ⟨none, classes⟩ c.name c.required = ⟨none, TemplateClass.addNew classes c⟩ := by
  rw [declare, TemplateClass.addNew]
  split <;> rfl

/-- **Reading an item.** The class that it declares is added, and no template head is left open. -/
theorem Item.foldl_step (item : Item) (classes : List TemplateClass) :
    (codesOf item.lines).foldl HeaderReading.step ⟨none, classes⟩ =
      ⟨none, item.declared.foldl TemplateClass.addNew classes⟩ := by
  cases item with
  | declaration d =>
    rw [lines, d.foldl_step, HeaderReading.declare_eq, declared, ← d.recorded_name,
      ← d.recorded_required]
    rfl
  | function f =>
    have hcodes : codesOf (f.between ++ [f.line]) = [codeOf f.line] := by
      rw [codesOf_append, codesOf_singleton f.code_ne_nil,
        codesOf_of_forall fun line hline => (f.isRemark_between line hline).codeOf_eq,
        List.nil_append]
    rw [lines, ← List.singleton_append, codesOf_append, f.head.solid_text.codesOf_around_self,
      hcodes, List.singleton_append, List.foldl_cons, f.head.step_text]
    exact f.unreserved.step _ classes
  | filler f =>
    rw [lines]
    by_cases hcode : codeOf f.line = []
    · rw [codesOf_of_forall (by simpa using hcode)]
      rfl
    · rw [codesOf_singleton hcode]
      exact f.unreserved.step none classes

/-- Item by item, the classes that are declared are added. -/
theorem foldl_step_items (items : List Item) (classes : List TemplateClass) :
    (codesOf (items.flatMap Item.lines)).foldl HeaderReading.step ⟨none, classes⟩ =
      ⟨none, (items.flatMap Item.declared).foldl TemplateClass.addNew classes⟩ := by
  induction items generalizing classes with
  | nil => rfl
  | cons item items ih =>
    rw [List.flatMap_cons, codesOf_append, List.foldl_append, item.foldl_step, ih,
      List.flatMap_cons, List.foldl_append]

/-- Adding classes in turn keeps the first one of each name. -/
theorem TemplateClass.foldl_addNew (classes known : List TemplateClass) :
    classes.foldl addNew known = List.eraseDupsBy.loop isSame classes known.reverse := by
  induction classes generalizing known with
  | nil => exact known.reverse_reverse.symm
  | cons c classes ih =>
    have hsame : c.isSame = fun other => other.name == c.name := funext fun _ => Bool.beq_comm
    rw [List.foldl_cons, ih, addNew, List.eraseDupsBy.loop, List.any_reverse, hsame]
    cases known.any (·.name == c.name) <;> simp

/-- **Well-formed headers.** Reading a header lists the classes that its items declare, in order,
the first one of each name. -/
theorem declaredClasses_items {header : Text} {items : List Item}
    (h : header.lines = items.flatMap Item.lines) :
    declaredClasses header = (items.flatMap Item.declared).eraseDupsBy TemplateClass.isSame := by
  rw [declaredClasses_eq, h, HeaderReading.empty, foldl_step_items, TemplateClass.foldl_addNew]
  rfl

/-- Nothing around the code of a line. -/
def noMargins : Margins where
  indent := []
  remark := []
  isBlank_indent := .refl true
  isRemark := isRemark_nil

/-- A line, a class below its template head, a function, a specialisation of the class and another
class. -/
def sampleItems : List Item := [
  .filler { line := "#pragma once".toList, unreserved := by decide +kernel },
  .declaration {
    head := sampleHead
    heading :=
      { key := .ofStruct, gap := [' '], name := "Grid".toList, tail := ": Base<N> \x7b".toList
        gap_ne_nil := space_ne_nil, isBlank_gap := .refl true
        isIdentifier_name := isIdentifier_grid }
    placement :=
      .nextLine { indent := [], remark := " // grids".toList, isBlank_indent := .refl true }
        sampleBetween sampleMargins isRemark_sampleBetween
    plain := by decide +kernel
    unreserved := by decide +kernel },
  .function {
    head := { gap := [], parameters := "class T".toList, isBlank_gap := .refl true }
    margins := noMargins
    between := ["// struct".toList]
    line := "T clamp(T value);".toList
    isRemark_between := by decide
    code_ne_nil := by decide
    unreserved := by decide +kernel },
  .declaration {
    head := { gap := [], parameters := [], isBlank_gap := .refl true }
    heading :=
      { key := .ofStruct, gap := [' '], name := "Grid".toList, tail := "<int> \x7b\x7d;".toList
        gap_ne_nil := space_ne_nil, isBlank_gap := .refl true
        isIdentifier_name := isIdentifier_grid }
    placement := .sameLine noMargins [' '] (.refl true)
    plain := by decide
    unreserved := by decide +kernel },
  .declaration {
    head := { gap := [], parameters := "int N".toList, isBlank_gap := .refl true }
    heading :=
      { key := .ofClass, gap := [' '], name := "Ring".toList, tail := []
        gap_ne_nil := space_ne_nil, isBlank_gap := .refl true }
    placement :=
      .sameLine
        { indent := "  ".toList, remark := " // no end".toList, isBlank_indent := .refl true }
        [] (.refl true)
    plain := by decide +kernel
    unreserved := by decide +kernel }]

/-- A header that is put together from these items, with line ends of both kinds. -/
def sampleHeader : Text :=
  "#pragma once\ntemplate <template<class, class> class C, int N = 4> // grids\r\n".toList ++
    "\r\n // class Cell\n\tstruct Grid: Base<N> \x7b\ntemplate<class T>\n// struct\r\n".toList ++
    "T clamp(T value);\ntemplate<> struct Grid<int> \x7b\x7d;\n".toList ++
    "  template<int N>class Ring // no end".toList

/-- The specialisation is left out, and the function takes no class. -/
theorem declaredClasses_sampleHeader :
    sampleHeader.lines = sampleItems.flatMap Item.lines ∧
      declaredClasses sampleHeader = [⟨"Grid".toList, 1⟩, ⟨"Ring".toList, 1⟩] := by
  have hlines : sampleHeader.lines = sampleItems.flatMap Item.lines := by decide +kernel
  refine ⟨hlines, (declaredClasses_items hlines).trans ?_⟩
  decide +kernel

end ExplicitInstantiation
