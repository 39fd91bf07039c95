import Mathlib.Algebra.GroupWithZero.Nat
import ExplicitInstantiation.TemplateClass.Declared

/-!
# Parameters without a default

A parameter of a template has a default if an equals sign stands in it outside all brackets
(`TemplateHead.hasDefault`). The count that a template head carries, and that the class it
introduces is declared with (`exists_head_of_mem_declaredClasses`), is taken in another way: every
equals sign of the parameter list counts as a default, wherever it stands.

The equals signs of a list are those of its parameters (`sum_count_partsFrom`), and a parameter with
a default has at least one. So the count is never too large, and it is right in two cases only: no
parameter has an equals sign beyond the one that introduces its default, or every parameter has a
default (`required_eq_withoutDefault_iff`). Everywhere else it is too small
(`required_lt_withoutDefault_samples`), and sites that pass too few arguments are let through.
-/

namespace ExplicitInstantiation

namespace TemplateHead

/-! ### Parameters and their defaults -/

/-- Whether an equals sign stands outside all brackets, when the text starts at `depth`. -/
def assignsFrom (depth : Nat) : Text → Bool
  | [] => false
  | c :: rest => (c == '=' && depth == 0) || assignsFrom (depthAfter depth c) rest

/-- Whether a parameter has a default. -/
def hasDefault (parameter : Text) : Bool :=
  assignsFrom 0 parameter

/-- The parameters of a list; a blank list has none. -/
def parameters (list : Text) : List Text :=
  if list.allBlank then [] else topLevelParts list

/-- The number of parameters without a default. -/
def withoutDefault (list : Text) : Nat :=
  (parameters list).countP fun parameter => !hasDefault parameter

/-- Whether the only equals sign of a parameter is the one that introduces its default. -/
def isPlain (parameter : Text) : Bool :=
  parameter.count '=' == (hasDefault parameter).toNat

/-! ### Counting equals signs -/

/-- A character in front of the first part is counted there. -/
theorem sum_count_modifyHead (c d : Char) {parts : List Text} (h : parts ≠ []) :
    ((parts.modifyHead (d :: ·)).map (List.count c)).sum =
      (parts.map (List.count c)).sum + if d = c then 1 else 0 := by
  obtain ⟨part, parts, rfl⟩ := List.exists_cons_of_ne_nil h
  simp only [List.modifyHead_cons, List.map_cons, List.sum_cons, List.count_cons, beq_iff_eq]
  omega

/-- What is counted in a text, commas apart, is counted in its parts. -/
theorem sum_count_partsFrom {c : Char} (hc : c ≠ ',') (depth : Nat) (t : Text) :
    ((partsFrom depth t).map (List.count c)).sum = t.count c := by
  induction t generalizing depth with
  | nil => rfl
  | cons d rest ih =>
    rw [partsFrom]
    split
    next hcut =>
      have hd : d ≠ c := fun heq => hc (heq.symm.trans hcut.1)
      rw [List.map_cons, List.sum_cons, ih, List.count_nil, Nat.zero_add, List.count_cons_of_ne hd]
    next =>
      rw [sum_count_modifyHead c d (partsFrom_ne_nil _ rest), ih, List.count_cons]
      simp

/-- Where a default is given, there is an equals sign. -/
theorem count_pos_of_assignsFrom {depth : Nat} {t : Text} (h : assignsFrom depth t = true) :
    0 < t.count '=' := by
  induction t generalizing depth with
  | nil => cases h
  | cons c rest ih =>
    rw [assignsFrom, Bool.or_eq_true, Bool.and_eq_true, beq_iff_eq] at h
    rcases h with ⟨rfl, -⟩ | h
    · simp
    · exact Nat.lt_of_lt_of_le (ih h) List.count_le_count_cons

/-- A parameter has as many equals signs as it has defaults, or more. -/
theorem toNat_hasDefault_le (parameter : Text) :
    (hasDefault parameter).toNat ≤ parameter.count '=' := by
  rcases h : hasDefault parameter with _ | _
  · exact Nat.zero_le _
  · exact count_pos_of_assignsFrom h

/-- Of several parameters, no more have a default than there are equals signs, and just as many if
all of them are plain. -/
theorem countP_hasDefault (parts : List Text) :
    parts.countP hasDefault ≤ (parts.map (List.count '=')).sum ∧
      (parts.countP hasDefault = (parts.map (List.count '=')).sum ↔
        ∀ part ∈ parts, isPlain part = true) := by
  induction parts with
  | nil => simp
  | cons part parts ih =>
    obtain ⟨hle, hiff⟩ := ih
    have hpart := toNat_hasDefault_le part
    have hcount : (part :: parts).countP hasDefault =
        parts.countP hasDefault + (hasDefault part).toNat := by
      rw [List.countP_cons]
      rcases hasDefault part <;> rfl
    rw [hcount, List.map_cons, List.sum_cons, List.forall_mem_cons, ← hiff, isPlain, beq_iff_eq]
    omega

/-! ### The count of a parameter list -/

/-- The parameters hold the equals signs of the list. -/
theorem sum_count_parameters {list : Text} (h : list.allBlank = false) :
    ((parameters list).map (List.count '=')).sum = list.count '=' := by
  rw [parameters, h]
  exact sum_count_partsFrom (by decide) 0 list

/-- The count is the number of parameters less the number of equals signs. -/
theorem requiredCount_eq (list : Text) :
    requiredCount list =
      (parameters list).length - ((parameters list).map (List.count '=')).sum := by
  rcases hblank : list.allBlank with _ | _
  · have hpos : 0 < (topLevelParts list).length := List.length_pos_iff.mpr (partsFrom_ne_nil 0 list)
    rw [sum_count_parameters hblank, requiredCount, hblank, parameters, hblank, topLevelCommas]
    simp only [Bool.false_eq_true, if_false]
    omega
  · simp [requiredCount, parameters, hblank]

/-- The parameters without a default are those that are left when the others are taken away. -/
theorem withoutDefault_eq (list : Text) :
    withoutDefault list = (parameters list).length - (parameters list).countP hasDefault := by
  have hsplit := List.length_eq_countP_add_countP hasDefault (l := parameters list)
  simp only [Bool.not_eq_true, Bool.decide_eq_false] at hsplit
  rw [withoutDefault]
  omega

/-- The count of a list is never larger than its number of parameters without a default. -/
theorem requiredCount_le_withoutDefault (list : Text) :
    requiredCount list ≤ withoutDefault list := by
  rw [requiredCount_eq, withoutDefault_eq]
  exact Nat.sub_le_sub_left (countP_hasDefault _).1 _

/-- When the count of a list is its number of parameters without a default. -/
theorem requiredCount_eq_withoutDefault_iff (list : Text) :
    requiredCount list = withoutDefault list ↔
      (∀ parameter ∈ parameters list, isPlain parameter = true) ∨
        ∀ parameter ∈ parameters list, hasDefault parameter = true := by
  obtain ⟨hle, hplain⟩ := countP_hasDefault (parameters list)
  have hlength := List.countP_le_length (p := hasDefault) (l := parameters list)
  rw [requiredCount_eq, withoutDefault_eq, ← hplain, ← List.countP_eq_length]
  omega

/-! ### Template heads -/

/-- Whether a line has a template head whose parameter list starts with `inner`, which is the rest
of the line. -/
def OpensList (line inner : Text) : Prop :=
  (line.afterWord? "template".toList).map Text.trimStart = some ('<' :: inner)

instance (line inner : Text) : Decidable (OpensList line inner) :=
  inferInstanceAs (Decidable (_ = _))

/-- The head of a line requires as many arguments as its parameter list counts. -/
theorem ofLine?_of_opensList {line inner list rest : Text} (hopens : OpensList line inner)
    (hcloses : cutAtClosingAngle inner = some (list, rest)) :
    ofLine? line = some ⟨requiredCount list, rest⟩ := by
  rw [ofLine?, hopens]
  simp only [hcloses]

end TemplateHead

namespace HeaderReading

/-- Whether all the counts of a reading, that of a pending head included, satisfy `P`. -/
structure Counts (P : Nat → Prop) (reading : HeaderReading) : Prop where
  /-- The count of a pending head. -/
  pending : ∀ required ∈ reading.pending, P required
  /-- The counts of the classes. -/
  classes : ∀ c ∈ reading.classes, P c.required

variable {P : Nat → Prop} {reading : HeaderReading}

/-- To declare a class with a permitted number keeps the numbers permitted. -/
theorem Counts.declare (h : reading.Counts P) {name : Text} {required : Nat}
    (hrequired : P required) :
    (reading.declare name required).Counts P := by
  rw [HeaderReading.declare]
  split
  · exact h
  · refine ⟨h.pending, fun c hc => ?_⟩
    rcases List.mem_append.mp hc with hc | hc
    · exact h.classes c hc
    · rw [List.mem_singleton.mp hc]
      exact hrequired

/-- To settle the head that waits keeps the numbers permitted. -/
theorem Counts.settle (h : reading.Counts P) (line : Text) : (reading.settle line).Counts P := by
  have hfree : Counts P { reading with pending := none } := ⟨by simp, h.classes⟩
  rw [settle.eq_def]
  split
  next required _ hpending _ => exact hfree.declare (h.pending required hpending)
  next => exact hfree

/-- A line brings in no other count than that of the template head on it. -/
theorem Counts.step (h : reading.Counts P) {line : Text}
    (hline : ∀ head, TemplateHead.ofLine? line = some head → P head.required) :
    (reading.step line).Counts P := by
  have hsettled := h.settle line
  rw [HeaderReading.step, introduce.eq_def]
  split
  · exact hsettled
  next head hhead =>
    split
    · exact hsettled.declare (hline head hhead)
    · refine ⟨?_, hsettled.classes⟩
      rintro required ⟨⟩
      exact hline head hhead

/-- Lines whose heads have permitted numbers keep the numbers permitted. -/
theorem Counts.foldl {lines : List CodeLine} (h : reading.Counts P)
    (hlines : ∀ line ∈ lines, ∀ head, TemplateHead.ofLine? line.code = some head →
      P head.required) :
    (lines.foldl (fun reading line => reading.step line.code) reading).Counts P := by
  induction lines generalizing reading with
  | nil => exact h
  | cons line lines ih =>
    rw [List.forall_mem_cons] at hlines
    exact ih (h.step hlines.1) hlines.2

end HeaderReading

/-- A class is declared with the count of a template head of the header. -/
theorem exists_head_of_mem_declaredClasses {header : Text} {c : TemplateClass}
    (hc : c ∈ declaredClasses header) :
    ∃ line ∈ codeLines header, ∃ head, TemplateHead.ofLine? line.code = some head ∧
      c.required = head.required := by
  have hempty : HeaderReading.empty.Counts fun required => ∃ line ∈ codeLines header,
      ∃ head, TemplateHead.ofLine? line.code = some head ∧ required = head.required :=
    ⟨by simp [HeaderReading.empty], by simp [HeaderReading.empty]⟩
  exact (hempty.foldl fun line hline head hhead => ⟨line, hline, head, hhead, rfl⟩).classes c hc

namespace TemplateHead

/-- **The count of required parameters.** The template head on a line whose parameter list is closed
there requires at most as many parameters as have no default. It requires just as many exactly when
every equals sign introduces a default or when every parameter has one. And the classes of a header
are declared with the counts of its template heads. -/
theorem required_eq_withoutDefault_iff {line inner list rest : Text} (hopens : OpensList line inner)
    (hcloses : cutAtClosingAngle inner = some (list, rest)) :
    (∃ head, ofLine? line = some head ∧ head.rest = rest ∧
      head.required ≤ withoutDefault list ∧
      (head.required = withoutDefault list ↔
        (∀ parameter ∈ parameters list, isPlain parameter = true) ∨
          ∀ parameter ∈ parameters list, hasDefault parameter = true)) ∧
    ∀ header, ∀ c ∈ declaredClasses header, ∃ line ∈ codeLines header, ∃ head,
      ofLine? line.code = some head ∧ c.required = head.required := by
  constructor
  · exact ⟨_, ofLine?_of_opensList hopens hcloses, rfl, requiredCount_le_withoutDefault list,
      requiredCount_eq_withoutDefault_iff list⟩
  · intro header c hc
    exact exists_head_of_mem_declaredClasses hc

/-- A header that declares one class with the given parameters. -/
def gridHeader (list : Text) : Text :=
  "template<".toList ++ list ++ "> class Grid;".toList

/-- A nested parameter list without defaults, and a parameter with a plain one. -/
theorem required_sample :
    ∃ head, ofLine? (gridHeader "template<class, int> class C, int N = 4".toList) = some head ∧
      head.required = 1 := by
  have hopens : OpensList (gridHeader "template<class, int> class C, int N = 4".toList)
      "template<class, int> class C, int N = 4> class Grid;".toList := by decide +kernel
  have hcloses : cutAtClosingAngle "template<class, int> class C, int N = 4> class Grid;".toList =
      some ("template<class, int> class C, int N = 4".toList, " class Grid;".toList) := by
    decide +kernel
  obtain ⟨⟨head, hhead, -, -, hiff⟩, -⟩ := required_eq_withoutDefault_iff hopens hcloses
  exact ⟨head, hhead, (hiff.mpr (.inl (by decide +kernel))).trans (by decide +kernel)⟩

/-- A comparison in a default and a default in a nested parameter list are counted too: one
parameter has no default and none is required, or two have none and one is required. -/
theorem required_lt_withoutDefault_samples :
    (withoutDefault "int N, bool B = (N == 2)".toList = 1 ∧
      declaredClasses (gridHeader "int N, bool B = (N == 2)".toList) = [⟨"Grid".toList, 0⟩]) ∧
    (withoutDefault "template<class T = int> class C, int N".toList = 2 ∧
      declaredClasses (gridHeader "template<class T = int> class C, int N".toList) =
        [⟨"Grid".toList, 1⟩]) := by
  decide +kernel

end TemplateHead

end ExplicitInstantiation
