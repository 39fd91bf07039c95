import ExplicitInstantiation.Proofs.TemplateClass
import ExplicitInstantiation.Proofs.TemplateClass.Declaration

/-!
# The names of declared classes

A line names a class behind its first word `class` or else behind its first word `struct`, and the
name goes on to the first character that ends one (`leadingName`). Such a place counts in two cases:
behind a template head on the line, or on a line whose predecessor leaves a template head open
(`nameStarts`). A header declares just the names at these places (`mem_names_declaredClasses_iff`).

So the names are different from each other, they are not empty, and none of them holds a character
that ends a name. They are identifiers exactly if, at each of the places, something that ends a name
follows the identifier characters (`names_declaredClasses`). It does not where the place is in the
parameter list of a second template head, that of a member template whose head stands below that of
its class (`declaredClasses_member_template`).
-/

namespace ExplicitInstantiation

/-! ### Where a name stands -/

/-- The text from the name on, behind the first word `keyword`. -/
def nameStart? (keyword line : Text) : Option Text :=
  match line.afterWord? keyword with
  | some (c :: rest) =>
    if isBlank c ∧ leadingName (Text.trimStart rest) ≠ [] then some (Text.trimStart rest) else none
  | _ => none

/-- The text from the name of the class on, of a line that names one. -/
def classStart? (line : Text) : Option Text :=
  (nameStart? "class".toList line).or (nameStart? "struct".toList line)

/-- The name behind a keyword is the one at the place where it starts. -/
theorem nameAfter?_eq_map (keyword line : Text) :
    nameAfter? keyword line = (nameStart? keyword line).map leadingName := by
  rw [nameAfter?, nameStart?]
  rcases line.afterWord? keyword with _ | (_ | ⟨c, rest⟩)
  · rfl
  · rfl
  · change (if isBlank c = true then
      if (leadingName (Text.trimStart rest)).isEmpty = true then none
      else some (leadingName (Text.trimStart rest))
      else none) = _
    by_cases hblank : isBlank c = true <;>
      by_cases hname : leadingName (Text.trimStart rest) = [] <;> simp [hblank, hname]

/-- The named class is the one at the place where its name starts. -/
theorem namedClass?_eq_map (line : Text) :
    namedClass? line = (classStart? line).map leadingName := by
  rw [namedClass?_eq, nameAfter?_eq_map, nameAfter?_eq_map, classStart?, Option.map_or]

/-- Where the name of a class starts, a name stands. -/
theorem leadingName_ne_nil_of_classStart? {line start : Text} (h : classStart? line = some start) :
    leadingName start ≠ [] := by
  have hstart {keyword : Text} (h : nameStart? keyword line = some start) :
      leadingName start ≠ [] := by
    unfold nameStart? at h
    split at h
    next =>
      split at h
      next hname =>
        cases h
        exact hname.2
      next => cases h
    next => cases h
  rcases Option.or_eq_some_iff.mp h with h | ⟨-, h⟩
  · exact hstart h
  · exact hstart h

/-- No character of a name ends it. -/
theorem endsClassName_of_mem_leadingName {start : Text} {c : Char} (h : c ∈ leadingName start) :
    endsClassName c = false := by
  have hall := List.all_eq_true.mp (List.all_takeWhile (p := fun c => !endsClassName c)) c h
  simpa using hall

/-- A name is an identifier exactly if what ends it is what follows the identifier characters. -/
theorem isIdentifier_leadingName_iff {start : Text} (h : leadingName start ≠ []) :
    (leadingName start).IsIdentifier ↔ EndsName (start.dropWhile isIdentifierChar) := by
  constructor
  · intro hname
    have hcut : start = leadingName start ++ start.dropWhile fun c => !endsClassName c :=
      List.takeWhile_append_dropWhile.symm
    have hends : EndsName (start.dropWhile fun c => !endsClassName c) := by
      intro c hc
      have hhead := List.head?_dropWhile_not (fun c => !endsClassName c) start
      rw [Option.mem_def.mp hc] at hhead
      simpa using hhead
    rw [hcut, (Text.span_isIdentifierChar hname.2 hends.head?_any).2]
    exact hends
  · intro hends
    have hword : ∀ c ∈ start.takeWhile isIdentifierChar, isIdentifierChar c = true :=
      List.all_eq_true.mp List.all_takeWhile
    have hname : leadingName start = start.takeWhile isIdentifierChar := by
      have hlead := leadingName_append hword hends
      rwa [List.takeWhile_append_dropWhile] at hlead
    exact ⟨h, hname ▸ hword⟩

/-! ### Where a header names a class -/

/-- Whether a line leaves a template head open: it has one, and no class is named behind it. -/
def leavesOpen (line : Text) : Bool :=
  (TemplateHead.ofLine? line).any fun head => (namedClass? head.rest).isNone

/-- The text from the name on, of the classes that a line names: one for a template head that the
line before leaves open, and one for the template head on the line itself. -/
def nameStarts (previous : Option Text) (line : Text) : List Text :=
  (if previous.any leavesOpen then (classStart? line).toList else []) ++
    ((TemplateHead.ofLine? line).bind fun head => classStart? head.rest).toList

namespace HeaderReading

/-- The names of the classes. -/
def names (reading : HeaderReading) : List Text :=
  reading.classes.map TemplateClass.name

/-- To declare a class adds its name and no other. -/
theorem mem_names_declare {reading : HeaderReading} {name : Text} {required : Nat} {other : Text} :
    other ∈ (reading.declare name required).names ↔ other ∈ reading.names ∨ other = name := by
  rw [declare]
  split
  next hknown =>
    have hmem : name ∈ reading.names := by simpa [names] using hknown
    rw [or_iff_left_of_imp]
    rintro rfl
    exact hmem
  next => simp [names]

/-- To declare a class leaves the head that waits as it is. -/
theorem pending_declare (reading : HeaderReading) (name : Text) (required : Nat) :
    (reading.declare name required).pending = reading.pending := by
  rw [declare]
  split <;> rfl

/-- No head waits when one has been settled. -/
theorem pending_settle (reading : HeaderReading) (line : Text) :
    (reading.settle line).pending = none := by
  rw [settle.eq_def]
  split
  · exact pending_declare _ _ _
  · rfl

/-- A line leaves a template head open in whatever state it is read. -/
theorem isSome_pending_step (reading : HeaderReading) (line : Text) :
    (reading.step line).pending.isSome = leavesOpen line := by
  have hsettle := reading.pending_settle line
  rw [step, introduce.eq_def, leavesOpen]
  split
  next hhead => rw [hhead, hsettle]; rfl
  next head hhead =>
    rw [hhead, Option.any_some]
    split
    next name hname => rw [pending_declare, hsettle, hname]; rfl
    next hname => rw [hname]; rfl

/-- To settle a line adds the name on it if a head waits for one. -/
theorem mem_names_settle {reading : HeaderReading} {line name : Text} :
    name ∈ (reading.settle line).names ↔
      name ∈ reading.names ∨ reading.pending.isSome = true ∧ namedClass? line = some name := by
  rw [settle.eq_def]
  split
  next required other hpending hother =>
    rw [mem_names_declare, hpending, hother]
    simp [names, eq_comm]
  next hnone =>
    rw [or_iff_left]
    · rfl
    · rintro ⟨hpending, hname⟩
      obtain ⟨required, hrequired⟩ := Option.isSome_iff_exists.mp hpending
      exact hnone required name hrequired hname

/-- To introduce a line adds the name behind its template head. -/
theorem mem_names_introduce {reading : HeaderReading} {line name : Text} :
    name ∈ (reading.introduce line).names ↔
      name ∈ reading.names ∨
        ∃ head, TemplateHead.ofLine? line = some head ∧ namedClass? head.rest = some name := by
  rw [introduce.eq_def]
  split
  next hhead => simp [hhead]
  next head hhead =>
    split
    next other hother => simp [mem_names_declare, hhead, hother, eq_comm]
    next hother => simp [hhead, hother, names]

/-- What a line adds to the names. -/
theorem mem_names_step {reading : HeaderReading} {previous : Option Text}
    (h : reading.pending.isSome = previous.any leavesOpen) {line name : Text} :
    name ∈ (reading.step line).names ↔
      name ∈ reading.names ∨ name ∈ (nameStarts previous line).map leadingName := by
  rw [step, mem_names_introduce, mem_names_settle, or_assoc, h, nameStarts]
  refine or_congr_right ?_
  simp only [namedClass?_eq_map, List.map_append, List.mem_append, List.mem_map,
    Option.map_eq_some_iff, Option.mem_toList, Option.bind_eq_some_iff]
  refine or_congr ?_ ?_
  · split <;> simp_all
  · constructor
    · rintro ⟨head, hhead, start, hstart, rfl⟩
      exact ⟨start, ⟨head, hhead, hstart⟩, rfl⟩
    · rintro ⟨start, ⟨head, hhead, hstart⟩, rfl⟩
      exact ⟨head, hhead, start, hstart, rfl⟩

/-- **Reading lines.** The names that are added stand where the lines name a class. -/
theorem mem_names_foldl {reading : HeaderReading} {previous : Option Text}
    (h : reading.pending.isSome = previous.any leavesOpen) {lines : List Text} {name : Text} :
    name ∈ (lines.foldl step reading).names ↔
      name ∈ reading.names ∨ ∃ before line after, lines = before ++ line :: after ∧
        name ∈ (nameStarts (before.getLast?.or previous) line).map leadingName := by
  induction lines generalizing reading previous with
  | nil => simp
  | cons line lines ih =>
    have hnext : (reading.step line).pending.isSome = (some line).any leavesOpen :=
      isSome_pending_step reading line
    have hlast (before : List Text) :
        (line :: before).getLast?.or previous = before.getLast?.or (some line) := by
      rw [List.getLast?_cons]
      cases before.getLast? <;> rfl
    rw [List.foldl_cons, ih hnext, mem_names_step h, or_assoc]
    refine or_congr_right ?_
    -- The first line is the one in question, or it stands before that one.
    constructor
    · rintro (hname | ⟨before, other, after, rfl, hname⟩)
      · exact ⟨[], line, lines, rfl, hname⟩
      · exact ⟨line :: before, other, after, rfl, by rwa [hlast]⟩
    · rintro ⟨before, other, after, hlines, hname⟩
      rcases before with _ | ⟨first, before⟩
      · obtain ⟨rfl, rfl⟩ := List.cons.inj hlines
        exact .inl hname
      · obtain ⟨rfl, rfl⟩ := List.cons.inj hlines
        rw [hlast] at hname
        exact .inr ⟨before, other, after, rfl, hname⟩

end HeaderReading

/-- The places at which a header names its classes, each as the text from the name on. -/
def NamedAt (header start : Text) : Prop :=
  ∃ before line after, codesOf header.lines = before ++ line :: after ∧
    start ∈ nameStarts before.getLast? line

/-- The declared names are those that stand where a declaration takes its name. -/
theorem mem_names_declaredClasses_iff {header name : Text} :
    name ∈ (declaredClasses header).map TemplateClass.name ↔
      ∃ start, NamedAt header start ∧ leadingName start = name := by
  have hfold := @HeaderReading.mem_names_foldl .empty none rfl (codesOf header.lines) name
  rw [declaredClasses_eq]
  refine hfold.trans ?_
  simp only [HeaderReading.empty, HeaderReading.names, List.map_nil, List.not_mem_nil, false_or,
    List.mem_map, Option.or_none, NamedAt]
  constructor
  · rintro ⟨before, line, after, hlines, start, hstart, hname⟩
    exact ⟨start, ⟨before, line, after, hlines, hstart⟩, hname⟩
  · rintro ⟨start, ⟨before, line, after, hlines, hstart⟩, hname⟩
    exact ⟨before, line, after, hlines, start, hstart, hname⟩

/-- A declaration takes no empty name. -/
theorem NamedAt.leadingName_ne_nil {header start : Text} (h : NamedAt header start) :
    leadingName start ≠ [] := by
  obtain ⟨before, line, after, -, hstart⟩ := h
  rcases List.mem_append.mp hstart with hstart | hstart
  · split at hstart
    · exact leadingName_ne_nil_of_classStart? (Option.mem_toList.mp hstart)
    · cases hstart
  · obtain ⟨head, -, hstart⟩ := Option.bind_eq_some_iff.mp (Option.mem_toList.mp hstart)
    exact leadingName_ne_nil_of_classStart? hstart

/-- **The names of the declared classes** are different, and they are those at the places where the
header names a class. Each is a text that is not empty and holds no character that ends a name. They
are identifiers exactly if, at all these places, what follows the identifier characters ends the
name. -/
theorem names_declaredClasses (header : Text) :
    ((declaredClasses header).map TemplateClass.name).Nodup ∧
      (∀ name, name ∈ (declaredClasses header).map TemplateClass.name ↔
        ∃ start, NamedAt header start ∧ leadingName start = name) ∧
      (∀ c ∈ declaredClasses header, c.name ≠ [] ∧ ∀ d ∈ c.name, endsClassName d = false) ∧
      ((∀ c ∈ declaredClasses header, c.name.IsIdentifier) ↔
        ∀ start, NamedAt header start → EndsName (start.dropWhile isIdentifierChar)) := by
  refine ⟨nodup_declaredClasses header, fun _ => mem_names_declaredClasses_iff, ?_, ?_⟩
  · intro c hc
    obtain ⟨start, hstart, hname⟩ :=
      mem_names_declaredClasses_iff.mp (List.mem_map_of_mem hc)
    rw [← hname]
    exact ⟨hstart.leadingName_ne_nil, fun d hd => endsClassName_of_mem_leadingName hd⟩
  · constructor
    · intro hall start hstart
      obtain ⟨c, hc, hname⟩ :=
        List.mem_map.mp (mem_names_declaredClasses_iff.mpr ⟨start, hstart, rfl⟩)
      rw [← isIdentifier_leadingName_iff hstart.leadingName_ne_nil, ← hname]
      exact hall c hc
    · intro hall c hc
      obtain ⟨start, hstart, hname⟩ :=
        mem_names_declaredClasses_iff.mp (List.mem_map_of_mem hc)
      rw [← hname, isIdentifier_leadingName_iff hstart.leadingName_ne_nil]
      exact hall start hstart

/-- The head of a member template below that of its class: the parameter that is introduced by
`class` there is recorded, with the bracket behind it. -/
theorem declaredClasses_member_template :
    declaredClasses
      "template<typename T>\ntemplate<class U>\nvoid Grid<T>::put(U value);\n".toList =
        [⟨"U>".toList, 1⟩] ∧ ¬ Text.IsIdentifier "U>".toList := by
  decide +kernel

end ExplicitInstantiation
