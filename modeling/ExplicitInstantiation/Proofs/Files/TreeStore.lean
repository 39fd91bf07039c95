import ExplicitInstantiation.Proofs.Files.Store
import ExplicitInstantiation.Proofs.Files.Tree

/-!
# A tree of files as a store

Two paths with different components may lead to one place of a tree, where one of them goes up by
`..` or one is absolute and the other one is not. So a tree is not a map from paths to texts. It
behaves like one under paths that are plain seen from one root (`Path.PlainUnder`): they consist of
names behind the root, and different names lead to different places (`eq_of_locate`).

To replace a file that can be read keeps the shape of the tree (`SameShape`): directories stay
directories, and where something stood something stands. All that is asked of a tree on the way to
another file depends on its shape only, so the other file is read, and can be replaced, as before.
-/

namespace ExplicitInstantiation

/-! ### Plain paths -/

namespace Path

/-- Whether every piece of a path is a name. -/
def IsPlain (path : Path) : Prop :=
  ∀ piece ∈ path.text.splitOn '/', ¬ (piece = [] ∨ piece = ['.'] ∨ piece = ['.', '.'])

instance (path : Path) : Decidable path.IsPlain :=
  inferInstanceAs (Decidable (∀ piece ∈ path.text.splitOn '/', _))

/-- Whether a path is a plain one seen from a root. -/
def PlainUnder (root path : Path) : Prop :=
  ∃ plain : Path, plain.IsPlain ∧ path = root.under plain

/-- A plain path does not start at the root of the file system. -/
theorem IsPlain.isAbsolute_eq {path : Path} (h : path.IsPlain) : path.isAbsolute = false := by
  rw [← Bool.not_eq_true]
  intro habsolute
  obtain ⟨rest, htext⟩ : ∃ rest, path.text = [] ++ '/' :: rest := by
    rcases htext : path.text with _ | ⟨c, rest⟩
    · simp [isAbsolute, htext] at habsolute
    · have hc : c = '/' := by simpa [isAbsolute, htext] using habsolute
      exact ⟨rest, by rw [hc]; rfl⟩
  refine h [] ?_ (.inl rfl)
  rw [htext, List.splitOn_append_cons_self]
  exact List.mem_append_left _ (List.mem_singleton_self _)

/-- The steps of a plain path are its names. -/
theorem IsPlain.steps_eq {path : Path} (h : path.IsPlain) :
    path.steps = (path.text.splitOn '/').map Component.name := by
  rw [steps, ← List.filterMap_eq_map]
  refine List.filterMap_congr fun piece hpiece => ?_
  obtain ⟨hempty, hdot, hdots⟩ : piece ≠ [] ∧ piece ≠ ['.'] ∧ piece ≠ ['.', '.'] := by
    simpa using h piece hpiece
  simp [Component.ofPiece?, hempty, hdot, hdots]

/-- Plain paths with the same steps are the same. -/
theorem IsPlain.eq_of_steps_eq {path other : Path} (h : path.IsPlain) (hother : other.IsPlain)
    (hsteps : path.steps = other.steps) : path = other := by
  rw [h.steps_eq, hother.steps_eq,
    List.map_inj_right fun _ _ heq => Component.name.inj heq] at hsteps
  have hjoined := congrArg (List.intercalate ['/']) hsteps
  rw [List.intercalate_splitOn, List.intercalate_splitOn] at hjoined
  obtain ⟨text⟩ := path
  obtain ⟨text'⟩ := other
  rw [show text = text' from hjoined]

/-- Behind a root a relative path has the steps of both. -/
theorem steps_under (root : Path) {path : Path} (hpath : path.isAbsolute = false) :
    (root.under path).steps = root.steps ++ path.steps := by
  rcases hroot : root.isEmpty with _ | _
  · rw [← filter_isStep_components, components_under hroot hpath, List.filter_append,
      filter_isStep_components, List.filter_eq_self.mpr fun _ => isStep_of_mem_steps]
  · rw [eq_nil_of_isEmpty hroot, under_nil]
    rfl

/-- Paths that are plain seen from one root and have the same components are the same. -/
theorem eq_of_components_eq {root path other : Path} (hpath : root.PlainUnder path)
    (hother : root.PlainUnder other) (h : path.components = other.components) : path = other := by
  obtain ⟨plain, hplain, rfl⟩ := hpath
  obtain ⟨plain', hplain', rfl⟩ := hother
  have hsteps := (components_eq_iff.mp h).2
  rw [steps_under root hplain.isAbsolute_eq, steps_under root hplain'.isAbsolute_eq] at hsteps
  rw [hplain.eq_of_steps_eq hplain' (List.append_cancel_left hsteps)]

/-- Behind one root relative paths start at the same place. -/
theorem isAbsolute_under (root : Path) {path other : Path} (hpath : path.isAbsolute = false)
    (hother : other.isAbsolute = false) :
    (root.under path).isAbsolute = (root.under other).isAbsolute := by
  have hroot (path : Path) (hpath : path.isAbsolute = false) :
      (root.under path).isAbsolute = root.isAbsolute := by
    rcases hempty : root.isEmpty with _ | _
    · rw [Bool.eq_iff_iff, ← root_mem_components_iff, ← root_mem_components_iff,
        components_under hempty hpath, List.mem_append, or_iff_left]
      exact fun hmem => nomatch isStep_of_mem_steps hmem
    · rw [eq_nil_of_isEmpty hempty, under_nil, hpath]
      rfl
  rw [hroot path hpath, hroot other hother]

end Path

namespace FileTree

variable {tree other : FileTree} {place : Place}

/-! ### The place of a path -/

/-- Where a component leads to from a place, if it leads anywhere. -/
def nextPlace (place : Place) : Path.Component → Place
  | .name text => place ++ [text]
  | .up => place.dropLast
  | .root | .here => place

/-- A piece that can be followed leads where its component does. -/
theorem follow_eq_ok {next : Place} {piece : Text} (h : tree.follow place piece = .ok next) :
    next = (Path.Component.ofPiece? piece).toList.foldl nextPlace place := by
  unfold follow at h
  rw [then_eq_ok] at h
  replace h := h.2
  unfold Path.Component.ofPiece?
  split at h
  next hidle =>
    cases h
    rw [if_pos hidle]
    rfl
  next hidle =>
    rw [if_neg hidle]
    split at h
    next hup =>
      cases h
      rw [if_pos hup]
      rfl
    next hup =>
      rw [then_eq_ok] at h
      cases h.2
      rw [if_neg hup]
      rfl

/-- Pieces that can be followed lead where their components do, one after the other. -/
theorem foldlM_follow_eq_ok {pieces : List Text} {start : Place}
    (h : pieces.foldlM tree.follow start = .ok place) :
    place = (pieces.filterMap Path.Component.ofPiece?).foldl nextPlace start := by
  induction pieces generalizing start with
  | nil =>
    cases h
    rfl
  | cons piece pieces ih =>
    rw [List.foldlM_cons, bind_eq_ok] at h
    obtain ⟨next, hnext, hrest⟩ := h
    rw [ih hrest, follow_eq_ok hnext, List.filterMap_cons]
    cases Path.Component.ofPiece? piece <;> rfl

/-- **The place of a path** is found by its steps. The rest of the tree has a say only in whether
the path can be followed. -/
theorem locate_eq_ok {path : Path} (h : tree.locate path = .ok place) :
    place = path.steps.foldl nextPlace (tree.start path) := by
  unfold locate at h
  rw [then_eq_ok, then_eq_ok] at h
  exact foldlM_follow_eq_ok h.2.2

/-- Names lead to the place behind which they are put. -/
theorem foldl_nextPlace_name (names : List Text) (start : Place) :
    (names.map Path.Component.name).foldl nextPlace start = start ++ names := by
  induction names generalizing start with
  | nil => simp
  | cons name names ih => simp [nextPlace, ih]

/-- Paths that are plain seen from one root and lead to one place are the same. -/
theorem eq_of_locate {root path path' : Path} (hpath : root.PlainUnder path)
    (hpath' : root.PlainUnder path') (hlocate : tree.locate path = .ok place)
    (hlocate' : tree.locate path' = .ok place) : path = path' := by
  obtain ⟨plain, hplain, rfl⟩ := hpath
  obtain ⟨plain', hplain', rfl⟩ := hpath'
  have hstart : tree.start (root.under plain) = tree.start (root.under plain') := by
    rw [start, start, Path.isAbsolute_under root hplain.isAbsolute_eq hplain'.isAbsolute_eq]
  have hsame := (locate_eq_ok hlocate).symm.trans (locate_eq_ok hlocate')
  rw [Path.steps_under root hplain.isAbsolute_eq, Path.steps_under root hplain'.isAbsolute_eq,
    List.foldl_append, List.foldl_append, hstart, hplain.steps_eq, hplain'.steps_eq,
    foldl_nextPlace_name, foldl_nextPlace_name] at hsame
  have hsteps : plain.steps = plain'.steps := by
    rw [hplain.steps_eq, hplain'.steps_eq, List.append_cancel_left hsame]
  rw [hplain.eq_of_steps_eq hplain' hsteps]

/-! ### Trees of one shape -/

/-- Whether a directory stands at a place, if anything does. -/
def directory? (tree : FileTree) (place : Place) : Option Bool :=
  (tree.entry? place).map (· == .directory)

/-- A directory stands at a place when it is found there. -/
theorem directory?_eq_some_true_iff :
    tree.directory? place = some true ↔ tree.entry? place = some .directory := by
  unfold directory?
  rcases tree.entry? place with _ | entry <;> simp

/-- Two trees that differ in their files at most: the same directories are there, and files stand at
the same places. -/
structure SameShape (tree other : FileTree) : Prop where
  /-- Relative paths start at the same place. -/
  workingDirectory_eq : tree.workingDirectory = other.workingDirectory
  /-- Directories stand at the same places, and files do. -/
  directory?_eq : ∀ place, tree.directory? place = other.directory? place

/-- A file that is put in place of a file leaves the shape as it is. -/
theorem sameShape_put {permissions permissions' : Permissions} {content content' : Content}
    (h : tree.entry? place = some (.file permissions content)) :
    SameShape tree (tree.put place (.file permissions' content')) := by
  refine ⟨rfl, fun elsewhere => ?_⟩
  by_cases heq : elsewhere = place
  · have hne : place ≠ [] := ne_nil_of_entry?_ne (by rw [h]; simp)
    rw [heq, directory?, directory?, h, entry?_put_self tree hne]
    rfl
  · rw [directory?, directory?, entry?_put_of_ne tree heq]

namespace SameShape

/-- Files that are put at one place of two trees of one shape leave them of one shape. -/
theorem put (h : SameShape tree other) (place : Place)
    {permissions permissions' : Permissions} {content content' : Content} :
    SameShape (tree.put place (.file permissions content))
      (other.put place (.file permissions' content')) := by
  refine ⟨h.workingDirectory_eq, fun elsewhere => ?_⟩
  by_cases hroot : elsewhere = []
  · rw [hroot]
    rfl
  by_cases heq : elsewhere = place
  · subst heq
    rw [directory?, directory?, entry?_put_self tree hroot, entry?_put_self other hroot]
    rfl
  · have hshape := h.directory?_eq elsewhere
    rwa [directory?, directory?, ← entry?_put_of_ne tree heq, ← entry?_put_of_ne other heq]
      at hshape

/-- The same directories are there. -/
theorem directory_iff (h : SameShape tree other) (place : Place) :
    tree.entry? place = some .directory ↔ other.entry? place = some .directory := by
  rw [← directory?_eq_some_true_iff, h.directory?_eq, directory?_eq_some_true_iff]

/-- Something stands at the same places. -/
theorem isSome_eq (h : SameShape tree other) (place : Place) :
    (tree.entry? place).isSome = (other.entry? place).isSome := by
  have hshape := congrArg Option.isSome (h.directory?_eq place)
  rwa [directory?, directory?, Option.isSome_map, Option.isSome_map] at hshape

/-- The same directories are there, and for the rest the faults are the same. -/
theorem requireDirectory_eq (h : SameShape tree other) (place : Place) :
    tree.requireDirectory place = other.requireDirectory place := by
  have hshape := h.directory?_eq place
  unfold directory? at hshape
  unfold requireDirectory
  generalize tree.entry? place = entry? at hshape ⊢
  generalize other.entry? place = entry?' at hshape ⊢
  rcases entry? with _ | entry <;> rcases entry?' with _ | entry'
  · rfl
  · cases hshape
  · cases hshape
  · cases entry <;> cases entry' <;> simp at hshape ⊢

/-- A path starts at the same place. -/
theorem start_eq (h : SameShape tree other) (path : Path) : tree.start path = other.start path := by
  rw [start, start, h.workingDirectory_eq]

/-- A piece of a path leads to the same place, or to the same fault. -/
theorem follow_eq (h : SameShape tree other) : tree.follow = other.follow := by
  funext place piece
  unfold follow
  rw [h.requireDirectory_eq place]

/-- A path leads to the same place, or to the same fault. -/
theorem locate_eq (h : SameShape tree other) (path : Path) :
    tree.locate path = other.locate path := by
  unfold locate
  rw [h.follow_eq, h.start_eq]

/-- A file can be renamed to the same place, or the same is at fault. -/
theorem renameTarget_eq (h : SameShape tree other) (path : Path) :
    tree.renameTarget path = other.renameTarget path := by
  unfold renameTarget
  simp only [h.follow_eq, h.start_eq, h.requireDirectory_eq, refuse, h.directory_iff]

/-- The temporary file is made in the same directory, or the same is at fault. -/
theorem temporaryDirectory_eq (h : SameShape tree other) (path : Path) :
    tree.temporaryDirectory path = other.temporaryDirectory path := by
  unfold temporaryDirectory currentDirectory workingPath
  simp only [h.workingDirectory_eq, h.directory_iff]

/-- The temporary file is made at the same place, or the same is at fault. -/
theorem createTemporary_eq (h : SameShape tree other) (directory : Path)
    (refusal : Option FileFault) (names : List Text) :
    (tree.createTemporary directory refusal names).map Prod.snd =
      (other.createTemporary directory refusal names).map Prod.snd := by
  induction names with
  | nil => rfl
  | cons name names ih =>
    have hpath : tree.temporaryPath directory name = other.temporaryPath directory name := by
      rw [temporaryPath, temporaryPath, workingPath, workingPath, h.workingDirectory_eq]
    rw [createTemporary, createTemporary, hpath, h.locate_eq]
    rcases other.locate (other.temporaryPath directory name) with fault | place
    · rfl
    · simp only [bind, Except.bind, h.isSome_eq]
      split
      · exact ih
      · cases refusal <;> rfl

/-- A write is answered in the same way. -/
theorem answer_write_eq (h : SameShape tree other) (circumstances : Circumstances) (path : Path)
    (content : Text) :
    (tree.write circumstances path content).2 = (other.write circumstances path content).2 := by
  have hdirectory := h.temporaryDirectory_eq path
  rcases hother : other.temporaryDirectory path with fault | directory
  · simp only [write, hdirectory, hother]
  rw [hother] at hdirectory
  have hcreate := h.createTemporary_eq directory circumstances.creationFault circumstances.names
  rcases hothers : other.createTemporary directory circumstances.creationFault circumstances.names
    with fault | ⟨opened, place⟩
  · rw [hothers] at hcreate
    have hcreate' := map_eq_error_iff.mp hcreate
    simp only [write, hdirectory, hother, hcreate', hothers]
  · rw [hothers] at hcreate
    obtain ⟨⟨opened', place'⟩, hcreate', hplace⟩ := map_eq_ok.mp hcreate
    cases hplace
    rw [write_of_temporary hdirectory hcreate', write_of_temporary hother hothers]
    have hrename : (tree.put place (tree.newFile circumstances path content)).renameTarget path =
        (other.put place (other.newFile circumstances path content)).renameTarget path :=
      (h.put place).renameTarget_eq path
    rcases circumstances.interruption with _ | ⟨written, fault⟩
    · rw [hrename]
      rcases (other.put place (other.newFile circumstances path content)).renameTarget path with
        fault | target
      · rfl
      · cases circumstances.renameFault <;> rfl
    · rfl

end SameShape

/-! ### Files that can be read -/

/-- To replace a file that can be read puts a file with its permissions in its place. -/
theorem exists_put_of_replace {changed : FileTree} {path : Path} {existing content : Text}
    (hread : tree.read path = .ok existing)
    (hreplace : tree.replace path content = .ok changed) :
    ∃ place permissions, tree.locate path = .ok place ∧
      tree.entry? place = some (.file permissions (.text existing)) ∧
      tree.mayRead permissions = true ∧
      changed = tree.put place (.file permissions (.text content)) := by
  obtain ⟨place, permissions, hlocate, hentry, hmay⟩ := read_eq_ok_iff.mp hread
  refine ⟨place, permissions, hlocate, hentry, hmay, ?_⟩
  rcases write_cases tree tree.circumstances path content with
    ⟨fault, hwrite⟩ | ⟨-, target, -, -, -, htarget, hwrite⟩
  · rw [replace, hwrite] at hreplace
    cases hreplace
  · rw [replace, hwrite] at hreplace
    cases hreplace
    obtain ⟨-, htarget, -⟩ := renameTarget_eq_ok_iff.mp htarget
    rw [hlocate] at htarget
    cases htarget
    have hpermissions : tree.permissions? path = some permissions := by
      rw [permissions?_of_locate hlocate, hentry]
      rfl
    rw [newFile, keptPermissions_of_some hpermissions]
    rfl

/-- What is read at a place depends on what stands there. -/
theorem read_congr {path : Path} (hsuperuser : tree.superuser = other.superuser)
    (hlocate : tree.locate path = other.locate path)
    (hentry : ∀ place, other.locate path = .ok place → tree.entry? place = other.entry? place) :
    tree.read path = other.read path := by
  unfold read
  rw [hlocate]
  rcases hplace : other.locate path with fault | place
  · rfl
  · simp only [bind, Except.bind, hentry place hplace, mayRead, hsuperuser]
    rfl

/-- What the store answers is what the write answers. -/
theorem answer_eq (tree : FileTree) (path : Path) (content : Text) :
    Store.answer tree path content = (tree.write tree.circumstances path content).2 := by
  have hreplace : Store.replace tree path content = tree.replace path content := rfl
  rw [Store.answer, hreplace, replace]
  rcases tree.write tree.circumstances path content with ⟨changed, fault | ⟨⟩⟩ <;> rfl

/-- Where something stands, another entry takes its place in the list. -/
theorem length_entries_put (h : (tree.entry? place).isSome) (hne : place ≠ []) (entry : Entry) :
    (tree.put place entry).entries.length = tree.entries.length := by
  have hlength (entries : List (Place × Entry)) (hfound : (entries.find? (·.1 == place)).isSome) :
      (putIn place entry entries).length = entries.length := by
    induction entries with
    | nil => cases hfound
    | cons first rest ih =>
      rw [putIn]
      split
      next => rfl
      next hdiffers =>
        rw [List.find?_cons_of_neg (by simpa using hdiffers)] at hfound
        rw [List.length_cons, List.length_cons, ih hfound]
  rw [entry?_eq_find? tree hne, Option.isSome_map] at h
  exact hlength tree.entries h

/-- Under paths that are plain seen from one root a tree behaves like a map from paths to texts. -/
instance (root : Path) : IndependentStore FileTree root.PlainUnder where
  read_replace_of_eq := by
    intro tree changed path other existing content hpath hother hread hreplace hsame
    obtain ⟨place, permissions, hlocate, hentry, hmay, rfl⟩ := exists_put_of_replace hread hreplace
    rw [← Path.eq_of_components_eq hpath hother hsame]
    have hne : place ≠ [] := ne_nil_of_entry?_ne (by rw [hentry]; simp)
    exact read_eq_ok_iff.mpr ⟨place, permissions,
      ((sameShape_put hentry).locate_eq path).symm.trans hlocate, entry?_put_self tree hne _, hmay⟩
  read_replace_of_ne := by
    intro tree changed path other existing content hpath hother hread hreplace hdiffers
    obtain ⟨place, permissions, hlocate, hentry, hmay, rfl⟩ := exists_put_of_replace hread hreplace
    refine read_congr rfl ((sameShape_put hentry).locate_eq other).symm ?_
    intro elsewhere helsewhere
    refine entry?_put_of_ne tree ?_ _
    rintro rfl
    exact hdiffers (congrArg Path.components (eq_of_locate hpath hother hlocate helsewhere))
  answer_replace_of_ne := by
    intro tree changed path other existing content hpath hother hread hreplace hdiffers text
    obtain ⟨place, permissions, hlocate, hentry, hmay, rfl⟩ := exists_put_of_replace hread hreplace
    have hne : place ≠ [] := ne_nil_of_entry?_ne (by rw [hentry]; simp)
    have hcircumstances : circumstances (tree.put place (.file permissions (.text content))) =
        tree.circumstances := by
      rw [circumstances, circumstances, length_entries_put (by rw [hentry]; rfl) hne]
    rw [answer_eq, answer_eq, hcircumstances]
    exact ((sameShape_put hentry).answer_write_eq tree.circumstances other text).symm

end FileTree

end ExplicitInstantiation
