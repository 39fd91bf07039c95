import ExplicitInstantiation.Files.Tree
import ExplicitInstantiation.Proofs.Path
import ExplicitInstantiation.Proofs.Text.Blank
import ExplicitInstantiation.Proofs.Traversal

/-!
# Replacing a file in a tree

A file is replaced through a temporary file, which stands in the tree until it is renamed or
removed. None of this is seen afterwards: a write that fails leaves the tree it was given, and a
write that succeeds leaves that tree with a new file at one place (`write_cases`).

Two things are to be shown. A file that was made where nothing stood and is removed again leaves no
trace (`erase_put`). And the path is followed in a tree that has the temporary file in it, but a
path leads through directories only, so another file on the way makes no difference
(`DirectoriesWithin.locate`), neither to the renaming nor to the reading that comes after it, nor to
the question which permissions are to be kept (`keptPermissions_put`).

The new file has the permissions of the file that it replaces. So a file that may not be read is
replaced by one that may not be read, and what was written there cannot be seen; every other write
is followed by a reading of its content (`AllOrNothing.readable`).
-/

namespace ExplicitInstantiation

/-- Whether a path ends in a name, and not in a slash, `.` or `..`. -/
def Path.EndsInName (path : Path) : Prop :=
  ∃ pieces name, path.text.splitOn '/' = pieces ++ [name] ∧
    ¬ (name = [] ∨ name = ['.'] ∨ name = ['.', '.'])

namespace FileTree

variable {tree other : FileTree} {place : Place}

/-! ### What stands where -/

/-- A place without a directory is not the root. -/
theorem ne_nil_of_entry?_ne (h : tree.entry? place ≠ some .directory) : place ≠ [] := by
  rintro rfl
  exact h rfl

/-- Apart from the root, what stands at a place is found in the list of entries. -/
theorem entry?_eq_find? (tree : FileTree) (h : place ≠ []) :
    tree.entry? place = (tree.entries.find? (·.1 == place)).map Prod.snd := by
  cases place with
  | nil => exact absurd rfl h
  | cons name names => rfl

/-- An entry that is put at a place is found there. -/
theorem find?_putIn_self (place : Place) (entry : Entry) (entries : List (Place × Entry)) :
    (putIn place entry entries).find? (·.1 == place) = some (place, entry) := by
  induction entries with
  | nil => simp [putIn]
  | cons first rest ih =>
    rw [putIn]
    split
    next => simp
    next hne => rw [List.find?_cons_of_neg (by simpa using hne), ih]

/-- An entry that is put at a place changes nothing elsewhere in the list. -/
theorem find?_putIn_of_ne {place elsewhere : Place} (h : elsewhere ≠ place) (entry : Entry)
    (entries : List (Place × Entry)) :
    (putIn place entry entries).find? (·.1 == elsewhere) =
      entries.find? (·.1 == elsewhere) := by
  induction entries with
  | nil => simp [putIn, Ne.symm h]
  | cons first rest ih =>
    rw [putIn]
    split
    next heq =>
      rw [List.find?_cons_of_neg (by simpa using Ne.symm h),
        List.find?_cons_of_neg (by simpa [heq] using Ne.symm h)]
    next => rw [List.find?_cons, List.find?_cons, ih]

/-- What is put at a place stands there. -/
theorem entry?_put_self (tree : FileTree) (h : place ≠ []) (entry : Entry) :
    entry? (tree.put place entry) place = some entry := by
  rw [entry?_eq_find? _ h, put, find?_putIn_self]
  rfl

/-- What is put at a place changes nothing elsewhere. -/
theorem entry?_put_of_ne (tree : FileTree) {elsewhere : Place} (h : elsewhere ≠ place)
    (entry : Entry) : entry? (tree.put place entry) elsewhere = tree.entry? elsewhere := by
  by_cases hroot : elsewhere = []
  · rw [hroot]
    rfl
  · rw [entry?_eq_find? _ hroot, entry?_eq_find? _ hroot, put, find?_putIn_of_ne h]

/-- Of two entries put at one place the second stays. -/
theorem put_put (tree : FileTree) (place : Place) (first second : Entry) :
    (tree.put place first).put place second = tree.put place second := by
  have hput (entries : List (Place × Entry)) :
      putIn place second (putIn place first entries) = putIn place second entries := by
    induction entries with
    | nil => simp [putIn]
    | cons entry entries ih =>
      rw [putIn]
      split
      next heq => simp [putIn, heq]
      next hne => rw [putIn, if_neg hne, ih, putIn, if_neg hne]
  simp only [put, hput]

/-- What was put where nothing stood and is taken away again leaves no trace. -/
theorem erase_put (h : tree.entry? place = none) (entry : Entry) :
    (tree.put place entry).erase place = tree := by
  have hfilter {entries : List (Place × Entry)} (hfree : ∀ e ∈ entries, e.1 ≠ place) :
      (putIn place entry entries).filter (·.1 != place) = entries := by
    induction entries with
    | nil => simp [putIn]
    | cons first rest ih =>
      rw [List.forall_mem_cons] at hfree
      rw [putIn, if_neg hfree.1, List.filter_cons_of_pos (by simpa using hfree.1), ih hfree.2]
  have hne : place ≠ [] := ne_nil_of_entry?_ne (by rw [h]; decide)
  have hfree : ∀ e ∈ tree.entries, e.1 ≠ place := by
    rw [entry?_eq_find? _ hne, Option.map_eq_none_iff, List.find?_eq_none] at h
    intro e he heq
    exact h e he (by simpa using heq)
  simp only [put, erase, hfilter hfree]

/-! ### Following a path -/

/-- A refusal is passed exactly if its condition does not hold. -/
theorem refuse_eq_ok_iff {condition : Prop} [Decidable condition] {fault : FileFault} :
    refuse condition fault = .ok () ↔ ¬ condition := by
  unfold refuse
  split <;> simp_all

/-- A directory is required and found exactly if one stands there. -/
theorem requireDirectory_eq_ok_iff :
    tree.requireDirectory place = .ok () ↔ tree.entry? place = some .directory := by
  unfold requireDirectory
  split <;> simp_all

/-- A tree whose directories are directories in another one too, with the same working
directory. -/
structure DirectoriesWithin (tree other : FileTree) : Prop where
  /-- Relative paths start at the same place. -/
  workingDirectory_eq : tree.workingDirectory = other.workingDirectory
  /-- A directory of the first tree is one of the second. -/
  directory : ∀ {place}, tree.entry? place = some .directory →
    other.entry? place = some .directory

/-- A file or nothing takes the place of a file or nothing. -/
theorem directoriesWithin_put (h : tree.entry? place ≠ some .directory) (entry : Entry) :
    DirectoriesWithin tree (tree.put place entry) := by
  refine ⟨rfl, fun {elsewhere} hdirectory => ?_⟩
  have hne : elsewhere ≠ place := fun heq => h (heq ▸ hdirectory)
  rw [entry?_put_of_ne tree hne, hdirectory]

/-- A file that is put at a place adds no directory. -/
theorem directoriesWithin_of_put {entry : Entry} (h : entry ≠ .directory) :
    DirectoriesWithin (tree.put place entry) tree := by
  refine ⟨rfl, fun {elsewhere} hdirectory => ?_⟩
  by_cases heq : elsewhere = place
  · subst heq
    by_cases hroot : elsewhere = []
    · rw [hroot]
      rfl
    · rw [entry?_put_self tree hroot, Option.some_inj] at hdirectory
      exact absurd hdirectory h
  · rwa [entry?_put_of_ne tree heq] at hdirectory

namespace DirectoriesWithin

/-- Where more directories are, a piece of a path leads to the same place. -/
theorem follow (h : DirectoriesWithin tree other) {next : Place} {piece : Text}
    (hfollow : tree.follow place piece = .ok next) : other.follow place piece = .ok next := by
  unfold FileTree.follow at hfollow ⊢
  rw [then_eq_ok, requireDirectory_eq_ok_iff] at hfollow ⊢
  exact ⟨h.directory hfollow.1, hfollow.2⟩

/-- There, all pieces of a path lead to the same place. -/
theorem foldlM_follow (h : DirectoriesWithin tree other) {path : Path} {pieces : List Text}
    (hpieces : pieces.foldlM tree.follow (tree.start path) = .ok place) :
    pieces.foldlM other.follow (other.start path) = .ok place := by
  have hstart : tree.start path = other.start path := by
    rw [start, start, h.workingDirectory_eq]
  rw [← hstart]
  exact foldlM_map_of_ok id (fun _ _ _ => h.follow) hpieces

/-- A path leads to the same place where more directories stand. -/
theorem locate (h : DirectoriesWithin tree other) {path : Path}
    (hlocate : tree.locate path = .ok place) : other.locate path = .ok place := by
  unfold FileTree.locate at hlocate ⊢
  rw [then_eq_ok, then_eq_ok] at hlocate ⊢
  obtain ⟨hnul, husable, hpieces⟩ := hlocate
  exact ⟨hnul, husable, h.foldlM_follow hpieces⟩

end DirectoriesWithin

/-! ### Where a file is renamed to -/

/-- A path that ends in a name has no slash at its end. -/
theorem dropEndWhile_slash {path : Path} (h : path.EndsInName) :
    path.text.dropEndWhile (· == '/') = path.text := by
  obtain ⟨pieces, name, hpieces, hname⟩ := h
  rcases List.eq_nil_or_concat path.text with hnil | ⟨before, c, htext⟩
  · rw [hnil]
    rfl
  · have hc : c ≠ '/' := by
      rintro rfl
      have hsplit : path.text.splitOn '/' = before.splitOn '/' ++ [[]] := by
        rw [htext, List.concat_eq_append, List.splitOn_append_cons_self]
        rfl
      rw [hsplit] at hpieces
      obtain ⟨-, hlast⟩ := List.append_inj' hpieces rfl
      rw [List.singleton_inj] at hlast
      exact hname (.inl hlast.symm)
    rw [htext]
    simp [Text.dropEndWhile, hc]

/-- The last piece of a path, when it is a name, is put behind the directory above. -/
theorem foldlM_follow_concat {path : Path} {pieces : List Text} {name : Text}
    (hname : ¬ (name = [] ∨ name = ['.'] ∨ name = ['.', '.'])) :
    (pieces ++ [name]).foldlM tree.follow (tree.start path) = .ok place ↔
      ∃ above, pieces.foldlM tree.follow (tree.start path) = .ok above ∧
        tree.entry? above = some .directory ∧ requireName name = .ok () ∧
        place = above ++ [name] := by
  obtain ⟨hempty, hdot, hdots⟩ : name ≠ [] ∧ name ≠ ['.'] ∧ name ≠ ['.', '.'] := by
    simpa using hname
  rw [List.foldlM_append, bind_eq_ok]
  refine exists_congr fun above => and_congr_right fun _ => ?_
  have hfollow : tree.follow above name = .ok place ↔
      tree.entry? above = some .directory ∧ requireName name = .ok () ∧
        place = above ++ [name] := by
    unfold follow
    rw [then_eq_ok, requireDirectory_eq_ok_iff, if_neg (by simp [hempty, hdot]), if_neg hdots,
      then_eq_ok]
    refine and_congr_right fun _ => and_congr_right fun _ => ?_
    exact ⟨fun h => by cases h; rfl, fun h => by rw [h]; rfl⟩
  rw [← hfollow, List.foldlM_cons, bind_eq_ok]
  constructor
  · rintro ⟨next, hnext, h⟩
    cases h
    exact hnext
  · intro h
    exact ⟨place, h, rfl⟩

/-- The conditions on which a file can be renamed to a path without a slash at its end. -/
theorem renameTarget_eq_ok {path : Path} {pieces : List Text} {name : Text}
    (hbody : path.text.dropEndWhile (· == '/') = path.text)
    (hpieces : path.text.splitOn '/' = pieces ++ [name]) :
    tree.renameTarget path = .ok place ↔
      ¬ path.hasNul = true ∧ requireUsable path = .ok () ∧
        ¬ (name = [] ∨ name = ['.'] ∨ name = ['.', '.']) ∧
        (∃ above, pieces.foldlM tree.follow (tree.start path) = .ok above ∧
          tree.entry? above = some .directory ∧ requireName name = .ok () ∧
          place = above ++ [name]) ∧
        tree.entry? place ≠ some .directory := by
  unfold renameTarget
  simp only [hbody, hpieces, List.dropLast_concat, List.getLastD_concat]
  rw [then_eq_ok, then_eq_ok, bind_eq_ok]
  simp only [then_eq_ok, refuse_eq_ok_iff, requireDirectory_eq_ok_iff, Nat.lt_irrefl,
    not_false_eq_true, true_and]
  constructor
  · rintro ⟨hnul, husable, above, hfollow, habove, hname, hshort, hplace, h⟩
    cases h
    exact ⟨hnul, husable, hname, ⟨above, hfollow, habove, hshort, rfl⟩, hplace⟩
  · rintro ⟨hnul, husable, hname, ⟨above, hfollow, habove, hshort, rfl⟩, hplace⟩
    exact ⟨hnul, husable, above, hfollow, habove, hname, hshort, hplace, rfl⟩

/-- No file can be renamed to a path with a slash at its end. -/
theorem dropEndWhile_slash_of_renameTarget {path : Path}
    (h : tree.renameTarget path = .ok place) :
    path.text.dropEndWhile (· == '/') = path.text := by
  unfold renameTarget at h
  rw [then_eq_ok, then_eq_ok, bind_eq_ok] at h
  simp only [then_eq_ok, refuse_eq_ok_iff] at h
  obtain ⟨-, -, above, -, -, -, -, hlength, -⟩ := h
  exact (Text.dropEndWhile_isPrefix _ _).eq_of_length_le (Nat.not_lt.mp hlength)

/-- A file can be renamed to a path exactly if the path ends in a name and leads to a place at which
no directory stands. -/
theorem renameTarget_eq_ok_iff {path : Path} :
    tree.renameTarget path = .ok place ↔
      path.EndsInName ∧ tree.locate path = .ok place ∧ tree.entry? place ≠ some .directory := by
  obtain ⟨pieces, name, hpieces⟩ : ∃ pieces name, path.text.splitOn '/' = pieces ++ [name] :=
    ⟨_, _, (List.dropLast_append_getLast (List.splitOn_ne_nil '/' path.text)).symm⟩
  unfold locate
  rw [then_eq_ok, then_eq_ok, refuse_eq_ok_iff, hpieces]
  constructor
  · intro h
    have hbody := dropEndWhile_slash_of_renameTarget h
    obtain ⟨hnul, husable, hname, habove, hplace⟩ := (renameTarget_eq_ok hbody hpieces).mp h
    exact ⟨⟨pieces, name, hpieces, hname⟩,
      ⟨hnul, husable, (foldlM_follow_concat hname).mpr habove⟩, hplace⟩
  · rintro ⟨hends, ⟨hnul, husable, hfollow⟩, hplace⟩
    have hbody := dropEndWhile_slash hends
    obtain ⟨others, last, hlast, hname⟩ := hends
    obtain ⟨rfl, hsame⟩ := List.append_inj' (hpieces.symm.trans hlast) rfl
    obtain rfl := List.singleton_inj.mp hsame
    exact (renameTarget_eq_ok hbody hpieces).mpr
      ⟨hnul, husable, hname, (foldlM_follow_concat hname).mp hfollow, hplace⟩

/-- The directory above the place to which a file can be renamed. -/
theorem entry?_dropLast_of_renameTarget {path : Path} (h : tree.renameTarget path = .ok place) :
    tree.entry? place.dropLast = some .directory := by
  have hpieces := (List.dropLast_append_getLast (List.splitOn_ne_nil '/' path.text)).symm
  have hconditions :=
    (renameTarget_eq_ok (dropEndWhile_slash_of_renameTarget h) hpieces).mp h
  obtain ⟨-, -, -, ⟨above, -, habove, -, hplace⟩, -⟩ := hconditions
  rw [hplace, List.dropLast_concat]
  exact habove

/-- Trees with the same directories agree on where a file can be renamed to. -/
theorem renameTarget_congr (h : DirectoriesWithin tree other) (h' : DirectoriesWithin other tree)
    {path : Path} : tree.renameTarget path = .ok place ↔ other.renameTarget path = .ok place := by
  rw [renameTarget_eq_ok_iff, renameTarget_eq_ok_iff]
  refine and_congr_right fun _ => and_congr ⟨h.locate, h'.locate⟩ (not_congr ?_)
  exact ⟨h.directory, h'.directory⟩

/-! ### Permissions -/

/-- The permissions of the file at a place are found under every path that leads there. -/
theorem permissions?_of_locate {path : Path} (h : tree.locate path = .ok place) :
    tree.permissions? path = (tree.entry? place).bind Entry.permissions? := by
  simp only [permissions?, h]

/-- A path that leads nowhere has no permissions. -/
theorem permissions?_of_locate_error {path : Path} {fault : FileFault}
    (h : tree.locate path = .error fault) : tree.permissions? path = none := by
  simp only [permissions?, h]

/-- A path has permissions when it leads to a file that has them. -/
theorem permissions?_eq_some_iff {path : Path} {permissions : Permissions} :
    tree.permissions? path = some permissions ↔
      ∃ place content, tree.locate path = .ok place ∧
        tree.entry? place = some (.file permissions content) := by
  constructor
  · intro h
    rcases hlocate : tree.locate path with fault | place
    · rw [permissions?_of_locate_error hlocate] at h
      cases h
    · rw [permissions?_of_locate hlocate, Option.bind_eq_some_iff] at h
      obtain ⟨entry, hentry, hpermissions⟩ := h
      cases entry with
      | directory => cases hpermissions
      | file kept content =>
        cases hpermissions
        exact ⟨place, content, rfl, hentry⟩
  · rintro ⟨place, content, hlocate, hentry⟩
    rw [permissions?_of_locate hlocate, hentry]
    rfl

/-- Where no file is to be replaced, the permissions stay those of a temporary file. -/
theorem keptPermissions_of_none {circumstances : Circumstances} {path : Path}
    (h : tree.permissions? path = none) :
    tree.keptPermissions circumstances path = .temporary := by
  simp only [keptPermissions, h]

/-- The permissions of a file that is to be replaced are kept if they can be given to another
file. -/
theorem keptPermissions_of_some {circumstances : Circumstances} {path : Path}
    {permissions : Permissions} (h : tree.permissions? path = some permissions) :
    tree.keptPermissions circumstances path =
      if circumstances.permissionsChange then permissions else .temporary := by
  simp only [keptPermissions, h]

/-- The temporary file does not count as a file that is to be replaced, even where the path leads to
it: it has the permissions of a temporary file as it is. -/
theorem keptPermissions_put (h : tree.entry? place = none) (circumstances : Circumstances)
    (path : Path) (content : Content) :
    (tree.put place (.file .temporary content)).keptPermissions circumstances path =
      tree.keptPermissions circumstances path := by
  have hne : place ≠ [] := ne_nil_of_entry?_ne (by rw [h]; decide)
  have hwithin : DirectoriesWithin (tree.put place (.file .temporary content)) tree :=
    directoriesWithin_of_put (by simp)
  have hwithin' : DirectoriesWithin tree (tree.put place (.file .temporary content)) :=
    directoriesWithin_put (by rw [h]; decide) _
  rcases hlocate : tree.locate path with fault | target
  · rcases hlocate' : (tree.put place (.file .temporary content)).locate path with fault' | target
    · rw [keptPermissions_of_none (permissions?_of_locate_error hlocate),
        keptPermissions_of_none (permissions?_of_locate_error hlocate')]
    · rw [hwithin.locate hlocate'] at hlocate
      cases hlocate
  · have hpermissions := permissions?_of_locate (hwithin'.locate hlocate)
    by_cases heq : target = place
    · subst heq
      rw [entry?_put_self tree hne] at hpermissions
      rw [keptPermissions_of_some hpermissions, ite_self,
        keptPermissions_of_none (by rw [permissions?_of_locate hlocate, h]; rfl)]
    · rw [entry?_put_of_ne tree heq, ← permissions?_of_locate hlocate] at hpermissions
      simp only [keptPermissions, hpermissions]

/-! ### Writing through a temporary file -/

/-- Whether a write makes its temporary file at a place. -/
def MakesTemporary (tree : FileTree) (circumstances : Circumstances) (path : Path)
    (temporary : Place) : Prop :=
  ∃ directory opened, tree.temporaryDirectory path = .ok directory ∧
    tree.createTemporary directory circumstances.creationFault circumstances.names =
      .ok (opened, temporary)

/-- The file that a write puts in place of the one that a path leads to. -/
def newFile (tree : FileTree) (circumstances : Circumstances) (path : Path) (content : Text) :
    Entry :=
  .file (tree.keptPermissions circumstances path) (.text content)

/-- A temporary file is made where nothing stood, and it is empty. -/
theorem createTemporary_eq_ok {directory : Path} {refusal : Option FileFault} {names : List Text}
    {opened : FileTree} (h : tree.createTemporary directory refusal names = .ok (opened, place)) :
    tree.entry? place = none ∧ opened = tree.put place (.file .temporary (.text [])) := by
  induction names with
  | nil => cases h
  | cons name names ih =>
    rw [createTemporary, bind_eq_ok] at h
    obtain ⟨found, -, h⟩ := h
    split at h
    next => exact ih h
    next hfree =>
      cases refusal with
      | some fault => cases h
      | none =>
        cases h
        exact ⟨by simpa using hfree, rfl⟩

/-- A file that was made where nothing stood is renamed as if it had been put there at once. -/
theorem rename_put (h : tree.entry? place = none) (file : Entry) (path : Path)
    (refusal : Option FileFault) :
    (tree.put place file).rename place path refusal =
      match (tree.put place file).renameTarget path, refusal with
      | .error fault, _ => .error fault
      | .ok _, some fault => .error fault
      | .ok target, none => .ok (tree.put target file) := by
  have hne : place ≠ [] := ne_nil_of_entry?_ne (by rw [h]; decide)
  unfold rename
  rw [entry?_put_self tree hne, erase_put h]
  rcases (tree.put place file).renameTarget path with fault | target
  · rfl
  · cases refusal <;> rfl

/-- **What a write comes to** once its temporary file is made. -/
theorem write_of_temporary {circumstances : Circumstances} {path : Path} {directory : Path}
    {opened : FileTree} (hdirectory : tree.temporaryDirectory path = .ok directory)
    (hcreate : tree.createTemporary directory circumstances.creationFault circumstances.names =
      .ok (opened, place)) (content : Text) :
    tree.write circumstances path content =
      match circumstances.interruption with
      | some (_, fault) => (tree, .error (.content path fault))
      | none =>
        match (tree.put place (tree.newFile circumstances path content)).renameTarget path,
          circumstances.renameFault with
        | .error fault, _ => (tree, .error (.replacement path fault))
        | .ok _, some fault => (tree, .error (.replacement path fault))
        | .ok target, none =>
          (tree.put target (tree.newFile circumstances path content), .ok ()) := by
  obtain ⟨hfree, rfl⟩ := createTemporary_eq_ok hcreate
  have hready : tree.newFile circumstances path content =
      .file (tree.keptPermissions circumstances path) (.text content) := rfl
  unfold write
  simp only [hdirectory, hcreate, put_put, erase_put hfree, rename_put hfree,
    keptPermissions_put hfree, hready]
  rcases circumstances.interruption with _ | ⟨written, fault⟩
  · generalize Entry.file (tree.keptPermissions circumstances path) (.text content) = file
    rcases (tree.put place file).renameTarget path with fault | target
    · rfl
    · cases circumstances.renameFault <;> rfl
  · rfl

/-- The renaming is not disturbed by the temporary file. -/
theorem renameTarget_put (h : tree.entry? place = none) {permissions : Permissions}
    {content : Content} {path : Path} {target : Place} :
    (tree.put place (.file permissions content)).renameTarget path = .ok target ↔
      tree.renameTarget path = .ok target :=
  renameTarget_congr (directoriesWithin_of_put (by simp))
    (directoriesWithin_put (by rw [h]; decide) _)

/-- A write leaves the tree as it was and answers with a fault, or its temporary file was made and
written, nothing was refused, and the new file stands at the place where a file can be renamed
to. -/
theorem write_cases (tree : FileTree) (circumstances : Circumstances) (path : Path)
    (content : Text) :
    (∃ fault, tree.write circumstances path content = (tree, .error fault)) ∨
      ∃ temporary target, tree.MakesTemporary circumstances path temporary ∧
        circumstances.interruption = none ∧ circumstances.renameFault = none ∧
        tree.renameTarget path = .ok target ∧
        tree.write circumstances path content =
          (tree.put target (tree.newFile circumstances path content), .ok ()) := by
  rcases hdirectory : tree.temporaryDirectory path with fault | directory
  · exact .inl ⟨.workingDirectory fault, by simp only [write, hdirectory]⟩
  rcases hcreate : tree.createTemporary directory circumstances.creationFault circumstances.names
    with fault | ⟨opened, place⟩
  · exact .inl ⟨.temporary directory fault, by simp only [write, hdirectory, hcreate]⟩
  have hfree := (createTemporary_eq_ok hcreate).1
  rw [write_of_temporary hdirectory hcreate]
  rcases circumstances.interruption with _ | ⟨written, fault⟩
  · rcases hrename : (tree.put place (tree.newFile circumstances path content)).renameTarget path
      with fault | target
    · exact .inl ⟨.replacement path fault, rfl⟩
    · rcases circumstances.renameFault with _ | fault
      · exact .inr ⟨place, target, ⟨directory, opened, hdirectory, hcreate⟩, rfl, rfl,
          (renameTarget_put hfree).mp hrename, rfl⟩
      · exact .inl ⟨.replacement path fault, rfl⟩
  · exact .inl ⟨.content path fault, rfl⟩

/-- A write succeeds exactly if its temporary file can be made and written, and a file can be
renamed to the path and may be. -/
theorem write_eq_ok_iff {circumstances : Circumstances} {path : Path} {content : Text} :
    (tree.write circumstances path content).2 = .ok () ↔
      (∃ temporary, tree.MakesTemporary circumstances path temporary) ∧
        circumstances.interruption = none ∧ circumstances.renameFault = none ∧
        ∃ target, tree.renameTarget path = .ok target := by
  constructor
  · intro h
    rcases write_cases tree circumstances path content with
      ⟨fault, hwrite⟩ | ⟨temporary, target, hmade, hwritten, hrenamed, htarget, -⟩
    · rw [hwrite] at h
      cases h
    · exact ⟨⟨temporary, hmade⟩, hwritten, hrenamed, target, htarget⟩
  · rintro ⟨⟨temporary, _, _, hdirectory, hcreate⟩, hwritten, hrenamed, target, htarget⟩
    have hrename :
        (tree.put temporary (tree.newFile circumstances path content)).renameTarget path =
          .ok target := (renameTarget_put (createTemporary_eq_ok hcreate).1).mpr htarget
    rw [write_of_temporary hdirectory hcreate, hwritten, hrenamed]
    simp only [hrename]

/-- The file at a place is read under every path that leads there, if it may be read. -/
theorem read_of_locate {path : Path} {permissions : Permissions} {content : Text}
    (hlocate : tree.locate path = .ok place)
    (hentry : tree.entry? place = some (.file permissions (.text content))) :
    tree.read path =
      if tree.mayRead permissions then .ok content else .error .denied := by
  unfold read
  rw [hlocate]
  simp only [hentry, bind, Except.bind]
  cases tree.mayRead permissions <;> rfl

/-- No file is read that may not be. -/
theorem read_of_not_mayRead {path : Path} {permissions : Permissions}
    (h : tree.permissions? path = some permissions) (hdenied : tree.mayRead permissions = false) :
    tree.read path = .error .denied := by
  obtain ⟨place, content, hlocate, hentry⟩ := permissions?_eq_some_iff.mp h
  unfold read
  rw [hlocate]
  simp only [hentry, hdenied, bind, Except.bind]
  rfl

/-- A text is read under a path exactly if the path leads to a file that holds it and may be
read. -/
theorem read_eq_ok_iff {path : Path} {content : Text} :
    tree.read path = .ok content ↔
      ∃ place permissions, tree.locate path = .ok place ∧
        tree.entry? place = some (.file permissions (.text content)) ∧
        tree.mayRead permissions = true := by
  constructor
  · intro h
    have hread := h
    rw [read, bind_eq_ok] at hread
    obtain ⟨place, hlocate, hread⟩ := hread
    split at hread
    next permissions held hentry =>
      rw [then_eq_ok, refuse_eq_ok_iff, Bool.not_eq_false] at hread
      obtain ⟨hmay, hheld⟩ := hread
      cases held with
      | text held =>
        cases hheld
        exact ⟨place, permissions, hlocate, hentry, hmay⟩
      | raw bytes => cases hheld
    next => cases hread
    next => cases hread
  · rintro ⟨place, permissions, hlocate, hentry, hmay⟩
    rw [read_of_locate hlocate hentry, if_pos hmay]

/-- A file that was put where a file can be renamed to is read under the same path, if it may be
read. -/
theorem read_put_of_renameTarget {path : Path} (h : tree.renameTarget path = .ok place)
    (permissions : Permissions) (content : Text) :
    (tree.put place (.file permissions (.text content))).read path =
      if tree.mayRead permissions then .ok content else .error .denied := by
  obtain ⟨-, hlocate, hfile⟩ := renameTarget_eq_ok_iff.mp h
  exact read_of_locate ((directoriesWithin_put hfile _).locate hlocate)
    (entry?_put_self tree (ne_nil_of_entry?_ne hfile) _)

/-- What may be read does not depend on the files. -/
theorem mayRead_put (tree : FileTree) (place : Place) (entry : Entry) (permissions : Permissions) :
    (tree.put place entry).mayRead permissions = tree.mayRead permissions := rfl

/-- A temporary file may be read. -/
theorem mayRead_temporary (tree : FileTree) : tree.mayRead .temporary = true := by
  rw [mayRead, Bool.or_eq_true]
  exact .inr (by decide)

/-- The new file may be read if the file that it replaces may be, if there is one. -/
theorem mayRead_keptPermissions {circumstances : Circumstances} {path : Path}
    (h : ∀ permissions, tree.permissions? path = some permissions →
      tree.mayRead permissions = true) :
    tree.mayRead (tree.keptPermissions circumstances path) = true := by
  rcases hpermissions : tree.permissions? path with _ | permissions
  · rw [keptPermissions_of_none hpermissions]
    exact tree.mayRead_temporary
  · rw [keptPermissions_of_some hpermissions]
    split
    · exact h permissions hpermissions
    · exact tree.mayRead_temporary

/-- What a write of a content to a path may leave and answer. -/
structure AllOrNothing (tree : FileTree) (circumstances : Circumstances) (path : Path)
    (content : Text) (left : FileTree) (answer : Except WriteFault Unit) : Prop where
  /-- A write succeeds exactly if its temporary file can be made, written and renamed, the path ends
  in a name and leads to a place, and no directory stands there. -/
  succeeds_iff : answer = .ok () ↔
    (∃ temporary, tree.MakesTemporary circumstances path temporary) ∧
      circumstances.interruption = none ∧ circumstances.renameFault = none ∧ path.EndsInName ∧
      ∃ place, tree.locate path = .ok place ∧ tree.entry? place ≠ some .directory
  /-- A write that fails leaves the tree as it was. -/
  unchanged : answer ≠ .ok () → left = tree
  /-- A write that succeeds changes what stands at the place that the path leads to, in a directory,
  and nothing else. -/
  changed : answer = .ok () → ∃ place, tree.locate path = .ok place ∧
    tree.entry? place.dropLast = some .directory ∧
    left = tree.put place (tree.newFile circumstances path content) ∧
    ∀ elsewhere, elsewhere ≠ place → left.entry? elsewhere = tree.entry? elsewhere
  /-- A file that is replaced hands on its permissions, if they can be changed. -/
  kept : answer = .ok () → circumstances.permissionsChange = true →
    ∀ permissions, tree.permissions? path = some permissions →
      left.permissions? path = some permissions
  /-- The content that was written is read, unless a file was replaced that may not be read. -/
  readable : answer = .ok () → (∀ permissions, tree.permissions? path = some permissions →
    tree.mayRead permissions = true) → left.read path = .ok content
  /-- In that case the content cannot be read, as little as the one that was replaced. -/
  denied : answer = .ok () → circumstances.permissionsChange = true →
    ∀ permissions, tree.permissions? path = some permissions →
      tree.mayRead permissions = false →
      tree.read path = .error .denied ∧ left.read path = .error .denied
  /-- A temporary file is made where nothing stood, and nothing is left there, unless this is the
  place that was to be written. -/
  cleared : ∀ temporary, tree.MakesTemporary circumstances path temporary →
    tree.entry? temporary = none ∧
      (left.entry? temporary = none ∨ answer = .ok () ∧ tree.locate path = .ok temporary)

/-- Every write is all or nothing. -/
theorem allOrNothing_write (tree : FileTree) (circumstances : Circumstances) (path : Path)
    (content : Text) :
    AllOrNothing tree circumstances path content (tree.write circumstances path content).1
      (tree.write circumstances path content).2 := by
  have hfree : ∀ temporary, tree.MakesTemporary circumstances path temporary →
      tree.entry? temporary = none := by
    rintro temporary ⟨directory, opened, -, hcreate⟩
    exact (createTemporary_eq_ok hcreate).1
  have hsucceeds : (tree.write circumstances path content).2 = .ok () ↔
      (∃ temporary, tree.MakesTemporary circumstances path temporary) ∧
        circumstances.interruption = none ∧ circumstances.renameFault = none ∧
        path.EndsInName ∧
        ∃ place, tree.locate path = .ok place ∧ tree.entry? place ≠ some .directory := by
    rw [write_eq_ok_iff]
    simp only [renameTarget_eq_ok_iff, exists_and_left]
  rcases write_cases tree circumstances path content with
    ⟨fault, hwrite⟩ | ⟨-, target, -, -, -, htarget, hwrite⟩
  · rw [hwrite] at hsucceeds ⊢
    exact
      { succeeds_iff := hsucceeds
        unchanged := fun _ => rfl
        changed := fun h => by cases h
        kept := fun h => by cases h
        readable := fun h => by cases h
        denied := fun h => by cases h
        cleared := fun temporary hmade => ⟨hfree temporary hmade, .inl (hfree temporary hmade)⟩ }
  · rw [hwrite] at hsucceeds ⊢
    obtain ⟨-, hlocate, hfile⟩ := renameTarget_eq_ok_iff.mp htarget
    have hread := read_put_of_renameTarget htarget (tree.keptPermissions circumstances path) content
    refine
      { succeeds_iff := hsucceeds
        unchanged := fun h => absurd rfl h
        changed := fun _ => ⟨target, hlocate, entry?_dropLast_of_renameTarget htarget, rfl,
          fun elsewhere hne => entry?_put_of_ne tree hne _⟩
        kept := fun _ hchange permissions hpermissions => ?_
        readable := fun _ hmay => hread.trans (if_pos (mayRead_keptPermissions hmay))
        denied := fun _ hchange permissions hpermissions hdenied =>
          ⟨read_of_not_mayRead hpermissions hdenied, ?_⟩
        cleared := fun temporary hmade => ⟨hfree temporary hmade, ?_⟩ }
    · rw [permissions?_of_locate ((directoriesWithin_put hfile _).locate hlocate),
        entry?_put_self tree (ne_nil_of_entry?_ne hfile), newFile,
        keptPermissions_of_some hpermissions, if_pos hchange]
      rfl
    · rw [keptPermissions_of_some hpermissions, if_pos hchange, hdenied] at hread
      rw [newFile, keptPermissions_of_some hpermissions, if_pos hchange]
      exact hread
    · by_cases heq : temporary = target
      · exact .inr ⟨rfl, heq ▸ hlocate⟩
      · exact .inl ((entry?_put_of_ne tree heq _).trans (hfree temporary hmade))

end FileTree

end ExplicitInstantiation
