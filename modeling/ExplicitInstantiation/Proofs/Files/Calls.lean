import ExplicitInstantiation.Proofs.Files.Tree

/-!
# Calls of a store one after the other

A tree is read and written in any number of calls (`afterCalls`). What stands at a place at the end
is what was last written there, and what stood there at the start if nothing was
(`entry?_afterCalls`).

A file hands its permissions on to the one that replaces it, and a file that is new may be read. So
where every file may be read at the start, every file may be read after any calls
(`Readable.afterCalls`).

`calls_all_or_nothing` puts this together with what a single write comes to.
-/

namespace ExplicitInstantiation

namespace FileTree

variable {tree : FileTree}

/-- A call of a store of files. -/
inductive Call where
  /-- Reads a file. -/
  | read (path : Path)
  /-- Replaces a file. -/
  | write (circumstances : Circumstances) (path : Path) (content : Text)

/-- The tree that a call leaves. -/
def afterCall (tree : FileTree) : Call → FileTree
  | .read _ => tree
  | .write circumstances path content => (tree.write circumstances path content).1

/-- The tree that calls leave which are made one after the other. -/
def afterCalls (tree : FileTree) (calls : List Call) : FileTree :=
  calls.foldl afterCall tree

/-- The place and the new file of a write that succeeds. -/
def written? (tree : FileTree) : Call → Option (Place × Entry)
  | .read _ => none
  | .write circumstances path content =>
    match (tree.write circumstances path content).2, tree.locate path with
    | .ok (), .ok place => some (place, tree.newFile circumstances path content)
    | _, _ => none

/-- The places and new files of the writes that succeed, in order. -/
def written (tree : FileTree) : List Call → List (Place × Entry)
  | [] => []
  | call :: calls => (tree.written? call).toList ++ (tree.afterCall call).written calls

/-- What was last written to a place, if anything was. -/
def lastWritten? (writes : List (Place × Entry)) (place : Place) : Option Entry :=
  (writes.reverse.find? (·.1 == place)).map Prod.snd

/-! ### What stands where afterwards -/

/-- A call changes nothing, or it is a write that puts its new file where a file can be renamed
to. -/
theorem afterCall_cases (tree : FileTree) (call : Call) :
    tree.afterCall call = tree ∧ tree.written? call = none ∨
      ∃ circumstances path content target, tree.renameTarget path = .ok target ∧
        tree.afterCall call = tree.put target (tree.newFile circumstances path content) ∧
        tree.written? call = some (target, tree.newFile circumstances path content) := by
  cases call with
  | read path => exact .inl ⟨rfl, rfl⟩
  | write circumstances path content =>
    rw [afterCall, written?]
    rcases write_cases tree circumstances path content with
      ⟨fault, hwrite⟩ | ⟨-, target, -, -, -, htarget, hwrite⟩
    · rw [hwrite]
      exact .inl ⟨rfl, rfl⟩
    · obtain ⟨-, hlocate, -⟩ := renameTarget_eq_ok_iff.mp htarget
      rw [hwrite, hlocate]
      exact .inr ⟨circumstances, path, content, target, htarget, rfl, rfl⟩

/-- What a call leaves at a place is what it has written there, or what stood there. -/
theorem entry?_afterCall (tree : FileTree) (call : Call) (place : Place) :
    entry? (tree.afterCall call) place =
      (lastWritten? (tree.written? call).toList place).or (tree.entry? place) := by
  rcases tree.afterCall_cases call with
    ⟨hafter, hwritten⟩ | ⟨circumstances, path, content, target, htarget, hafter, hwritten⟩
  · rw [hafter, hwritten]
    rfl
  · obtain ⟨-, -, hfile⟩ := renameTarget_eq_ok_iff.mp htarget
    rw [hafter, hwritten]
    by_cases heq : place = target
    · subst heq
      rw [entry?_put_self tree (ne_nil_of_entry?_ne hfile)]
      simp [lastWritten?]
    · rw [entry?_put_of_ne tree heq]
      simp [lastWritten?, Ne.symm heq]

/-- Of writes in a row the last ones count first. -/
theorem lastWritten?_append (first others : List (Place × Entry)) (place : Place) :
    lastWritten? (first ++ others) place =
      (lastWritten? others place).or (lastWritten? first place) := by
  simp only [lastWritten?, List.reverse_append, List.find?_append, Option.map_or]

/-- What calls leave at a place is what was last written there, or what stood there. -/
theorem entry?_afterCalls (tree : FileTree) (calls : List Call) (place : Place) :
    entry? (tree.afterCalls calls) place =
      (lastWritten? (tree.written calls) place).or (tree.entry? place) := by
  induction calls generalizing tree with
  | nil => rfl
  | cons call calls ih =>
    have hrest := ih (tree.afterCall call)
    rw [entry?_afterCall, ← Option.or_assoc, ← lastWritten?_append] at hrest
    exact hrest

/-! ### What may be read afterwards -/

/-- Whether every file of a tree may be read. The superuser may read every file of every tree. -/
def Readable (tree : FileTree) : Prop :=
  ∀ place permissions content, tree.entry? place = some (.file permissions content) →
    tree.mayRead permissions = true

/-- A path to a file that may be read has permissions that allow it. -/
theorem Readable.mayRead_of_permissions? (h : tree.Readable) {path : Path}
    {permissions : Permissions} (hpermissions : tree.permissions? path = some permissions) :
    tree.mayRead permissions = true := by
  obtain ⟨place, content, -, hentry⟩ := permissions?_eq_some_iff.mp hpermissions
  exact h place permissions content hentry

/-- Where every file may be read, a call leaves only files that may be read. -/
theorem Readable.afterCall (h : tree.Readable) (call : Call) : (tree.afterCall call).Readable := by
  rcases tree.afterCall_cases call with
    ⟨hafter, -⟩ | ⟨circumstances, path, content, target, htarget, hafter, -⟩
  · rw [hafter]
    exact h
  · obtain ⟨-, -, hfile⟩ := renameTarget_eq_ok_iff.mp htarget
    rw [hafter]
    intro place permissions held hentry
    by_cases heq : place = target
    · subst heq
      rw [entry?_put_self tree (ne_nil_of_entry?_ne hfile), newFile, Option.some_inj,
        Entry.file.injEq] at hentry
      rw [mayRead_put, ← hentry.1]
      exact mayRead_keptPermissions fun _ => h.mayRead_of_permissions?
    · rw [entry?_put_of_ne tree heq] at hentry
      exact h place permissions held hentry

/-- Where every file may be read at the start, every file may be read after any calls. -/
theorem Readable.afterCalls (h : tree.Readable) (calls : List Call) :
    (tree.afterCalls calls).Readable := by
  induction calls generalizing tree with
  | nil => exact h
  | cons call calls ih => exact ih (h.afterCall call)

/-! ### All or nothing -/

/-- **The store writes all or nothing.** After any calls, each place holds what was last written
there, or what it held at the start. Reading changes nothing, and a write that comes next puts its
content at the place its path leads to, with nothing else changed and no temporary file left, or
changes nothing at all. A content that was written is read under the same path, because a file that
is replaced hands on its permissions and a new one may be read: this holds of all writes if every
file may be read at the start, and else of those that do not replace a file which may not be
read. -/
theorem calls_all_or_nothing (start : FileTree) (calls : List Call) :
    (∀ place, entry? (start.afterCalls calls) place =
        (lastWritten? (start.written calls) place).or (start.entry? place)) ∧
      (∀ path, (start.afterCalls calls).afterCall (.read path) = start.afterCalls calls) ∧
      ∀ circumstances path content left answer,
        (start.afterCalls calls).write circumstances path content = (left, answer) →
          AllOrNothing (start.afterCalls calls) circumstances path content left answer ∧
            (start.Readable → answer = .ok () → left.read path = .ok content) := by
  refine ⟨entry?_afterCalls start calls, fun _ => rfl, ?_⟩
  intro circumstances path content left answer hwrite
  have hspec := allOrNothing_write (start.afterCalls calls) circumstances path content
  rw [hwrite] at hspec
  refine ⟨hspec, fun hstart hok => hspec.readable hok fun permissions hpermissions => ?_⟩
  exact (hstart.afterCalls calls).mayRead_of_permissions? hpermissions

/-- A working directory with a file, a file that its owner may only write, a directory and a file
whose name is that of a temporary one. -/
def sampleTree : FileTree where
  entries := [(["work".toList], .directory), (["work".toList, "src".toList], .directory),
    (["work".toList, "grid.cpp".toList], .file 0o640 (.text "old".toList)),
    (["work".toList, "log.cpp".toList], .file 0o200 (.text "old".toList)),
    (["work".toList, ".tmp000000".toList], .file 0o600 (.raw [0xff]))]
  workingDirectory := ["work".toList]
  superuser := false

/-- The given names are drawn for the temporary file, and nothing is refused. -/
def drawing (names : List String) : Circumstances where
  names := names.map String.toList
  creationFault := none
  interruption := none
  permissionsChange := true
  renameFault := none

/-- Writes that fail: onto a directory, into a directory that is not there, through a file, for want
of space, because no file may be made, and because none may be renamed. -/
def sampleCalls : List Call :=
  [.write (drawing [".tmp111111"]) (.ofString "src") "new".toList,
    .write (drawing [".tmp111111"]) (.ofString "lib/grid.cpp") "new".toList,
    .write (drawing [".tmp111111"]) (.ofString "grid.cpp/a.cpp") "new".toList,
    .write { drawing [".tmp111111"] with
      interruption := some ([0x6e], .other "No space left on device".toList) }
      (.ofString "grid.cpp") "new".toList,
    .write { drawing [".tmp111111"] with creationFault := some .denied }
      (.ofString "grid.cpp") "new".toList,
    .write { drawing [".tmp111111"] with renameFault := some .denied }
      (.ofString "grid.cpp") "new".toList,
    .read (.ofString "src")]

/-- The same tree with another content in one of its files. -/
def changedTree (name : String) (permissions : Permissions) : FileTree :=
  sampleTree.put ["work".toList, name.toList] (.file permissions (.text "new".toList))

/-- After those calls a write succeeds, although the name that is drawn first is taken, and what it
has written is read. A write to the file that its owner may only write succeeds too, and what it has
written is not read. -/
theorem calls_all_or_nothing_sampleTree :
    sampleTree.afterCalls sampleCalls = sampleTree ∧
      sampleTree.write (drawing [".tmp000000", ".tmp000001"]) (.ofString "./grid.cpp")
        "new".toList = (changedTree "grid.cpp" 0o640, .ok ()) ∧
      (changedTree "grid.cpp" 0o640).read (.ofString "./grid.cpp") = .ok "new".toList ∧
      sampleTree.write (drawing [".tmp000001"]) (.ofString "log.cpp") "new".toList =
        (changedTree "log.cpp" 0o200, .ok ()) ∧
      (changedTree "log.cpp" 0o200).read (.ofString "log.cpp") = .error .denied := by
  have hcalls : sampleTree.afterCalls sampleCalls = sampleTree := by decide +kernel
  have hgrid : sampleTree.write (drawing [".tmp000000", ".tmp000001"]) (.ofString "./grid.cpp")
      "new".toList = (changedTree "grid.cpp" 0o640, .ok ()) := rfl
  have hlog : sampleTree.write (drawing [".tmp000001"]) (.ofString "log.cpp") "new".toList =
      (changedTree "log.cpp" 0o200, .ok ()) := rfl
  have hspec := (calls_all_or_nothing sampleTree sampleCalls).2.2
  rw [hcalls] at hspec
  have hpermissions : sampleTree.permissions? (.ofString "./grid.cpp") = some 0o640 := rfl
  refine ⟨hcalls, hgrid, (hspec _ _ _ _ _ hgrid).1.readable rfl ?_, hlog,
    ((hspec _ _ _ _ _ hlog).1.denied rfl rfl 0o200 rfl rfl).2⟩
  intro permissions h
  rw [hpermissions] at h
  cases h
  rfl

end FileTree

end ExplicitInstantiation
