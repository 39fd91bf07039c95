import ExplicitInstantiation.Files.Procedure

/-!
# Files in memory

The simplest store: texts under paths. Two paths with the same components are one. Every path can
be written to, and there are no directories.
-/

namespace ExplicitInstantiation

/-- Texts under paths. -/
structure Memory where
  /-- The files; no two paths are the same when they were all put there by `put`. -/
  files : List (Path × Text)
  deriving Repr, DecidableEq

namespace Memory

/-- No files. -/
def empty : Memory := ⟨[]⟩

/-- The text under a path. -/
def get? (memory : Memory) (path : Path) : Option Text :=
  (memory.files.find? (·.1.isSame path)).map Prod.snd

/-- `files` with the text put under a path; a path that is already there keeps its place. -/
def putIn (path : Path) (content : Text) : List (Path × Text) → List (Path × Text)
  | [] => [(path, content)]
  | file :: files =>
    if file.1.isSame path then (file.1, content) :: files else file :: putIn path content files

/-- Puts a text under a path. -/
def put (memory : Memory) (path : Path) (content : Text) : Memory :=
  ⟨putIn path content memory.files⟩

/-- Removes the text under a path. -/
def remove (memory : Memory) (path : Path) : Memory :=
  ⟨memory.files.filter (!·.1.isSame path)⟩

instance : Store Memory where
  read memory path :=
    match memory.get? path with
    | some content => .ok content
    | none => .error .unknown
  probe memory path := .ok (memory.get? path).isSome
  replace memory path content := .ok (memory.put path content)

/-- What is put under a path is found there. -/
theorem get?_put_self (memory : Memory) (path : Path) (content : Text) :
    (memory.put path content).get? path = some content := by
  obtain ⟨files⟩ := memory
  simp only [put, get?]
  induction files with
  | nil => simp [putIn]
  | cons file files ih =>
    rw [putIn]
    split
    · simp_all
    · rw [List.find?_cons_of_neg ‹_›]
      exact ih

/-- What stands under other paths stays as it is. -/
theorem get?_put_of_ne (memory : Memory) {path other : Path} (content : Text)
    (h : path.components ≠ other.components) :
    (memory.put path content).get? other = memory.get? other := by
  obtain ⟨files⟩ := memory
  simp only [put, get?]
  induction files with
  | nil => simp [putIn, h]
  | cons file files ih =>
    rw [putIn]
    by_cases hfile : file.1.components = path.components
    · simp [hfile, h]
    · by_cases hother : file.1.components = other.components
      · have : other.components ≠ path.components := fun heq => h heq.symm
        simp [hother, this]
      · simpa [hfile, hother] using ih

end Memory

end ExplicitInstantiation
