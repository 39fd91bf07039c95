import ExplicitInstantiation.Files.Memory

/-!
# What a procedure does to a store

`LawfulStore` is a store that behaves, under certain paths, like a map from paths to texts: to
replace a file under one of them puts the text there and leaves what stands under the others. Two
paths are the same key when they have the same components. In memory this is so under all paths; in
a tree of directories it is so under paths that lead to different places when they have different
components. `IndependentStore` says in addition that to replace a file does not change how another
one can be replaced.

The laws are about files that can be read. A file that cannot be read may have been replaced and
still not be read, and to make a file where there was none can turn up under other paths.

`Procedure.attempts` lists the replacements that a procedure asks for, those that fail included;
the paths of those that succeed are what a run reports as replaced (`replaced_run`).

Most procedures read first. `Procedure.afterReads` is what is left of a procedure when its first
steps, as long as they are readings, have been answered; it has the same run and the same attempts
(`run_afterReads`, `attempts_afterReads`).
-/

namespace ExplicitInstantiation

/-! ### Stores with laws -/

/-- A store in which, under the given paths, to replace a file that can be read puts a text under
one path and touches no other. -/
class LawfulStore (σ : Type) [Store σ] (paths : Path → Prop) : Prop where
  /-- A text that was put under a path is read there. -/
  read_replace_of_eq : ∀ {store changed : σ} {path other : Path} {existing content : Text},
    paths path → paths other → Store.read store path = .ok existing →
      Store.replace store path content = .ok changed → path.components = other.components →
        Store.read changed other = .ok content
  /-- What stands under another path is read as before. -/
  read_replace_of_ne : ∀ {store changed : σ} {path other : Path} {existing content : Text},
    paths path → paths other → Store.read store path = .ok existing →
      Store.replace store path content = .ok changed → path.components ≠ other.components →
        Store.read changed other = Store.read store other

namespace Store

variable {σ : Type} [Store σ]

/-- What a store answers to a replacement, without the store that results. -/
def answer (store : σ) (path : Path) (content : Text) : Except WriteFault Unit :=
  (Store.replace store path content).map fun _ => ()

/-- A replacement that succeeds is answered with success. -/
theorem answer_of_ok {store changed : σ} {path : Path} {content : Text}
    (h : Store.replace store path content = .ok changed) : answer store path content = .ok () := by
  rw [answer, h]
  rfl

/-- A replacement that fails is answered with its fault. -/
theorem answer_of_error {store : σ} {path : Path} {content : Text} {fault : WriteFault}
    (h : Store.replace store path content = .error fault) :
    answer store path content = .error fault := by
  rw [answer, h]
  rfl

end Store

/-- A store in which, under the given paths, to replace a file that can be read also leaves open how
another file can be replaced. -/
class IndependentStore (σ : Type) [Store σ] (paths : Path → Prop) : Prop
    extends LawfulStore σ paths where
  /-- A replacement under another path is answered as before. -/
  answer_replace_of_ne : ∀ {store changed : σ} {path other : Path} {existing content : Text},
    paths path → paths other → Store.read store path = .ok existing →
      Store.replace store path content = .ok changed → path.components ≠ other.components →
        ∀ text, Store.answer changed other text = Store.answer store other text

namespace Memory

/-- A file in memory is read when something stands under its path. -/
theorem read_eq (memory : Memory) (path : Path) :
    Store.read memory path =
      match memory.get? path with
      | some content => .ok content
      | none => .error .unknown := rfl

/-- Paths with the same components are one in memory. -/
theorem get?_congr (memory : Memory) {path other : Path}
    (h : path.components = other.components) : memory.get? path = memory.get? other := by
  simp [get?, Path.isSame, h]

/-- Texts in memory can always be replaced, and only under the path that is given. This holds of
all paths. -/
instance : IndependentStore Memory fun _ => True where
  read_replace_of_eq := by
    intro memory changed path other existing content _ _ _ hreplace hpath
    cases hreplace
    rw [read_eq, ← get?_congr _ hpath, get?_put_self]
  read_replace_of_ne := by
    intro memory changed path other existing content _ _ _ hreplace hpath
    cases hreplace
    rw [read_eq, read_eq, get?_put_of_ne memory content hpath]
  answer_replace_of_ne := by
    intro memory changed path other existing content _ _ _ _ _ text
    rfl

end Memory

namespace Procedure

variable {α σ : Type}

/-! ### Attempts -/

/-- A replacement that was asked for. -/
structure Attempt where
  /-- The file. -/
  path : Path
  /-- The text it was to hold. -/
  content : Text
  /-- What the store answered. -/
  answer : Except WriteFault Unit

/-- Whether the replacement took place. -/
def Attempt.succeeded (attempt : Attempt) : Bool :=
  match attempt.answer with
  | .ok () => true
  | .error _ => false

/-- The replacements that a procedure asks for on a store, in order. -/
def attempts [Store σ] : Procedure α → σ → List Attempt
  | done _, _ => []
  | read path next, store => (next (Store.read store path)).attempts store
  | probe path next, store => (next (Store.probe store path)).attempts store
  | replace path content next, store =>
    match Store.replace store path content with
    | .ok changed => ⟨path, content, .ok ()⟩ :: (next (.ok ())).attempts changed
    | .error fault => ⟨path, content, .error fault⟩ :: (next (.error fault)).attempts store

/-- A procedure that is done asks for no replacement. -/
@[simp] theorem attempts_done [Store σ] (result : α) (store : σ) :
    (done result).attempts store = [] := rfl

/-- The files that a run reports as replaced are those of the attempts that succeeded. -/
theorem replaced_run [Store σ] (p : Procedure α) (store : σ) :
    (p.run store).replaced = ((p.attempts store).filter Attempt.succeeded).map Attempt.path := by
  induction p generalizing store with
  | done result => rfl
  | read path next ih => exact ih _ store
  | probe path next ih => exact ih _ store
  | replace path content next ih =>
    simp only [run, attempts]
    cases Store.replace store path content with
    | error fault =>
      rw [List.filter_cons_of_neg (by simp [Attempt.succeeded]), ← ih]
    | ok changed =>
      rw [List.filter_cons_of_pos rfl, List.map_cons, ← ih]
      rfl

/-! ### Reading first -/

/-- What is left of a procedure when `view` has answered the readings that it starts with. -/
def afterReads (view : Path → Except FileFault Text) : Procedure α → Procedure α
  | done result => done result
  | read path next => (next (view path)).afterReads view
  | probe path next => probe path next
  | replace path content next => replace path content next

/-- A procedure that is done has nothing to read. -/
@[simp] theorem afterReads_done (view : Path → Except FileFault Text) (result : α) :
    (done result).afterReads view = done result := rfl

/-- A reading is answered by the view. -/
@[simp] theorem afterReads_read (view : Path → Except FileFault Text) (path : Path)
    (next : Except FileFault Text → Procedure α) :
    (read path next).afterReads view = (next (view path)).afterReads view := rfl

/-- The readings that a procedure starts with end at a replacement. -/
@[simp] theorem afterReads_replace (view : Path → Except FileFault Text) (path : Path)
    (content : Text) (next : Except WriteFault Unit → Procedure α) :
    (replace path content next).afterReads view = replace path content next := rfl

/-- What is left after the readings has the same run. -/
theorem run_afterReads [Store σ] (p : Procedure α) (store : σ) :
    (p.afterReads (Store.read store)).run store = p.run store := by
  induction p with
  | done result => rfl
  | read path next ih => exact ih _
  | probe path next => rfl
  | replace path content next => rfl

/-- What is left after the readings asks for the same replacements. -/
theorem attempts_afterReads [Store σ] (p : Procedure α) (store : σ) :
    (p.afterReads (Store.read store)).attempts store = p.attempts store := by
  induction p with
  | done result => rfl
  | read path next ih => exact ih _
  | probe path next => rfl
  | replace path content next => rfl

/-- Whether the readings that a procedure starts with, whatever the answers, are of files in
`paths`. -/
def ReadsWithin (paths : List Path) : Procedure α → Prop
  | read path next => path ∈ paths ∧ ∀ answer, (next answer).ReadsWithin paths
  | done _ | probe _ _ | replace _ _ _ => True

end Procedure

end ExplicitInstantiation
