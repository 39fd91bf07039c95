import ExplicitInstantiation.Files.Fault

/-!
# Procedures on files

What is done to files is described before it is done. A `Procedure` is a sequence of single steps,
each of which reads a file, looks whether one exists, or replaces one, and goes on with the answer.
The same procedure can be run on any `Store`, which is a value, and can be performed on a disk.

`Procedure.run` yields the result, the store afterwards, and the paths of the files that were
replaced. `Procedure.runAll` runs procedures one after the other.
-/

namespace ExplicitInstantiation

/-- Steps on files that end in a result. -/
inductive Procedure (α : Type) where
  /-- Nothing is left to do. -/
  | done (result : α)
  /-- Reads the text of a file. -/
  | read (path : Path) (next : Except FileFault Text → Procedure α)
  /-- Looks whether there is a file or directory. -/
  | probe (path : Path) (next : Except FileFault Bool → Procedure α)
  /-- Replaces the content of a file as a whole. -/
  | replace (path : Path) (content : Text) (next : Except WriteFault Unit → Procedure α)

/-- Something that keeps files. -/
class Store (σ : Type) where
  /-- The text of a file. -/
  read : σ → Path → Except FileFault Text
  /-- Whether there is a file or directory. -/
  probe : σ → Path → Except FileFault Bool
  /-- The store with the content of a file replaced. -/
  replace : σ → Path → Text → Except WriteFault σ

namespace Procedure

variable {α β σ : Type}

/-- One procedure after the other. -/
def bind : Procedure α → (α → Procedure β) → Procedure β
  | done result, after => after result
  | read path next, after => read path fun answer => (next answer).bind after
  | probe path next, after => probe path fun answer => (next answer).bind after
  | replace path content next, after =>
    replace path content fun answer => (next answer).bind after

instance : Monad Procedure where
  pure := done
  bind := bind

/-- The outcome of a procedure on a store. -/
structure Run (σ α : Type) where
  /-- The result. -/
  result : α
  /-- The store afterwards. -/
  store : σ
  /-- The files that were replaced, in order. -/
  replaced : List Path

/-- The outcome when one more file was replaced before. -/
def Run.after (run : Run σ α) (path : Path) : Run σ α :=
  { run with replaced := path :: run.replaced }

/-- Runs a procedure on a store. A replacement that fails leaves the store as it is. -/
def run [Store σ] : Procedure α → σ → Run σ α
  | done result, store => ⟨result, store, []⟩
  | read path next, store => (next (Store.read store path)).run store
  | probe path next, store => (next (Store.probe store path)).run store
  | replace path content next, store =>
    match Store.replace store path content with
    | .ok changed => ((next (.ok ())).run changed).after path
    | .error fault => (next (.error fault)).run store

/-- Runs procedures one after the other, each on the store that the one before it left. -/
def runAll [Store σ] : List (Procedure α) → σ → Run σ (List α)
  | [], store => ⟨[], store, []⟩
  | first :: rest, store =>
    let one := first.run store
    let others := runAll rest one.store
    ⟨one.result :: others.result, others.store, one.replaced ++ others.replaced⟩

/-- Procedures one after the other as one procedure. -/
def sequence : List (Procedure α) → Procedure (List α)
  | [] => done []
  | first :: rest => first.bind fun result => (sequence rest).bind fun results =>
    done (result :: results)

/-- A procedure that is done returns its result and leaves the store as it is. -/
@[simp] theorem run_done [Store σ] (result : α) (store : σ) :
    (done result).run store = ⟨result, store, []⟩ := rfl

/-- What follows a procedure runs on the store that the procedure left. -/
theorem run_bind [Store σ] (p : Procedure α) (after : α → Procedure β) (store : σ) :
    (p.bind after).run store =
      let first := p.run store
      let second := (after first.result).run first.store
      ⟨second.result, second.store, first.replaced ++ second.replaced⟩ := by
  induction p generalizing store with
  | done result => simp [bind, run]
  | read path next ih => exact ih _ store
  | probe path next ih => exact ih _ store
  | replace path content next ih =>
    simp only [bind, run]
    cases Store.replace store path content with
    | error fault => exact ih _ store
    | ok changed => simp [ih, Run.after]

/-- Procedures that are run as one do what they do one after the other. -/
theorem run_sequence [Store σ] (procedures : List (Procedure α)) (store : σ) :
    (sequence procedures).run store = runAll procedures store := by
  induction procedures generalizing store with
  | nil => rfl
  | cons first rest ih =>
    simp only [sequence, run_bind, run_done, List.append_nil, ih]
    rfl

end Procedure

end ExplicitInstantiation
