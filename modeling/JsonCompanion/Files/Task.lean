import JsonCompanion.Files.Basic

/-!
# Tasks on files

A `FileTask` accesses files one after another and ends with a result.

* `FileTask.run` lets a task run to its end.
* `FileTask.interleave` lets tasks make single accesses in the order of a schedule, and
  `FileTask.runAll` then lets each run to its end.
* `FileTask.runBy` runs tasks by a scheduler; `FileTask.turns` schedules in rounds, in which every
  task makes one access, and `FileTask.inOrder` lets the tasks run one after another.
-/

namespace JsonCompanion

/-- A computation that accesses files; what it does next depends on what it finds. -/
inductive FileTask (α : Type)
  | done (result : α)
  | read (path : Text) (next : Except Text Text → FileTask α)
  | write (path text : Text) (next : Except Text Unit → FileTask α)

namespace FileTask

variable {α : Type}

/-- The files after an attempt to write, and whether it succeeded. -/
def attemptWrite (files : Files) (path text : Text) : Except Text Unit × Files :=
  match files.write path text with
  | .ok written => (.ok (), written)
  | .error reason => (.error reason, files)

/-- Makes one access. -/
def step (files : Files) : FileTask α → FileTask α × Files
  | .done result => (.done result, files)
  | .read path next => (next (files.read path), files)
  | .write path text next =>
    let (outcome, written) := attemptWrite files path text
    (next outcome, written)

/-- Runs a task to its end. -/
def run : FileTask α → Files → α × Files
  | .done result, files => (result, files)
  | .read path next, files => run (next (files.read path)) files
  | .write path text next, files =>
    let (outcome, written) := attemptWrite files path text
    run (next outcome) written

/-- Runs tasks to their ends one after another. -/
def runAll : List (FileTask α) → Files → List α × Files
  | [], files => ([], files)
  | task :: tasks, files =>
    let (result, files) := task.run files
    let (results, files) := runAll tasks files
    (result :: results, files)

/-- Lets the task at an index make one access. -/
def stepAt : (index : Nat) → List (FileTask α) → Files → List (FileTask α) × Files
  | _, [], files => ([], files)
  | 0, task :: tasks, files =>
    let (task, files) := task.step files
    (task :: tasks, files)
  | index + 1, task :: tasks, files =>
    let (tasks, files) := stepAt index tasks files
    (task :: tasks, files)

/-- Lets tasks make accesses in the order of a schedule of indices. -/
def interleave : (schedule : List Nat) → List (FileTask α) → Files → List (FileTask α) × Files
  | [], tasks, files => (tasks, files)
  | index :: schedule, tasks, files =>
    let (tasks, files) := stepAt index tasks files
    interleave schedule tasks files

/-- The schedule in which tasks take turns for a number of rounds. -/
def rounds (count : Nat) : (number : Nat) → List Nat
  | 0 => []
  | number + 1 => List.range count ++ rounds count number

/-- Runs tasks under a schedule, then to their ends. -/
def runUnder (schedule : List Nat) (tasks : List (FileTask α)) (files : Files) : List α × Files :=
  let (tasks, files) := interleave schedule tasks files
  runAll tasks files

/-- Chooses a schedule for a number of tasks. -/
abbrev Scheduler := (count : Nat) → List Nat

/-- Tasks take turns for a number of rounds. -/
def turns (accesses : Nat) : Scheduler := fun count => rounds count accesses

/-- Each task runs to its end before the next one begins. -/
def inOrder : Scheduler := fun _ => []

/-- Runs tasks side by side, in the order that a scheduler chooses. -/
def runBy (scheduler : Scheduler) (tasks : List (FileTask α)) (files : Files) : List α × Files :=
  runUnder (scheduler tasks.length) tasks files

end FileTask

end JsonCompanion
