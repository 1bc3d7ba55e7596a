import JsonCompanion.Files.Task

/-!
# The files that a task touches

A task keeps to some paths if, whatever it finds, it accesses no other ones, and among these it
writes only some.

* `Files.Agree` says that two states of the files are the same on some paths, as far as an access
  can tell.
* `FileTask.run_agree`: what a task does alone depends on the files that it keeps to.
* `FileTask.text?_run`: a task that runs alone leaves all other files as they are.
* `FileTask.writes` lists the paths that a task writes, and `FileTask.written_run` says that the
  files remember them.
-/

namespace JsonCompanion

namespace Files

/-! ### Single accesses -/

theorem lookup?_assign {α : Type} {key path : Text} {value : α} {pairs : List (Text × α)} :
    lookup? path (assign key value pairs) = if key = path then some value else lookup? path pairs := by
  induction pairs with
  | nil => by_cases h : key = path <;> simp [lookup?, assign, h]
  | cons pair pairs ih =>
    obtain ⟨known, old⟩ := pair
    simp only [lookup?] at ih ⊢
    by_cases hknown : known = key
    · subst hknown
      by_cases h : known = path <;> simp [assign, h]
    · by_cases h : known = path
      · subst h
        simp [assign, hknown, Ne.symm hknown]
      · simpa [assign, hknown, h] using ih

@[simp]
theorem text?_put {files : Files} {key path text : Text} :
    (files.put key text).text? path = if key = path then some text else files.text? path :=
  lookup?_assign

theorem write_eq {files : Files} {path text : Text} :
    files.write path text = match files.denial? path .write with
      | some reason => .error reason
      | none => .ok { files.put path text with written := files.written ++ [path] } := by
  unfold write
  cases files.denial? path .write <;> rfl

/-- The files are the same on some paths, and the same accesses fail. -/
structure Agree (paths : List Text) (a b : Files) : Prop where
  failing : a.failing = b.failing
  text? : ∀ path ∈ paths, a.text? path = b.text? path

theorem Agree.refl (paths : List Text) (files : Files) : Agree paths files files := ⟨rfl, fun _ _ => rfl⟩

theorem Agree.read {paths : List Text} {a b : Files} (h : Agree paths a b) {path : Text}
    (hpath : path ∈ paths) :
    a.read path = b.read path := by
  simp only [Files.read, denial?, h.failing, h.text? path hpath]

theorem Agree.put {paths : List Text} {a b : Files} (h : Agree paths a b) (path text : Text)
    (w w' : List Text) :
    Agree paths { a.put path text with written := w } { b.put path text with written := w' } := by
  refine ⟨h.failing, fun p hp => ?_⟩
  show (a.put path text).text? p = (b.put path text).text? p
  rw [text?_put, text?_put, h.text? p hp]

end Files

namespace FileTask

variable {α : Type}

/-! ### Tasks alone -/

/-- Whatever a task finds, it accesses only some paths, and it writes only some. -/
def KeepsTo (paths writable : List Text) : FileTask α → Prop
  | .done _ => True
  | .read path next => path ∈ paths ∧ ∀ found, KeepsTo paths writable (next found)
  | .write path _ next => path ∈ writable ∧ ∀ outcome, KeepsTo paths writable (next outcome)

/-- The paths that a task writes when it runs alone. -/
def writes : FileTask α → Files → List Text
  | .done _, _ => []
  | .read path next, files => writes (next (files.read path)) files
  | .write path text next, files =>
    match files.write path text with
    | .ok written => path :: writes (next (.ok ())) written
    | .error reason => writes (next (.error reason)) files

variable {paths writable : List Text} {task : FileTask α}

/-- What a task does alone depends on the files that it keeps to, and it leaves them alike. -/
theorem run_agree (hkeeps : task.KeepsTo paths writable) {a b : Files} (h : a.Agree paths b) :
    (task.run a).1 = (task.run b).1 ∧ task.writes a = task.writes b ∧
    (task.run a).2.Agree paths (task.run b).2 := by
  induction task generalizing a b with
  | done result => exact ⟨rfl, rfl, h⟩
  | read path next ih =>
    have hread := h.read hkeeps.1
    simpa only [run, writes, hread] using ih _ (hkeeps.2 _) h
  | write path text next ih =>
    have hdenial :
        a.denial? path .write = b.denial? path .write := by simp only [Files.denial?, h.failing]
    rcases hb : b.denial? path .write with _ | reason
    · obtain ⟨h₁, h₂, h₃⟩ :=
        ih (.ok ()) (hkeeps.2 _) (h.put path text (a.written ++ [path]) (b.written ++ [path]))
      simp only [run, writes, attemptWrite, Files.write_eq, hdenial, hb, h₂]
      exact ⟨h₁, trivial, h₃⟩
    · simpa only [run, writes, attemptWrite, Files.write_eq, hdenial, hb] using ih (.error reason)
        (hkeeps.2 _) h

theorem failing_run (task : FileTask α) (files : Files) :
    (task.run files).2.failing = files.failing := by
  induction task generalizing files with
  | done result => rfl
  | read path next ih => exact ih _ files
  | write path text next ih =>
    rcases hdenial : files.denial? path .write with _ | reason
    · simp only [run, attemptWrite, Files.write_eq, hdenial]
      exact ih (.ok ()) _
    · simpa only [run, attemptWrite, Files.write_eq, hdenial] using ih (.error reason) files

/-- A task that runs alone leaves the files that it does not write as they are. -/
theorem text?_run (hkeeps : task.KeepsTo paths writable) (files : Files) {path : Text}
    (hpath : path ∉ writable) :
    (task.run files).2.text? path = files.text? path := by
  induction task generalizing files with
  | done result => rfl
  | read place next ih => exact ih _ (hkeeps.2 _) files
  | write place text next ih =>
    rcases hdenial : files.denial? place .write with _ | reason
    · have hne : place ≠ path := fun heq => hpath (heq ▸ hkeeps.1)
      simp only [run, attemptWrite, Files.write_eq, hdenial]
      rw [ih (.ok ()) (hkeeps.2 _)]
      show (files.put place text).text? path = _
      rw [Files.text?_put, if_neg hne]
    · simpa only [run, attemptWrite, Files.write_eq, hdenial] using ih (.error reason) (hkeeps.2 _) files

/-- The files remember what a task has written. -/
theorem written_run (task : FileTask α) (files : Files) :
    (task.run files).2.written = files.written ++ task.writes files := by
  induction task generalizing files with
  | done result => simp [run, writes]
  | read path next ih => exact ih _ files
  | write path text next ih =>
    rcases hdenial : files.denial? path .write with _ | reason
    · simp [run, writes, attemptWrite, Files.write_eq, hdenial, ih]
    · simp [run, writes, attemptWrite, Files.write_eq, hdenial, ih]

theorem text?_run_of_not_mem (task : FileTask α) {files : Files} {path : Text}
    (hpath : path ∉ task.writes files) :
    (task.run files).2.text? path = files.text? path := by
  induction task generalizing files with
  | done result => rfl
  | read place next ih => exact ih _ hpath
  | write place text next ih =>
    rcases hdenial : files.denial? place .write with _ | reason
    · simp only [writes, Files.write_eq, hdenial, List.mem_cons, not_or] at hpath
      simp only [run, attemptWrite, Files.write_eq, hdenial]
      rw [ih (.ok ()) hpath.2]
      show (files.put place text).text? path = _
      rw [Files.text?_put, if_neg (Ne.symm hpath.1)]
    · simp only [writes, Files.write_eq, hdenial] at hpath
      simpa only [run, attemptWrite, Files.write_eq, hdenial] using ih (.error reason) hpath

theorem written_prefix_run (task : FileTask α) (files : Files) :
    files.written <+: (task.run files).2.written :=
  written_run task files ▸ List.prefix_append _ _

/-! ### Single steps -/

theorem KeepsTo.step (hkeeps : task.KeepsTo paths writable) (files : Files) :
    (task.step files).1.KeepsTo paths writable := by
  cases task with
  | done result => exact hkeeps
  | read path next => exact hkeeps.2 _
  | write path text next => exact hkeeps.2 _

/-- Behind its first access a task does what it would have done. -/
theorem run_step (task : FileTask α) (files : Files) :
    (task.step files).1.run (task.step files).2 = task.run files := by
  cases task with
  | done result => rfl
  | read path next => rfl
  | write path text next => rfl

theorem failing_step (task : FileTask α) (files : Files) :
    (task.step files).2.failing = files.failing := by
  rw [← failing_run (task.step files).1, run_step, failing_run]

theorem text?_step (hkeeps : task.KeepsTo paths writable) (files : Files) {path : Text}
    (hpath : path ∉ writable) :
    (task.step files).2.text? path = files.text? path := by
  rw [← text?_run (hkeeps.step files) _ hpath, run_step, text?_run hkeeps _ hpath]

theorem written_step (task : FileTask α) (files : Files) :
    (task.step files).2.written ++ (task.step files).1.writes (task.step files).2 =
      files.written ++ task.writes files := by
  rw [← written_run, run_step, written_run]

theorem written_prefix_step (task : FileTask α) (files : Files) :
    files.written <+: (task.step files).2.written := by
  cases task with
  | done result => exact List.prefix_rfl
  | read path next => exact List.prefix_rfl
  | write path text next =>
    rcases hdenial : files.denial? path .write with _ | reason
    · simp [step, attemptWrite, Files.write_eq, hdenial]
    · simp [step, attemptWrite, Files.write_eq, hdenial]

end FileTask

end JsonCompanion
