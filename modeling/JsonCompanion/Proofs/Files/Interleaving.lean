import Mathlib.Data.List.Perm.Basic
import JsonCompanion.Proofs.Files.Footprint

/-!
# Tasks side by side

Tasks that write nothing that another one touches do not notice each other.

* `Apart` says so of footprints, one for each task.
* `EndsAlone` compares the end of tasks that run side by side with what each of them does alone.
  `EndsAlone.of_stepAt` is a single access of any task.
* `endsAlone_runUnder`: under every schedule each task has the result that it has alone, each file
  has the text that its owner gives it alone, and the paths written are those that the tasks write
  alone.
-/

namespace JsonCompanion

/-- The paths that a task may access, and those among them that it may write. -/
structure Footprint where
  paths : List Text
  writable : List Text
  writable_subset : writable ⊆ paths

open scoped List

namespace FileTask

variable {α : Type} {foot : Nat → Footprint} {tasks : List (FileTask α)} {files : Files}

/-- No task may access what another one may write. -/
def Apart (foot : Nat → Footprint) : Prop :=
  ∀ i j, i ≠ j → ∀ path ∈ (foot i).writable, path ∉ (foot j).paths

/-- Each task keeps to its footprint. -/
def AllKeep (foot : Nat → Footprint) (tasks : List (FileTask α)) : Prop :=
  ∀ (k : Nat) (task : FileTask α), tasks[k]? = some task → task.KeepsTo (foot k).paths (foot k).writable

/-- All paths that tasks write when each of them runs alone. -/
def allWrites (tasks : List (FileTask α)) (files : Files) : List Text :=
  tasks.flatMap fun task => task.writes files

/-- Tasks have come to an end as if each had run alone: with the same results and the same texts of
its files, with the same paths written by all of them, and with no other file changed. -/
structure EndsAlone (foot : Nat → Footprint) (tasks : List (FileTask α)) (files : Files)
    (results : List α) (final : Files) : Prop where
  results_eq : results = tasks.map fun task => (task.run files).1
  failing_eq : final.failing = files.failing
  text?_own : ∀ (k : Nat) (task : FileTask α), tasks[k]? = some task →
    ∀ path ∈ (foot k).writable, final.text? path = (task.run files).2.text? path
  text?_rest : ∀ path, (∀ k < tasks.length, path ∉ (foot k).writable) →
    final.text? path = files.text? path
  written_perm : final.written ~ files.written ++ allWrites tasks files
  written_prefix : files.written <+: final.written

/-! ### What other tasks notice -/

/-- What one task does in a step, another one does not notice. -/
private theorem agree_step (hapart : Apart foot) {i k : Nat} (hne : i ≠ k) {task : FileTask α}
    (hkeeps : task.KeepsTo (foot i).paths (foot i).writable) (files : Files) :
    (task.step files).2.Agree (foot k).paths files :=
  ⟨failing_step task files, fun path hpath => text?_step hkeeps files fun hwritable =>
    hapart i k hne path hwritable hpath⟩

private theorem agree_run (hapart : Apart foot) {i k : Nat} (hne : i ≠ k) {task : FileTask α}
    (hkeeps : task.KeepsTo (foot i).paths (foot i).writable) (files : Files) :
    (task.run files).2.Agree (foot k).paths files :=
  ⟨failing_run task files, fun path hpath => text?_run hkeeps files fun hwritable =>
    hapart i k hne path hwritable hpath⟩

/-- Tasks that notice no difference have the same results and write the same paths. -/
private theorem alike (others : List (FileTask α)) {files' : Files}
    (h : ∀ other ∈ others, ∃ k, other.KeepsTo (foot k).paths (foot k).writable ∧
      files'.Agree (foot k).paths files) :
    (others.map fun task => (task.run files').1) = (others.map fun task => (task.run files).1) ∧
      allWrites others files' = allWrites others files := by
  constructor
  · refine List.map_congr_left fun other hother => ?_
    obtain ⟨k, hkeeps, hagree⟩ := h other hother
    exact (run_agree hkeeps hagree).1
  · refine List.flatMap_congr fun other hother => ?_
    obtain ⟨k, hkeeps, hagree⟩ := h other hother
    exact (run_agree hkeeps hagree).2.1

/-! ### One access -/

private theorem stepAt_split (before behind : List (FileTask α)) (task : FileTask α) (files : Files) :
    stepAt before.length (before ++ task :: behind) files =
      (before ++ (task.step files).1 :: behind, (task.step files).2) := by
  induction before with
  | nil => rfl
  | cons first before ih => simp [stepAt, ih]

private theorem stepAt_of_le {i : Nat} (h : tasks.length ≤ i) :
    stepAt i tasks files = (tasks, files) := by
  induction tasks generalizing i with
  | nil => cases i <;> rfl
  | cons first tasks ih =>
    cases i with
    | zero => simp at h
    | succ i => simp [stepAt, ih (by simpa using h)]

/-- The task at a position after a step of one task is that one, or it was there before. -/
private theorem split_at (before behind : List (FileTask α)) (task moved : FileTask α) (k : Nat) :
    (k = before.length ∧ (before ++ task :: behind)[k]? = some task ∧
        (before ++ moved :: behind)[k]? = some moved) ∨
      (before.length ≠ k ∧ (before ++ moved :: behind)[k]? = (before ++ task :: behind)[k]?) := by
  by_cases h : before.length = k
  · subst h
    simp
  · refine .inr ⟨h, ?_⟩
    rcases Nat.lt_or_gt_of_ne h with hlt | hgt
    · rw [List.getElem?_append_right (Nat.le_of_lt hlt), List.getElem?_append_right (Nat.le_of_lt hlt)]
      obtain ⟨d, hd⟩ : ∃ d, k - before.length = d + 1 := ⟨k - before.length - 1, by omega⟩
      simp [hd]
    · rw [List.getElem?_append_left hgt, List.getElem?_append_left hgt]

private theorem AllKeep.others {before behind : List (FileTask α)} {task : FileTask α}
    (hkeep : AllKeep foot (before ++ task :: behind)) {other : FileTask α}
    (hother : other ∈ before ∨ other ∈ behind) :
    ∃ k, before.length ≠ k ∧ other.KeepsTo (foot k).paths (foot k).writable := by
  rcases hother with hother | hother
  · obtain ⟨k, hk⟩ := List.getElem?_of_mem hother
    have hlt : k < before.length := (List.getElem?_eq_some_iff.1 hk).1
    exact ⟨k, by omega, hkeep k other (by rwa [List.getElem?_append_left hlt])⟩
  · obtain ⟨k, hk⟩ := List.getElem?_of_mem hother
    refine ⟨before.length + (k + 1), by omega, hkeep _ other ?_⟩
    rw [List.getElem?_append_right (by omega)]
    simpa using hk

theorem AllKeep.stepAt (hkeep : AllKeep foot tasks) (files : Files) (i : Nat) :
    AllKeep foot (stepAt i tasks files).1 := by
  rcases Nat.lt_or_ge i tasks.length with hi | hi
  · obtain ⟨before, task, behind, rfl, rfl⟩ : ∃ before task behind, tasks = before ++ task :: behind ∧
        before.length = i :=
          ⟨tasks.take i, tasks[i], tasks.drop (i + 1), by simp, by simp [Nat.le_of_lt hi]⟩
    rw [stepAt_split]
    intro k after hk
    rcases split_at before behind task (task.step files).1 k with
      ⟨rfl, htask, hmoved⟩ | ⟨-, heq⟩
    · obtain rfl := Option.some.inj (hmoved.symm.trans hk)
      exact (hkeep _ task htask).step files
    · exact hkeep k after (heq ▸ hk)
  · rwa [stepAt_of_le hi]

/-- Tasks that come to such an end after a single access of any of them do so before it. -/
theorem EndsAlone.of_stepAt (hapart : Apart foot) (hkeep : AllKeep foot tasks) {i : Nat}
    {results : List α} {final : Files}
    (h : EndsAlone foot (stepAt i tasks files).1 (stepAt i tasks files).2 results final) :
    EndsAlone foot tasks files results final := by
  rcases Nat.lt_or_ge i tasks.length with hi | hi
  swap
  · rwa [stepAt_of_le hi] at h
  obtain ⟨before, task, behind, rfl, rfl⟩ : ∃ before task behind, tasks = before ++ task :: behind ∧
      before.length = i :=
        ⟨tasks.take i, tasks[i], tasks.drop (i + 1), by simp, by simp [Nat.le_of_lt hi]⟩
  have htask := hkeep before.length task (by simp)
  rw [stepAt_split] at h
  have hnotice : ∀ {k}, before.length ≠ k → (task.step files).2.Agree (foot k).paths files :=
    fun hne => agree_step hapart hne htask files
  obtain ⟨hbefore, hbefore'⟩ := alike before fun other hother =>
    (hkeep.others (.inl hother)).imp fun k hk => ⟨hk.2, hnotice hk.1⟩
  obtain ⟨hbehind, hbehind'⟩ := alike behind fun other hother =>
    (hkeep.others (.inr hother)).imp fun k hk => ⟨hk.2, hnotice hk.1⟩
  constructor
  case results_eq =>
    rw [h.results_eq]
    simp only [List.map_append, List.map_cons, run_step, hbefore, hbehind]
  case failing_eq => exact h.failing_eq.trans (failing_step task files)
  case text?_own =>
    intro k owner hk path hpath
    rcases split_at before behind task (task.step files).1 k with
      ⟨rfl, hat, hmoved⟩ | ⟨hne, heq⟩
    · obtain rfl := Option.some.inj (hat.symm.trans hk)
      rw [h.text?_own _ _ hmoved path hpath, run_step]
    · rw [h.text?_own k owner (heq.trans hk) path hpath]
      exact (run_agree (hkeep k owner hk) (hnotice hne)).2.2.text? path ((foot k).writable_subset hpath)
  case text?_rest =>
    intro path hpath
    rw [h.text?_rest path (by simpa using hpath)]
    exact text?_step htask files (hpath before.length (by simp))
  case written_perm =>
    refine h.written_perm.trans ?_
    have hmoved := written_step task files
    -- what the task has written moves from behind the tasks before it to the front
    calc (task.step files).2.written ++
      allWrites (before ++ (task.step files).1 :: behind) (task.step files).2
        = (task.step files).2.written ++ (allWrites before files ++
            ((task.step files).1.writes (task.step files).2 ++ allWrites behind files)) := by
          rw [← hbefore', ← hbehind']
          simp [allWrites]
      _ ~ (task.step files).2.written ++ ((task.step files).1.writes (task.step files).2 ++
            (allWrites before files ++ allWrites behind files)) :=
          List.perm_append_comm_assoc _ _ _ |>.append_left _
      _ = files.written ++
        (task.writes files ++ (allWrites before files ++ allWrites behind files)) := by
          rw [← List.append_assoc, hmoved, List.append_assoc]
      _ ~ files.written ++ (allWrites before files ++ (task.writes files ++ allWrites behind files)) :=
          List.perm_append_comm_assoc _ _ _ |>.append_left _
      _ = files.written ++ allWrites (before ++ task :: behind) files := by simp [allWrites]

  case written_prefix => exact (written_prefix_step task files).trans h.written_prefix

/-! ### Whole runs -/

theorem AllKeep.tail {task : FileTask α} (hkeep : AllKeep foot (task :: tasks)) :
    AllKeep (fun k => foot (k + 1)) tasks :=
  fun k other hk => hkeep (k + 1) other (by simpa using hk)

/-- Tasks that run one after another. -/
theorem endsAlone_runAll (hapart : Apart foot) (hkeep : AllKeep foot tasks) :
    EndsAlone foot tasks files (runAll tasks files).1 (runAll tasks files).2 := by
  induction tasks generalizing foot files with
  | nil => constructor <;> simp [runAll, allWrites]
  | cons task tasks ih =>
    have htask := hkeep 0 task rfl
    have happart' : Apart fun k => foot (k + 1) := fun i j hne => hapart (i + 1) (j + 1) (by omega)
    have hrest := @ih _ (task.run files).2 happart' hkeep.tail
    -- the first task writes nothing that a later one notices
    have hnotice : ∀ k, (task.run files).2.Agree (foot (k + 1)).paths files :=
      fun k => agree_run hapart (by omega) htask files
    obtain ⟨hresults, hwrites⟩ := alike tasks fun other hother => by
      obtain ⟨k, hk⟩ := List.getElem?_of_mem hother
      exact ⟨k + 1, hkeep.tail k other hk, hnotice k⟩
    constructor
    case results_eq => simp [runAll, hrest.results_eq, hresults]
    case failing_eq => exact hrest.failing_eq.trans (failing_run task files)
    case text?_own =>
      intro k owner hk path hpath
      cases k with
      | zero =>
        obtain rfl : task = owner := by simpa using hk
        -- no later task writes what the first one owns
        refine hrest.text?_rest path fun k _ hother => ?_
        exact hapart 0 (k + 1) (by omega) path hpath ((foot (k + 1)).writable_subset hother)
      | succ k =>
        have howner : tasks[k]? = some owner := by simpa using hk
        rw [show (runAll (task :: tasks) files).2 = (runAll tasks (task.run files).2).2 from rfl,
          hrest.text?_own k owner howner path hpath]
        exact (run_agree (hkeep.tail k owner howner) (hnotice k)).2.2.text? path
          ((foot (k + 1)).writable_subset hpath)
    case text?_rest =>
      intro path hpath
      refine (hrest.text?_rest path fun k hk => hpath (k + 1) (by simpa using hk)).trans ?_
      exact text?_run htask files (hpath 0 (by simp))
    case written_perm =>
      refine hrest.written_perm.trans (.of_eq ?_)
      rw [written_run, hwrites]
      simp [allWrites]
    case written_prefix => exact (written_prefix_run task files).trans hrest.written_prefix

/-- Tasks that run under any schedule. -/
theorem endsAlone_runUnder (hapart : Apart foot) (hkeep : AllKeep foot tasks) (schedule : List Nat) :
    EndsAlone foot tasks files (runUnder schedule tasks files).1 (runUnder schedule tasks files).2 := by
  induction schedule generalizing tasks files with
  | nil => exact endsAlone_runAll hapart hkeep
  | cons i schedule ih => exact .of_stepAt hapart hkeep (ih (hkeep.stepAt files i))

/-! ### Tasks for items -/

variable {β : Type}

/-- The tasks for some items have come to an end as if each had run alone. -/
structure DoneAlone (foot : β → Footprint) (task : β → FileTask α) (items : List β) (files : Files)
    (results : List α) (final : Files) : Prop where
  results_eq : results = items.map fun item => ((task item).run files).1
  failing_eq : final.failing = files.failing
  text?_own : ∀ item ∈ items, ∀ path ∈ (foot item).writable,
    final.text? path = ((task item).run files).2.text? path
  text?_rest : ∀ path, (∀ item ∈ items, path ∉ (foot item).writable) →
    final.text? path = files.text? path
  written_eq : ∃ new, final.written = files.written ++ new ∧ new ~ items.flatMap fun item =>
    (task item).writes files

/-- Tasks for different items, none of which touches what another one may write, run by any scheduler. -/
theorem doneAlone_runBy {foot : β → Footprint} {task : β → FileTask α} {items : List β}
    (hnodup : items.Nodup)
    (hkeeps : ∀ item ∈ items, (task item).KeepsTo (foot item).paths (foot item).writable)
    (hapart : ∀ a ∈ items, ∀ b ∈ items, a ≠ b → ∀ path ∈ (foot a).writable, path ∉ (foot b).paths)
    (scheduler : Scheduler) (files : Files) :
    DoneAlone foot task items files (runBy scheduler (items.map task) files).1
      (runBy scheduler (items.map task) files).2 := by
  -- footprints by position, as for tasks that take turns
  let foot' : Nat → Footprint := fun k => (items[k]?.map foot).getD ⟨[], [], by simp⟩
  have hfoot : ∀ {k item}, items[k]? = some item → foot' k = foot item := fun h => by simp [foot', h]
  have hkeep' : AllKeep foot' (items.map task) := by
    intro k owner hk
    obtain ⟨item, hitem, rfl⟩ := Option.map_eq_some_iff.1 (List.getElem?_map ▸ hk)
    rw [hfoot hitem]
    exact hkeeps item (List.mem_of_getElem? hitem)
  have hapart' : Apart foot' := by
    intro i j hne path hi hj
    rcases hitem : items[i]? with _ | a
    · simp [foot', hitem] at hi
    rcases hother : items[j]? with _ | b
    · simp [foot', hother] at hj
    rw [hfoot hitem] at hi
    rw [hfoot hother] at hj
    refine hapart a (List.mem_of_getElem? hitem) b (List.mem_of_getElem? hother) ?_ path hi hj
    rintro rfl
    exact hne ((List.getElem?_inj (List.getElem?_eq_some_iff.1 hitem).1 hnodup).1
      (hitem.trans hother.symm))
  have h : EndsAlone foot' (items.map task) files _ _ :=
    endsAlone_runUnder hapart' hkeep' (scheduler (items.map task).length)
  constructor
  case results_eq => exact h.results_eq.trans List.map_map
  case failing_eq => exact h.failing_eq
  case text?_own =>
    intro item hitem path hpath
    obtain ⟨k, hk⟩ := List.getElem?_of_mem hitem
    exact h.text?_own k (task item) (by simp [hk]) path (hfoot hk ▸ hpath)
  case text?_rest =>
    intro path hpath
    refine h.text?_rest path fun k hk hmem => ?_
    obtain ⟨item, hitem⟩ : ∃ item, items[k]? = some item :=
      ⟨items.get ⟨k, by simpa using hk⟩, by simp⟩
    exact hpath item (List.mem_of_getElem? hitem) (hfoot hitem ▸ hmem)
  case written_eq =>
    obtain ⟨new, hnew⟩ := h.written_prefix
    refine ⟨new, hnew.symm, ?_⟩
    have hperm := h.written_perm
    rw [← hnew, List.perm_append_left_iff] at hperm
    simpa [allWrites, List.flatMap_map] using hperm

/-- Paths that no task writes keep their texts. -/
theorem DoneAlone.text?_of_not_mem {foot : β → Footprint} {task : β → FileTask α} {items : List β}
    {results : List α} {final : Files} (h : DoneAlone foot task items files results final) {path : Text}
    (hpath : path ∉ items.flatMap fun item => (task item).writes files) :
    final.text? path = files.text? path := by
  by_cases hown : ∃ item ∈ items, path ∈ (foot item).writable
  · obtain ⟨item, hitem, hfoot⟩ := hown
    rw [h.text?_own item hitem path hfoot]
    exact text?_run_of_not_mem _ fun hmem => hpath (List.mem_flatMap.2 ⟨item, hitem, hmem⟩)
  · exact h.text?_rest path fun item hitem hfoot => hown ⟨item, hitem, hfoot⟩

/-- Where tasks run alone on files with the same texts, they have the same results and leave the
same texts. -/
theorem DoneAlone.unique {foot : β → Footprint} {task : β → FileTask α} {items : List β}
    {files files' : Files} {results results' : List α} {final final' : Files}
    (hkeeps : ∀ item ∈ items, (task item).KeepsTo (foot item).paths (foot item).writable)
    (hsame : ∀ paths, files.Agree paths files') (h : DoneAlone foot task items files results final)
    (h' : DoneAlone foot task items files' results' final') :
    results = results' ∧ ∀ paths, final.Agree paths final' := by
  constructor
  · rw [h.results_eq, h'.results_eq]
    exact List.map_congr_left fun item hitem => (run_agree (hkeeps item hitem) (hsame _)).1
  · refine fun paths =>
      ⟨h.failing_eq.trans ((hsame []).failing.trans h'.failing_eq.symm), fun path _ => ?_⟩
    by_cases hown : ∃ item ∈ items, path ∈ (foot item).writable
    · obtain ⟨item, hitem, hpath⟩ := hown
      rw [h.text?_own item hitem path hpath, h'.text?_own item hitem path hpath]
      exact (run_agree (hkeeps item hitem) (hsame _)).2.2.text? path ((foot item).writable_subset hpath)
    · have hrest : ∀ item ∈ items, path ∉ (foot item).writable :=
        fun item hitem hpath => hown ⟨item, hitem, hpath⟩
      rw [h.text?_rest path hrest, h'.text?_rest path hrest]
      exact (hsame [path]).text? path (by simp)

end FileTask

end JsonCompanion
