import Mathlib.Algebra.BigOperators.Group.List.Lemmas
import Mathlib.Algebra.GroupWithZero.Nat
import JsonCompanion.Proofs.Patch.Task

/-!
# Atomicity of patching files

A file gets all of its patches or none, in whatever order the files are accessed.

* `Patch.Course` lists how patching one file can go, with its status and the text that it has in the
  end, and `Patch.course_run` says that its task goes one of these ways; `Patch.Course.unique` that
  the file and its own patches decide which.
* `Patch.Atomic` is what becomes of all files of a batch.
* `Patch.applyBy_atomic`: patching is atomic under every scheduler, and no file notices the patches,
  the text or the failures of another one.
-/

namespace JsonCompanion

namespace Patch

variable {files files' : Files} {path : Text} {own : List Patch} {status status' : PatchStatus}
  {after after' : Option Text}

/-! ### One file -/

/-- Why the patches of a file are not put into it: it cannot be read, a range is refused, or it
cannot be written. -/
inductive Fails (files : Files) (path : Text) (own : List Patch) : Failure → Prop
  | reading {reason : Text} (hread : files.read path = .error reason) :
    Fails files path own (.patchFile ("Cannot read " ++ path ++ ": " ++ reason) path)
  | range {text reason : Text} (hread : files.read path = .ok text)
    (hrefused : apply path text own = .error (.patchRange reason path)) :
    Fails files path own (.patchRange reason path)
  | writing {text patched reason : Text} (hread : files.read path = .ok text)
    (hpatched : apply path text own = .ok patched) (hnew : patched ≠ text)
    (hdenied : files.denial? path .write = some reason) :
    Fails files path own (.patchFile ("Cannot write " ++ path ++ ": " ++ reason) path)

/-- The ways that patching a file can go, with its status and the text that it has in the end, if it
exists. -/
inductive Course (files : Files) (path : Text) (own : List Patch) : PatchStatus → Option Text → Prop
  | failed {failure : Failure} (hfails : Fails files path own failure) :
    Course files path own (.failed failure) (files.text? path)
  | unchanged {text : Text} (hread : files.read path = .ok text)
      (hpatched : apply path text own = .ok text) :
    Course files path own .unchanged (files.text? path)
  | written {text patched : Text} (hread : files.read path = .ok text)
      (hpatched : apply path text own = .ok patched)
    (hnew : patched ≠ text) (hadmitted : files.denial? path .write = none) :
    Course files path own .written (some patched)

/-- The access to a file and its own patches decide how patching it goes. -/
theorem Course.unique (h : Course files path own status after)
    (h' : Course files' path own status' after') (hread : files.read path = files'.read path)
    (htext : files.text? path = files'.text? path)
    (hdenial : files.denial? path .write = files'.denial? path .write) :
    status = status' ∧ after = after' := by
  have hfails : ∀ {failure failure'}, Fails files path own failure → Fails files' path own failure' →
      failure = failure' := by
    rintro _ _ (_ | _ | _) (_ | _ | _) <;> simp_all
  -- every pair of courses but two of the same kind is at odds about the text, the patches or the access
  rcases h with ⟨hfail⟩ | ⟨hread₁, hpatched₁⟩ | ⟨hread₁, hpatched₁, hnew₁, hadmitted₁⟩ <;>
    rcases h' with ⟨hfail'⟩ | ⟨hread₂, hpatched₂⟩ | ⟨hread₂, hpatched₂, hnew₂, hadmitted₂⟩
  · exact ⟨congrArg _ (hfails hfail hfail'), htext⟩
  · cases hfail <;> simp_all
  · cases hfail <;> simp_all
  · cases hfail' <;> simp_all
  · exact ⟨rfl, htext⟩
  · simp_all
  · cases hfail' <;> simp_all
  · simp_all
  · simp_all

/-- A refused range is the only failure of a batch. -/
theorem applyInOrder_error {previous : Option Nat} {text : Text} {patches : List Patch}
    {failure : Failure} (h : applyInOrder path previous text patches = .error failure) :
    ∃ reason, failure = .patchRange reason path := by
  induction patches generalizing previous text with
  | nil => cases h
  | cons patch patches ih =>
    rw [applyInOrder] at h
    split at h
    · exact ⟨_, (Except.error.inj h).symm⟩
    · split at h
      · exact ⟨_, (Except.error.inj h).symm⟩
      · exact ih h

/-- The task of a file, alone. -/
theorem course_run (files : Files) (path : Text) (own : List Patch) :
    Course files path own ((fileTask path own).run files).1
      (((fileTask path own).run files).2.text? path) := by
  rcases hread : files.read path with reason | text
  · simp only [fileTask, FileTask.run, hread]
    exact .failed (.reading hread)
  rcases hpatched : apply path text own with failure | patched
  · obtain ⟨reason, rfl⟩ := applyInOrder_error hpatched
    simp only [fileTask, FileTask.run, hread, hpatched]
    exact .failed (.range hread hpatched)
  by_cases hnew : patched = text
  · subst hnew
    simp only [fileTask, writeBack, FileTask.run, hread, hpatched, beq_self_eq_true, if_true]
    exact .unchanged hread hpatched
  have hbeq : (patched == text) = false := by simpa using hnew
  simp only [fileTask, writeBack, FileTask.run, hread, hpatched, hbeq, Bool.false_eq_true, if_false,
    FileTask.attemptWrite, Files.write_eq]
  rcases hdenial : files.denial? path .write with _ | reason
  · have htext :
        (files.put path patched).text? path = some patched := by rw [Files.text?_put, if_pos rfl]
    exact htext ▸ .written hread hpatched hnew hdenial
  · exact .failed (.writing hread hpatched hnew hdenial)

/-- What becomes of a file with its own patches: its status, and the text that it has in the end, if
it exists. -/
structure Settled (files : Files) (path : Text) (own : List Patch) (status : PatchStatus)
    (after : Option Text) :
    Prop where
  failed_iff : ∀ failure, status = .failed failure ↔ Fails files path own failure
  unchanged_iff : status = .unchanged ↔ ∃ text, files.read path = .ok text ∧
    apply path text own = .ok text
  written_iff : status = .written ↔ ∃ text patched, files.read path = .ok text ∧
    apply path text own = .ok patched ∧ patched ≠ text ∧ files.denial? path .write = none
  patched : ∀ text patched, files.read path = .ok text → apply path text own = .ok patched →
    files.denial? path .write = none → after = some patched
  kept : status ≠ .written → after = files.text? path

theorem text?_of_read {text : Text} (h : files.read path = .ok text) : files.text? path = some text := by
  unfold Files.read at h
  split at h
  · cases h
  · simp_all
  · cases h

theorem Course.settled (h : Course files path own status after) :
    Settled files path own status after := by
  -- the courses exclude each other, so that the status tells which one was taken
  have hunique : ∀ {status' after'}, Course files path own status' after' → status = status' ∧
      after = after' :=
    fun h' => h.unique h' rfl rfl rfl
  constructor
  case failed_iff =>
    refine fun failure => ⟨?_, fun hfails => (hunique (.failed hfails)).1⟩
    rintro rfl
    cases h
    assumption
  case unchanged_iff =>
    refine ⟨?_, fun ⟨text, hread, hpatched⟩ => (hunique (.unchanged hread hpatched)).1⟩
    rintro rfl
    cases h with
    | unchanged hread hpatched => exact ⟨_, hread, hpatched⟩
  case written_iff =>
    refine ⟨?_, fun ⟨text, patched, hread, hpatched, hnew, hadmitted⟩ =>
      (hunique (.written hread hpatched hnew hadmitted)).1⟩
    rintro rfl
    cases h with
    | written hread hpatched hnew hadmitted => exact ⟨_, _, hread, hpatched, hnew, hadmitted⟩
  case patched =>
    intro text patched hread hpatched hadmitted
    by_cases hnew : patched = text
    · subst hnew
      rw [(hunique (.unchanged hread hpatched)).2, text?_of_read hread]
    · exact (hunique (.written hread hpatched hnew hadmitted)).2
  case kept =>
    intro hstatus
    cases h with
    | failed _ => rfl
    | unchanged _ _ => rfl
    | written _ _ _ _ => exact absurd rfl hstatus

/-! ### All files -/

/-- What becomes of the files of a batch: each one that is named has one result and is settled by
its own patches alone, whose task accesses no other file; the others are left as they are, and a
file is written, once, exactly if its result says so. -/
structure Atomic (patches : List Patch) (files : Files) (results : List PatchResult)
    (final : Files) : Prop where
  firstSeen : FirstSeen (patches.map Patch.path) (results.map PatchResult.path)
  count_eq : ∀ result ∈ results, result.count = (ofFile patches result.path).length
  counts_sum : (results.map PatchResult.count).sum = patches.length
  settled : ∀ result ∈ results,
    Settled files result.path (ofFile patches result.path) result.status (final.text? result.path)
  keepsTo : ∀ result ∈ results,
    (fileTask result.path (ofFile patches result.path)).KeepsTo [result.path] [result.path]
  others : ∀ path, path ∉ patches.map Patch.path → final.text? path = files.text? path
  failing_eq : final.failing = files.failing
  written_eq : ∃ new, final.written = files.written ++ new ∧ new.Nodup ∧
    ∀ path, path ∈ new ↔ ∃ result ∈ results, result.status = .written ∧ result.path = path

/-- Two batches have the same patches for a file, which has the same text in two states of the files
and admits the same accesses. -/
structure SameFor (path : Text) (patches patches' : List Patch) (files files' : Files) : Prop where
  ofFile_eq : ofFile patches path = ofFile patches' path
  text?_eq : files.text? path = files'.text? path
  denial?_eq : ∀ access, files.denial? path access = files'.denial? path access

/-- The result that a run has for a file, if it has one, and the text of the file in the end. -/
def endOf (path : Text) (run : List PatchResult × Files) : Option PatchResult × Option Text :=
  (run.1.find? fun result => result.path == path, run.2.text? path)

theorem mem_pathsOf_iff_ofFile {patches : List Patch} :
    path ∈ pathsOf patches ↔ ofFile patches path ≠ [] := by
  simp [mem_pathsOf, ofFile]

/-- The numbers of patches by file add up. -/
theorem length_ofFile_sum (patches : List Patch) :
    ((pathsOf patches).map fun path => (ofFile patches path).length).sum = patches.length := by
  have hperm : (pathsOf patches).Perm (patches.map Patch.path).dedup :=
    (List.perm_ext_iff_of_nodup (pathsOf_nodup patches) (List.nodup_dedup _)).2 fun path => by
      simp [pathsOf_eq]
  have hcount : ∀ path, (ofFile patches path).length = (patches.map Patch.path).count path :=
    fun path => by
    rw [ofFile, ← List.countP_eq_length_filter, List.count, List.countP_map]
    rfl
  simp only [hcount]
  rw [(hperm.map _).sum_eq]
  have hsum := List.sum_map_count_dedup_eq_length (patches.map Patch.path)
  rw [List.length_map] at hsum
  convert hsum
  rfl

/-- Under every scheduler a file comes to the end that its own task comes to alone. -/
theorem endOf_applyBy (scheduler : FileTask.Scheduler) (patches : List Patch) (files : Files)
    (path : Text) :
    endOf path (applyBy scheduler patches files) =
      if path ∈ pathsOf patches then
        (some ⟨path, ((fileTask path (ofFile patches path)).run files).1, (ofFile patches path).length⟩,
          ((fileTask path (ofFile patches path)).run files).2.text? path)
      else (none, files.text? path) := by
  obtain ⟨hdone, hresults⟩ := applyBy_alone scheduler patches files
  rw [endOf, hresults, List.find?_map]
  by_cases hmem : path ∈ pathsOf patches
  · have hfind : (pathsOf patches).find? (fun place => place == path) = some path := by
      obtain ⟨place, hplace⟩ : ∃ place,
        (pathsOf patches).find? (fun place => place == path) = some place :=
        Option.isSome_iff_exists.1 (List.find?_isSome.2 ⟨path, hmem, beq_self_eq_true path⟩)
      have htest := List.find?_some hplace
      rwa [eq_of_beq htest] at hplace
    rw [if_pos hmem, hdone.text?_own path hmem path (by simp [footprint])]
    exact congrArg (·, _) (congrArg (Option.map _) hfind)
  · have hfind : (pathsOf patches).find? (fun place => place == path) = none := by
      simpa using fun place hplace (heq : place = path) => hmem (heq ▸ hplace)
    rw [if_neg hmem, hdone.text?_rest path fun place hplace hown => hmem (by simp_all [footprint])]
    exact congrArg (·, _) (congrArg (Option.map _) hfind)

/-- Patching is atomic under every scheduler, and what becomes of a file hangs on no other file:
neither on the patches of others nor on their texts, on accesses that fail, or on who is scheduled
when. -/
theorem applyBy_atomic (scheduler : FileTask.Scheduler) (patches : List Patch) (files : Files) :
    Atomic patches files (applyBy scheduler patches files).1 (applyBy scheduler patches files).2 ∧
      ∀ scheduler' patches' files' path, SameFor path patches patches' files files' →
        endOf path (applyBy scheduler patches files) =
          endOf path (applyBy scheduler' patches' files') := by
  obtain ⟨hdone, hresults⟩ := applyBy_alone scheduler patches files
  have hpaths : (applyBy scheduler patches files).1.map PatchResult.path = pathsOf patches := by
    rw [hresults, List.map_map]
    exact List.map_id _
  have hfirst : FirstSeen (patches.map Patch.path) (pathsOf patches) :=
    pathsOf_eq patches ▸ distinct_firstSeen _
  refine ⟨⟨hpaths ▸ hfirst, ?_, ?_, ?_, fun _ _ => fileTask_keepsTo _ _, ?_, hdone.failing_eq, ?_⟩, ?_⟩
  case refine_1 => simp [hresults]
  case refine_2 =>
    rw [hresults, List.map_map]
    exact length_ofFile_sum patches
  case refine_3 =>
    intro result hresult
    rw [hresults] at hresult
    obtain ⟨path, hpath, rfl⟩ := List.mem_map.1 hresult
    dsimp only
    rw [hdone.text?_own path hpath path (by simp [footprint])]
    exact (course_run files path (ofFile patches path)).settled
  case refine_4 =>
    intro path hpath
    refine hdone.text?_rest path fun place hplace hown => hpath ((hfirst.mem_iff path).1 ?_)
    rwa [List.mem_singleton.1 hown]
  case refine_5 =>
    obtain ⟨new, hnew, hperm⟩ := hdone.written_eq
    refine ⟨new, hnew, hperm.nodup_iff.2 (flatMap_writes_nodup patches files), fun path => ?_⟩
    rw [hperm.mem_iff, hresults]
    simp [fileTask_writes]
  case refine_6 =>
    intro scheduler' patches' files' path hsame
    rw [endOf_applyBy, endOf_applyBy]
    have hmem : path ∈ pathsOf patches ↔ path ∈ pathsOf patches' := by
      simp only [mem_pathsOf_iff_ofFile, hsame.ofFile_eq]
    by_cases hpath : path ∈ pathsOf patches
    · have hread : files.read path = files'.read path := by
        simp only [Files.read, hsame.text?_eq, hsame.denial?_eq]
      -- the course of a file depends on its own text, denials and patches only
      obtain ⟨hstatus, htext⟩ := (course_run files path (ofFile patches path)).unique
        (hsame.ofFile_eq ▸ course_run files' path (ofFile patches' path)) hread hsame.text?_eq
          (hsame.denial?_eq _)
      rw [if_pos hpath, if_pos (hmem.1 hpath), hstatus, htext, hsame.ofFile_eq]
    · rw [if_neg hpath, if_neg fun h => hpath (hmem.2 h), hsame.text?_eq]

end Patch

end JsonCompanion
