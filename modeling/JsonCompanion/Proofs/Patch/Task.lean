import Mathlib.Data.List.Nodup
import JsonCompanion.Proofs.Files.Interleaving
import JsonCompanion.Proofs.Run.Options

/-!
# Patching files side by side

Patching a file touches that file only, and different files are patched by different tasks.

* `PatchStatus.writes` are the paths that a task with a status has written.
* `Patch.flatMap_writes_nodup`: each file is written at most once.
* `Patch.applyBy_alone`: under every scheduler each file is patched as if it were the only one.
-/

namespace JsonCompanion

open scoped List

/-- The paths written by the task of a file that ends with a status. -/
def PatchStatus.writes (path : Text) : PatchStatus → List Text
  | .written => [path]
  | _ => []

@[simp]
theorem PatchStatus.mem_writes {path place : Text} {status : PatchStatus} :
    place ∈ status.writes path ↔ status = .written ∧ path = place := by
  cases status <;> simp [PatchStatus.writes, eq_comm]

namespace Patch

theorem pathsOf_eq (patches : List Patch) : pathsOf patches = distinct (patches.map Patch.path) := by
  rw [pathsOf, distinct, List.foldl_map]

theorem pathsOf_nodup (patches : List Patch) : (pathsOf patches).Nodup :=
  pathsOf_eq patches ▸ distinct_nodup _

theorem mem_pathsOf {patches : List Patch} {path : Text} :
    path ∈ pathsOf patches ↔ ∃ patch ∈ patches, patch.path = path := by
  simp [pathsOf_eq]

/-- Patching a file touches that file only. -/
def footprint (path : Text) : Footprint := ⟨[path], [path], by simp⟩

theorem fileTask_keepsTo (path : Text) (patches : List Patch) :
    (fileTask path patches).KeepsTo (footprint path).paths (footprint path).writable := by
  refine ⟨by simp [footprint], fun content => ?_⟩
  dsimp only
  split
  · trivial
  · split
    · trivial
    · unfold writeBack
      split
      · trivial
      · refine ⟨by simp [footprint], fun outcome => ?_⟩
        dsimp only
        split <;> trivial

theorem fileTask_writes (path : Text) (patches : List Patch) (files : Files) :
    (fileTask path patches).writes files = ((fileTask path patches).run files).1.writes path := by
  rcases hread : files.read path with reason | text
  · simp only [fileTask, FileTask.run, FileTask.writes, hread]
    rfl
  rcases hpatched : apply path text patches with failure | patched
  · simp only [fileTask, FileTask.run, FileTask.writes, hread, hpatched]
    rfl
  simp only [fileTask, writeBack, FileTask.run, FileTask.writes, hread, hpatched]
  by_cases hsame : (patched == text) = true
  · simp only [if_pos hsame]
    rfl
  · simp only [if_neg hsame, FileTask.run, FileTask.writes, FileTask.attemptWrite, Files.write_eq]
    cases files.denial? path .write <;> rfl

/-- Each file is written at most once. -/
theorem flatMap_writes_nodup (patches : List Patch) (files : Files) :
    ((pathsOf patches).flatMap fun path =>
      (fileTask path (ofFile patches path)).writes files).Nodup := by
  refine List.nodup_flatMap.2
    ⟨fun path _ => ?_, (pathsOf_nodup patches).imp fun hne place hplace hplace' => ?_⟩
  · rw [fileTask_writes]
    cases ((fileTask path (ofFile patches path)).run files).1 <;> simp [PatchStatus.writes]
  · simp only [fileTask_writes, PatchStatus.mem_writes] at hplace hplace'
    exact hne (hplace.2.trans hplace'.2.symm)

/-- Under every scheduler each file is patched as if it were the only one. -/
theorem applyBy_alone (scheduler : FileTask.Scheduler) (patches : List Patch) (files : Files) :
    FileTask.DoneAlone footprint (fun path => fileTask path (ofFile patches path))
      (pathsOf patches) files
        ((applyBy scheduler patches files).1.map PatchResult.status)
          (applyBy scheduler patches files).2 ∧
      (applyBy scheduler patches files).1 = (pathsOf patches).map fun path =>
        ⟨path, ((fileTask path (ofFile patches path)).run files).1, (ofFile patches path).length⟩ := by
  have hapart : ∀ a ∈ pathsOf patches, ∀ b ∈ pathsOf patches, a ≠ b →
      ∀ path ∈ (footprint a).writable, path ∉ (footprint b).paths := by
    intro a _ b _ hne path ha hb
    simp only [footprint, List.mem_singleton] at ha hb
    exact hne (ha.symm.trans hb)
  obtain ⟨statuses, hdone, hzip⟩ : ∃ statuses,
      FileTask.DoneAlone footprint (fun path => fileTask path (ofFile patches path))
        (pathsOf patches) files statuses
        (applyBy scheduler patches files).2 ∧
      (applyBy scheduler patches files).1 = ((pathsOf patches).zip statuses).map fun result =>
        ⟨result.1, result.2, (ofFile patches result.1).length⟩ :=
    ⟨_, FileTask.doneAlone_runBy (pathsOf_nodup patches) (fun path _ => fileTask_keepsTo path _)
      hapart scheduler files, rfl⟩
  have hresults : (applyBy scheduler patches files).1 = (pathsOf patches).map fun path =>
      ⟨path, ((fileTask path (ofFile patches path)).run files).1, (ofFile patches path).length⟩ := by
    rw [hzip, hdone.results_eq, List.zip_eq_zipWith, List.zipWith_map_right, List.zipWith_self,
      List.map_map]
    rfl
  refine ⟨⟨?_, hdone.failing_eq, hdone.text?_own, hdone.text?_rest, hdone.written_eq⟩, hresults⟩
  rw [hresults, List.map_map]
  rfl

end Patch

end JsonCompanion
