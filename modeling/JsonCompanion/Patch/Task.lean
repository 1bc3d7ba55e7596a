import JsonCompanion.Files.Task
import JsonCompanion.Patch.Summary

/-!
# Patching files

`applyPatches` puts the patches of each file into it, all of them or none.  A file whose text stays
the same is not written.
-/

namespace JsonCompanion

namespace Patch

/-- The paths of patches in order, each once. -/
def pathsOf (patches : List Patch) : List Text :=
  patches.foldl (fun seen patch =>
    if seen.contains patch.path then seen else seen ++ [patch.path]) []

/-- The patches of a file in order. -/
def ofFile (patches : List Patch) (path : Text) : List Patch :=
  patches.filter fun patch => patch.path == path

/-- The failure of an access to a file. -/
def accessFailure (verb path reason : Text) : PatchStatus :=
  .failed (.patchFile ("Cannot " ++ verb ++ " " ++ path ++ ": " ++ reason) path)

/-- Writes the patched text of a file, unless nothing changed. -/
def writeBack (path before after : Text) : FileTask PatchStatus :=
  if after == before then .done .unchanged
  else .write path after fun
    | .ok () => .done .written
    | .error reason => .done (accessFailure "write" path reason)

/-- Patches a file. -/
def fileTask (path : Text) (patches : List Patch) : FileTask PatchStatus :=
  .read path fun
    | .error reason => .done (accessFailure "read" path reason)
    | .ok text =>
      match apply path text patches with
      | .error failure => .done (.failed failure)
      | .ok patched => writeBack path text patched

/-- The number of accesses that patching a file takes at most. -/
def accesses : Nat := 2

/-- Patches files side by side, each with its own patches, in the order that a scheduler chooses. -/
def applyBy (scheduler : FileTask.Scheduler) (patches : List Patch) (files : Files) :
    List PatchResult × Files :=
  let paths := pathsOf patches
  let (statuses, files) :=
    FileTask.runBy scheduler (paths.map fun path => fileTask path (ofFile patches path)) files
  let results := (paths.zip statuses).map fun (path, status) =>
    PatchResult.mk path status (ofFile patches path).length
  (results, files)

/-- Patches files side by side, which take turns. -/
def applyAll (patches : List Patch) (files : Files) : List PatchResult × Files :=
  applyBy (FileTask.turns accesses) patches files

end Patch

end JsonCompanion
