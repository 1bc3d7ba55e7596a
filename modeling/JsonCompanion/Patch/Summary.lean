import JsonCompanion.Patch.Basic

/-!
# Results of patching

* A `PatchResult` says what became of the patches of one file.
* `summary?` counts the files by status and names the first ones that failed.
-/

namespace JsonCompanion

/-- What became of the patches of a file. -/
inductive PatchStatus
  | written
  | unchanged
  | failed (failure : Failure)

namespace PatchStatus

/-- The name of a status. -/
def name : PatchStatus → Text
  | .written => "written"
  | .unchanged => "unchanged"
  | .failed _ => "failed"

/-- The failure of a status. -/
def failure? : PatchStatus → Option Failure
  | .failed failure => some failure
  | _ => none

end PatchStatus

/-- The number of patches of a file and what became of them. -/
structure PatchResult where
  path : Text
  status : PatchStatus
  count : Nat

namespace PatchResult

/-- The count of results with a status, empty for none. -/
def countOf (results : List PatchResult) (name : Text) : List Text :=
  let count := (results.filter fun result => result.status.name == name).length
  if count = 0 then [] else [name ++ "=" ++ Text.ofNat count]

/-- The counts of results by status. -/
def distribution (results : List PatchResult) : Text :=
  Text.join ", " ((["written", "unchanged", "failed"] : List String).flatMap fun name =>
    countOf results (Text.ofString name))

/-- A file that failed, with the kind of the failure. -/
def preview? (result : PatchResult) : Option Text :=
  result.status.failure?.map fun failure => result.path.quoted ++ " (" ++ failure.kind ++ ")"

/-- The limit is zero or less. -/
def isNothing (limit : Number) : Bool := limit.isZero || limit.below (Number.zero false)

/-- The items that a limit admits, rounded down. -/
def admitted {α : Type} (limit : Number) (items : List α) : List α :=
  match limit.floor? with
  | some n => items.take n.toNat
  | none => if limit = .nan then [] else items

/-- The first files that failed, and how many there are beyond the limit. -/
def previews? (results : List PatchResult) (limit : Number) : Option Text :=
  let failed := results.filterMap preview?
  if failed.isEmpty || isNothing limit then none
  else
    let more : List Text := if limit.below (.ofNat failed.length) then
      ["… (" ++ (Number.differenceFrom failed.length limit).text ++ " more)"] else []
    some ("preview: " ++ Text.join ", " (admitted limit failed ++ more))

/-- The number of files that a summary names unless told otherwise. -/
def usualLimit : Number := .ofNat 5

/-- A summary of results, none for no results. -/
def summary? (results : List PatchResult) (limit : Number) : Option Text :=
  if results.isEmpty then none
  else some (Text.join "; "
    (("Summary: patched files " ++ distribution results) :: (previews? results limit).toList))

end PatchResult

end JsonCompanion
