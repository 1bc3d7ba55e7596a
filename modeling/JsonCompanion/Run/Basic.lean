import JsonCompanion.Config.Merge
import JsonCompanion.Patch.Task
import JsonCompanion.Run.Unit

/-!
# Runs

`Run.execute` generates the units of some files side by side, then patches their sources;
`Run.executeBy` does so in any order of the accesses.

* `RunOptions.read` checks the options of a run.
* `RunResult` has a report for each unit, the results of patching, all diagnostics and the log.
* A run has no result only if the logger fails: at a diagnostic of a unit, and then nothing is
  patched, or at the end.
-/

namespace JsonCompanion

/-- The options of a run. -/
structure RunOptions where
  paths : List Text
  defaults : Value
  suffix : Text
  patchesSources : Bool
  logLevel : Option LogLevel

namespace RunOptions

/-- The options that a schema checks. -/
def checkedNames : List Text :=
  (["files", "companionSuffix", "patchSources", "logLevel"] : List String).map Text.ofString

/-- The texts in an array. -/
def textsOf : Value → List Text
  | .array items => items.filterMap fun
    | .string t => some t
    | _ => none
  | _ => []

/-- The text of a value, empty for other values. -/
def textOf : Value → Text
  | .string t => t
  | _ => []

/-- Checks options and the defaults of all classes. -/
def read (options : Record) : Attempt RunOptions := do
  let checked ← runSchema.validate "options"
    (.object (checkedNames.map fun name => (name, Record.get options name)))
  let defaults := Record.get options "defaults"
  let _ ← switchesSchema.validate "defaults" (Config.globalLayer defaults)
  let accepted := match checked with
    | .object properties => properties
    | _ => []
  return {
    paths := distinct (textsOf (Record.get accepted "files"))
    defaults
    suffix := textOf (Record.get accepted "companionSuffix")
    patchesSources := (Record.get accepted "patchSources").isTruthy
    logLevel := LogLevel.ofName? (textOf (Record.get accepted "logLevel")) }

end RunOptions

/-- The result of a run. -/
structure RunResult where
  units : List UnitReport
  patches : List PatchResult
  diagnostics : List Diagnostic
  log : List LogEntry

namespace Run

/-- The diagnostic of a file whose patches failed. -/
def patchDiagnostic? (result : PatchResult) : Option Diagnostic :=
  result.status.failure?.map (Diagnostic.ofFailure result.path)

/-- The entry of the summary of patching. -/
def loggedSummary? (results : List PatchResult) : Option LogEntry :=
  (PatchResult.summary? results PatchResult.usualLimit).map fun summary =>
    ⟨.info, summary, .undefined⟩

/-- What the units of a run are generated with. -/
def unitSettings (options : RunOptions) (services : Services) : UnitSettings :=
  ⟨services, options.defaults, options.suffix, options.patchesSources⟩

/-- Outcomes in the order in which units that take turns come to their ends: round by round. -/
def byEnd (outcomes : List UnitOutcome) : List UnitOutcome :=
  (List.range (unitAccesses + 1)).flatMap fun round =>
    outcomes.filter fun outcome => outcome.accesses == round

/-- The entries about patching. -/
def patchEntries (patches : List PatchResult) : List LogEntry :=
  (patches.filterMap patchDiagnostic?).map Diagnostic.entry ++ (loggedSummary? patches).toList

/-- Puts the parts of a result together. -/
def report (outcomes : List UnitOutcome) (patches : List PatchResult) : RunResult :=
  let units := outcomes.map UnitOutcome.report
  { units
    patches
    diagnostics := units.flatMap UnitReport.diagnostics ++ patches.filterMap patchDiagnostic?
    log := (byEnd outcomes).flatMap UnitOutcome.log ++ patchEntries patches }

/-- The result of a run whose entries about patching reach the logger. -/
def settle (logger : Logger) (outcomes : List UnitOutcome) (patches : List PatchResult) :
    Attempt RunResult :=
  match logger.failure? (patchEntries patches) with
  | some failure => .error failure
  | none => .ok (report outcomes patches)

/-- Generates the units of the given files and patches their sources, with a scheduler for the units
and one for the files to patch.  The log is the one of units that take turns. -/
def executeBy (unitScheduler patchScheduler : FileTask.Scheduler) (options : RunOptions)
    (services : Services) (files : Files) : Attempt RunResult × Files :=
  let settings := unitSettings options services
  let (outcomes, files) :=
    FileTask.runBy unitScheduler (options.paths.map (unitTask settings)) files
  match (byEnd outcomes).findSome? UnitOutcome.failure? with
  | some failure => (.error failure, files)
  | none =>
    let (patches, files) :=
      Patch.applyBy patchScheduler (outcomes.flatMap UnitOutcome.patches) files
    (settle services.logger outcomes patches, files)

/-- Generates the units of the given files, which take turns, and patches their sources. -/
def execute (options : RunOptions) (services : Services) (files : Files) :
    Attempt RunResult × Files :=
  executeBy (FileTask.turns unitAccesses) (FileTask.turns Patch.accesses) options services files

end Run

end JsonCompanion
