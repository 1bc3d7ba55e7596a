import JsonCompanion.Companion.Imports
import JsonCompanion.Companion.Path
import JsonCompanion.Compose.Composition
import JsonCompanion.Files.Task
import JsonCompanion.Log

/-!
# Generating a unit

`unitTask` reads a source file, generates its companion and writes it unless it is there already.

* `Services` are the parts of a run that the caller may choose: any functions.
* `generate` puts together the code of a unit and its patches, and `prepare` does everything between
  reading and writing.
* `UnitOutcome` is the report on the unit with its patches and its part of the log.  A logger that
  fails at an entry of the unit makes the unit fail, and one that fails at a diagnostic ends the run.
-/

namespace JsonCompanion

/-- What became of a unit. -/
inductive UnitStatus
  | generated
  | skipped
  | failed
  deriving DecidableEq

/-- The name of a status. -/
def UnitStatus.name : UnitStatus → Text
  | .generated => "generated"
  | .skipped => "skipped"
  | .failed => "failed"

/-- The report on a unit. -/
structure UnitReport where
  path : Text
  status : UnitStatus
  companion : Text
  isWritten : Bool
  diagnostics : List Diagnostic

/-- The outcome for a unit: its report, patches and entries of the log, which are all made at its
end, after a number of accesses to files; and how the logger failed at one of its diagnostics. -/
structure UnitOutcome where
  report : UnitReport
  patches : List Patch
  log : List LogEntry
  accesses : Nat
  failure? : Option Failure

/-- Writes the code for the companion of a unit: texts in order, which may repeat. -/
abbrev Contributor := GenerationOptions → SourceUnit → Reporting (List Text)

/-- What the library contributes, with the converters of the caller. -/
def Contributor.library : Contributor := fun options unit => do
  return (← contribute options unit).map Emit.Fragment.text

/-- The parts of a run that its caller may choose.  With converters that are functions of what they
are told, also the code that is contributed to a unit is a function of the unit and the options. -/
structure Services where
  customs : List Emit.CustomConverter
  contributor : Contributor
  reader : (path source : Text) → Attempt SourceUnit
  logger : Logger

/-- The services of the library itself, with converters of the caller. -/
def Services.library (customs : List Emit.CustomConverter) : Services :=
  ⟨customs, .library, SourceUnit.read, fun _ => none⟩

/-- What all units of a run are generated with. -/
structure UnitSettings extends Services where
  defaults : Value
  suffix : Text
  delegates : Bool

namespace UnitSettings

/-- The path of the companion of a unit. -/
def companion (settings : UnitSettings) (path : Text) : Text := companionPath path settings.suffix

/-- How a unit and its companion name each other. -/
def specifiers (settings : UnitSettings) (path : Text) : Specifiers :=
  ⟨siblingSpecifier path, siblingSpecifier (settings.companion path)⟩

/-- What a unit is generated with. -/
def options (settings : UnitSettings) (path : Text) : GenerationOptions :=
  ⟨settings.defaults, settings.customs, (settings.specifiers path).companion, settings.delegates⟩

end UnitSettings

/-! ### Log entries -/

/-- The entry of a diagnostic. -/
def Diagnostic.entry (diagnostic : Diagnostic) : LogEntry where
  level := match diagnostic.severity with
    | .error => .error
    | .warning => .warn
    | .info => .info
  message := diagnostic.message
  data := .object [("code", .string diagnostic.code),
    ("element", (diagnostic.element.map Value.string).getD .null),
    ("unit", .string diagnostic.unit)]

/-- An entry about a path. -/
def pathEntry (level : LogLevel) (message path : Text) : LogEntry :=
  ⟨level, message, .object [("path", .string path)]⟩

/-! ### Generation -/

/-- What is generated for a unit: the texts of its companion, and the patches of its source. -/
structure Generation where
  texts : List Text
  patches : List Patch

/-- The code of the companion, empty without texts. -/
def Generation.code (generation : Generation) : Text := Text.join "\n\n" generation.texts

/-- The texts without the blanks around them, each once, and no empty ones. -/
def keptTexts (texts : List Text) : List Text :=
  distinct ((texts.map Text.trim).filter fun text => !text.isEmpty)

/-- Generates everything for a unit. -/
def generate (contributor : Contributor) (options : GenerationOptions) (unit : SourceUnit) :
    Reporting Generation := do
  let texts ← contributor options unit
  let patches ← unitPatches options unit
  return ⟨keptTexts texts, patches⟩

/-- The entry of a generated unit. -/
def generatedEntry (path : Text) (generation : Generation) : LogEntry :=
  ⟨.info, "Unit generated", .object [("path", .string path),
    ("fragments", .number (.ofNat generation.texts.length)),
    ("patches", .number (.ofNat generation.patches.length))]⟩

/-! ### Outcomes -/

/-- The outcome for a unit with a status, which has logged entries of its own and then logs its
diagnostics. -/
def UnitOutcome.of (settings : UnitSettings) (path : Text) (accesses : Nat) (status : UnitStatus)
    (isWritten : Bool) (diagnostics : List Diagnostic) (patches : List Patch)
    (entries : List LogEntry) : UnitOutcome where
  report := ⟨path, status, settings.companion path, isWritten, diagnostics⟩
  patches := patches
  log := entries ++ settings.logger.reached (diagnostics.map Diagnostic.entry)
  accesses := accesses
  failure? := settings.logger.failure? (diagnostics.map Diagnostic.entry)

/-- The outcome for a unit that failed after it has logged some entries. -/
def UnitOutcome.failed (settings : UnitSettings) (path : Text) (accesses : Nat)
    (diagnostics : List Diagnostic) (entries : List LogEntry) (failure : Failure) : UnitOutcome :=
  .of settings path accesses .failed false (diagnostics ++ [.ofFailure path failure]) [] entries

/-- The outcome for a unit that has a status once it has logged entries of its own. -/
def UnitOutcome.logging (settings : UnitSettings) (path : Text) (accesses : Nat)
    (status : UnitStatus) (isWritten : Bool) (diagnostics : List Diagnostic) (patches : List Patch)
    (entries : List LogEntry) : UnitOutcome :=
  match settings.logger.failure? entries with
  | none => .of settings path accesses status isWritten diagnostics patches entries
  | some failure =>
    .failed settings path accesses diagnostics (settings.logger.reached entries) failure

/-- The outcome for a unit without annotated elements, known once its source is read. -/
def UnitOutcome.skipped (settings : UnitSettings) (path : Text) (diagnostics : List Diagnostic) :
    UnitOutcome :=
  .logging settings path 1 .skipped false diagnostics []
    [pathEntry .debug "No annotated elements" path]

/-- The outcome for a generated unit. -/
def UnitOutcome.generated (settings : UnitSettings) (path : Text) (accesses : Nat)
    (diagnostics : List Diagnostic) (generation : Generation) (isWritten : Bool)
    (entries : List LogEntry) : UnitOutcome :=
  .logging settings path accesses .generated isWritten diagnostics generation.patches
    (entries ++ [generatedEntry path generation])

/-! ### The task -/

/-- Everything generated for a unit, with the text of its companion if it needs one; none for a unit
without annotated elements. -/
def prepare (settings : UnitSettings) (path : Text) (content : Except Text Text) :
    Reporting (Option (Generation × Option Text)) := do
  let source ← match content with
    | .ok source => pure source
    | .error reason => throw (.sourceRead ("Cannot read " ++ path ++ ": " ++ reason) path)
  let unit ← Collecting.ofAttempt (settings.reader path source)
  if unit.elements.isEmpty then return none
  let generation ← generate settings.contributor (settings.options path) unit
  let code := generation.code
  let companion := if code.isEmpty then none
    else some (renderCompanion unit code (settings.specifiers path))
  return some (generation, companion)

/-- Writes a companion, unless the file has the text already. -/
def writeCompanion (settings : UnitSettings) (path text : Text) (generation : Generation)
    (diagnostics : List Diagnostic) : FileTask UnitOutcome :=
  let companion := settings.companion path
  .read companion fun existing =>
    if existing.toOption == some text then
      .done (.generated settings path 2 diagnostics generation false
        [pathEntry .debug "Companion unchanged" companion])
    else .write companion text fun
      | .ok () => .done (.generated settings path 3 diagnostics generation true
          [pathEntry .info "Companion written" companion])
      | .error reason => .done (.failed settings path 3 diagnostics [] (.foreign "Error" reason))

/-- Generates a unit. -/
def unitTask (settings : UnitSettings) (path : Text) : FileTask UnitOutcome :=
  .read path fun content =>
    match (prepare settings path content).outcome [] with
    | (.error failure, diagnostics) => .done (.failed settings path 1 diagnostics [] failure)
    | (.ok none, diagnostics) => .done (.skipped settings path diagnostics)
    | (.ok (some (generation, none)), diagnostics) =>
      .done (.generated settings path 1 diagnostics generation false [])
    | (.ok (some (generation, some text)), diagnostics) =>
      writeCompanion settings path text generation diagnostics

/-- The number of accesses that generating a unit takes at most. -/
def unitAccesses : Nat := 3

end JsonCompanion
