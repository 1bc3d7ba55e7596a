import JsonCompanion.Config.Rename
import JsonCompanion.Config.Schema

/-!
# Options

* `switchesSchema`, `overrideSchema` and `overridesSchema` describe the options of classes and
  fields, `runSchema` those of a run.
* `Switches` and `Override` read accepted options; an option that is missing or `undefined` is not
  set.
-/

namespace JsonCompanion

/-- The switches of a class that are on or off. -/
def switchNames : List Text :=
  (["createFactory", "createToJson", "createFieldMap", "createPerFieldToJson",
    "genericArgumentFactories", "disallowUnrecognizedKeys", "includeIfNull", "ignoreUnannotated"]
    : List String).map Text.ofString

/-- The ways to rename fields. -/
def renameSchema : Schema := .choice (RenameStrategy.all.map RenameStrategy.name)

/-- The option that chooses how fields are renamed. -/
def renameProperty : Text × Schema := ("fieldRename", .optional renameSchema)

/-- Options of a class, or of all classes. -/
def switchesSchema : Schema :=
  .object true ((switchNames.map fun name => (name, Schema.optional .bool)) ++ [renameProperty])

/-- Options of a field. -/
def overrideSchema : Schema :=
  .object true [
    ("name", .optional (.text [.notEmpty])),
    ("includeFromJson", .optional .bool),
    ("includeToJson", .optional .bool),
    ("includeIfNull", .optional .bool),
    ("defaultValue", .optional .anything),
    ("omitIfDefault", .optional .bool)]

/-- Options of several fields under their names. -/
def overridesSchema : Schema := .record overrideSchema

/-- The names of the levels of a log. -/
def logLevelNames : List Text :=
  (["debug", "info", "warn", "error", "silent"] : List String).map Text.ofString

/-- Options of a run; others are ignored. -/
def runSchema : Schema :=
  .object false [
    ("files", .list (.text [.notEmpty])),
    ("companionSuffix", .withDefault (.string ".g") (.text [.notEmpty, .noPathSeparator])),
    ("patchSources", .withDefault (.bool true) .bool),
    ("logLevel", .optional (.choice logLevelNames))]

/-- Accepted options of a class. -/
structure Switches where
  properties : Record

/-- Whether a switch is on, if it is set. -/
def Switches.flag? (switches : Switches) (name : Text) : Option Bool :=
  match switches.properties.get name with
  | .bool b => some b
  | _ => none

/-- The way to rename fields, if it is set. -/
def Switches.rename? (switches : Switches) : Option RenameStrategy :=
  match switches.properties.get "fieldRename" with
  | .string name => RenameStrategy.ofName? name
  | _ => none

/-- Accepted options of a field. -/
structure Override where
  properties : Record

/-- Whether a switch of a field is on, if it is set. -/
def Override.flag? (override : Override) (name : Text) : Option Bool :=
  match override.properties.get name with
  | .bool b => some b
  | _ => none

/-- The JSON key of a field, if it is set. -/
def Override.name? (override : Override) : Option Text :=
  match override.properties.get "name" with
  | .string name => some name
  | _ => none

/-- The default of a field, `undefined` if there is none. -/
def Override.defaultValue (override : Override) : Value := override.properties.get "defaultValue"

end JsonCompanion
