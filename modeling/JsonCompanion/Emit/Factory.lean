import JsonCompanion.Emit.Conversion
import JsonCompanion.Model.Selection

/-!
# Factories

A factory makes an instance of a class from a JSON object.

* `Factory.plan` decides which fields it reads, for constructor arguments and for assignments after
  construction; `Factory.render` writes it down.
* A required parameter without a usable field is a failure; an optional one is left out.
* `Factory.consumed` lists the fields that are read, in order of first use.
-/

namespace JsonCompanion.Emit

/-- A class with everything that the code generated for it depends on. -/
structure ClassSetting where
  model : ClassModel
  config : Config
  enums : List EnumModel
  customs : List CustomConverter

namespace ClassSetting

/-- The name of a field of the class in messages. -/
def element (setting : ClassSetting) (fieldName : Text) : Text :=
  setting.model.name ++ "." ++ fieldName

/-- What the conversion of a field depends on. -/
def conversion (setting : ClassSetting) (fieldName : Text) : Conversion where
  element := setting.element fieldName
  typeParameters := setting.model.typeParameters
  usesCallbacks := setting.config.genericArgumentFactories
  enums := setting.enums
  customs := setting.customs

/-- The callbacks that generated functions take, one for each type parameter. -/
def callbacks (setting : ClassSetting) (direction : Direction) : List Text :=
  if setting.config.genericArgumentFactories then
    setting.model.typeParameters.map (callbackName direction)
  else []

/-- The declared type of a field. -/
def fieldType (setting : ClassSetting) (field : Field) : Attempt TypeRef :=
  TypeRef.parse field.type (setting.element field.name)

end ClassSetting

/-- A field that a factory reads: the key it looks up and the decoding expression. -/
structure Reading where
  field : Field
  key : Text
  code : Text

/-- A factory: the keys it admits, if it checks them, what it passes to the constructor, `none` for
a parameter left out, and what it assigns. -/
structure Factory where
  className : Text
  callbacks : List Text
  admitted : Option (List Text)
  arguments : List (Option Reading)
  assignments : List Reading

namespace Factory

/-- The code of an argument. -/
def argumentCode : Option Reading → Text
  | some reading => reading.code
  | none => "undefined"

/-- The fields that a factory reads, in order of first use, each once. -/
def consumed (arguments : List (Option Reading)) (assignments : List Reading) : List Text :=
  ((arguments.filterMap id ++ assignments).map fun reading => reading.field.name).foldl
    (fun names name => if names.contains name then names else names ++ [name]) []

/-- The decoding of a field.  A default stands in for a missing value instead of null. -/
def read (setting : ClassSetting) (field : Field) : Emission Reading := do
  let key := setting.config.key field.name
  let access := jsonAccess key.outputKey
  let type ← Collecting.ofAttempt (setting.fieldType field)
  let conversion := setting.conversion field.name
  if key.hasDefault then
    let fallback ← Collecting.ofAttempt (literal conversion.element key.defaultValue)
    let converted ← convert conversion .decode { type with nullable := false } access
    return ⟨field, key.outputKey, access ++ " == null ? " ++ fallback ++ " : " ++ converted⟩
  else return ⟨field, key.outputKey, ← convert conversion .decode type access⟩

/-- The failure of a required parameter without a usable field. -/
def missing (setting : ClassSetting) (name : Text) (reason : Option Text) : Failure :=
  .unavailableField
    ("Cannot populate the required constructor argument: " ++ name ++ ". " ++
      reason.getD ("There is no field named " ++ name.quoted ++ "."))
    (some (setting.element name))

/-- The argument for a parameter. -/
def argument (setting : ClassSetting) (usable : List Field) (reason? : Text → Option Text)
    (parameter : Parameter) : Emission (Option Reading) :=
  match usable.reverse.find? fun field => field.name == parameter.name with
  | some field => some <$> read setting field
  | none =>
    if parameter.isOptional then pure none
    else throw (missing setting parameter.name (reason? parameter.name))

/-- The arguments for parameters in order. -/
def readArguments (setting : ClassSetting) (usable : List Field) (reason? : Text → Option Text) :
    List Parameter → Emission (List (Option Reading))
  | [] => pure []
  | parameter :: parameters => do
    let first ← argument setting usable reason? parameter
    return first :: (← readArguments setting usable reason? parameters)

/-- Drops arguments at the end that are left out. -/
def dropLeftOut (list : List (Option Reading)) : List (Option Reading) :=
  (list.reverse.dropWhile fun a => argumentCode a == ("undefined" : Text)).reverse

/-- The assignments of fields that can be assigned and are not read yet. -/
def readAssignments (setting : ClassSetting) :
    (used : List Text) → List Field → Emission (List Reading)
  | _, [] => pure []
  | used, field :: fields =>
    if used.contains field.name || field.isFinal || !field.hasSetter then
      readAssignments setting used fields
    else do
      let first ← read setting field
      return first :: (← readAssignments setting (field.name :: used) fields)

/-- The keys of the fields of the class that are read. -/
def admittedKeys (setting : ClassSetting) (names : List Text) : List Text :=
  (setting.model.fields.filter fun field => names.contains field.name).map fun field =>
    (setting.config.key field.name).outputKey

/-- A factory with the names of the fields that it reads. -/
structure Plan where
  factory : Factory
  consumed : List Text

/-- Decides what the factory of a class reads, given the usable fields and the reasons for the
others. -/
def plan (setting : ClassSetting) (usable : List Field) (reason? : Text → Option Text) :
    Emission Plan := do
  let all ← readArguments setting usable reason? setting.model.parameters
  let assigned ← readAssignments setting (consumed all []) usable
  let names := consumed all assigned
  let checks := setting.config.disallowUnrecognizedKeys
  if checks then Collecting.add checkKeys
  return {
    factory := {
      className := setting.model.name
      callbacks := setting.callbacks .decode
      admitted := if checks then some (admittedKeys setting names) else none
      arguments := dropLeftOut all
      assignments := assigned }
    consumed := names }

/-- The assignment of a field after construction. -/
def assignmentLine (reading : Reading) : Text :=
  "  " ++ memberAccess "instance" reading.field.name ++ " = " ++ reading.code ++ ";"

/-- The lines between the braces of a factory. -/
def body (factory : Factory) : List Text :=
  let construction := "new " ++ factory.className ++ "(" ++
    Text.join ", " (factory.arguments.map argumentCode) ++ ")"
  let check := factory.admitted.toList.map fun keys =>
    "  " ++ checkKeysName ++ "(json, [" ++ Text.join ", " (keys.map Text.quote) ++ "]);"
  let rest : List Text :=
    if factory.assignments.isEmpty then ["  return " ++ construction ++ ";"]
    else ("  const instance = " ++ construction ++ ";" : Text) ::
      factory.assignments.map assignmentLine ++ [("  return instance;" : Text)]
  check ++ rest

/-- The parameters of a factory. -/
def parameters (factory : Factory) : List Text := "json" :: factory.callbacks

/-- The function of a factory. -/
def render (factory : Factory) : Fragment :=
  .function true (factoryName factory.className) factory.parameters factory.body

end Factory

end JsonCompanion.Emit
