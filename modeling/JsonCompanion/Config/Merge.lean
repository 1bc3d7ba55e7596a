import JsonCompanion.Config.Options

/-!
# Layers of options

* `Config.merge` lays the options of a class over those of all classes and over the built-in ones,
  and checks the options of its fields.
* `Config.key` resolves the options of one field: its JSON key, what is included, its default.
-/

namespace JsonCompanion

/-- The options of a class with nothing left open. -/
structure Config where
  createFactory : Bool
  createToJson : Bool
  createFieldMap : Bool
  createPerFieldToJson : Bool
  genericArgumentFactories : Bool
  disallowUnrecognizedKeys : Bool
  includeIfNull : Bool
  ignoreUnannotated : Bool
  fieldRename : RenameStrategy
  fields : List (Text × Override)

/-- The options of a field with nothing left open. -/
structure KeyConfig where
  fieldName : Text
  outputKey : Text
  includeFromJson : Option Bool
  includeToJson : Option Bool
  includeIfNull : Bool
  defaultValue : Value
  omitIfDefault : Bool
  isAnnotated : Bool

/-- The field has a default. -/
def KeyConfig.hasDefault (key : KeyConfig) : Bool := !key.defaultValue.isUndefined

/-- The class whose options are merged; with field names, options of other fields are refused. -/
structure MergeTarget where
  className : Text
  fieldNames : Option (List Text)

namespace Config

/-- Reads the switches of a layer. -/
def readSwitches (element : Text) (payload : Value) : Attempt Switches := do
  match ← switchesSchema.validate element payload with
  | .object properties => return ⟨properties⟩
  | _ => return ⟨[]⟩

/-- The layer of all classes; nothing stands for no options. -/
def globalLayer (payload : Value) : Value := if payload.isNullish then .object [] else payload

/-- The layer of a class; `true` and nothing stand for no options. -/
def classLayer (payload : Value) : Value :=
  match payload with
  | .bool true => .object []
  | _ => globalLayer payload

/-- Leaving out a default needs a default that can be compared. -/
def checkOmission (element : Text) (override : Override) : Attempt Unit :=
  if override.flag? "omitIfDefault" == some true then
    if override.defaultValue.isUndefined then
      .error (.configuration (element.quoted ++ " sets omitIfDefault without a defaultValue.")
        (some element))
    else if override.defaultValue.isRecord then
      .error (.configuration (element.quoted ++
        " sets omitIfDefault with a non-primitive defaultValue.") (some element))
    else .ok ()
  else .ok ()

/-- Reads the options of a field. -/
def readOverride (target : MergeTarget) (name : Text) (payload : Value) : Attempt Override := do
  let element := target.className ++ "." ++ name
  if target.fieldNames.any fun known => !known.contains name then
    .error (.configuration ("Override for " ++ element.quoted ++
      " targets a field the class does not declare.") (some element))
  else
    match ← overrideSchema.validate element payload with
    | .object properties => do
      checkOmission element ⟨properties⟩
      return ⟨properties⟩
    | _ => return ⟨[]⟩

/-- Reads the options of fields in the order of their names. -/
def readOverrides (target : MergeTarget) : Record → Attempt (List (Text × Override))
  | [] => .ok []
  | (name, payload) :: properties => do
    let override ← readOverride target name payload
    return (name, override) :: (← readOverrides target properties)

/-- Reads the options of all fields. -/
def readFields (target : MergeTarget) (payload : Value) : Attempt (List (Text × Override)) :=
  match payload with
  | .undefined | .null => .ok []
  | .object properties => readOverrides target properties
  | _ => .error (.configuration ("Field overrides of " ++ target.className.quoted ++
      " must be an object keyed by field name.") (some target.className))

/-- The value of a switch: that of the class, of all classes, or the built-in one. -/
def layered {α : Type} (own shared : Option α) (builtIn : α) : α := (own.or shared).getD builtIn

/-- Merges the options of all classes, of a class, and of its fields. -/
def merge (target : MergeTarget) (defaults annotation fieldAnnotations : Value) :
    Attempt Config := do
  let shared ← readSwitches "defaults" (globalLayer defaults)
  let own ← readSwitches target.className (classLayer annotation)
  let fields ← readFields target fieldAnnotations
  let switch (name : Text) (builtIn : Bool) : Bool :=
    layered (own.flag? name) (shared.flag? name) builtIn
  return {
    createFactory := switch "createFactory" true
    createToJson := switch "createToJson" true
    createFieldMap := switch "createFieldMap" false
    createPerFieldToJson := switch "createPerFieldToJson" false
    genericArgumentFactories := switch "genericArgumentFactories" false
    disallowUnrecognizedKeys := switch "disallowUnrecognizedKeys" false
    includeIfNull := switch "includeIfNull" true
    ignoreUnannotated := switch "ignoreUnannotated" false
    fieldRename := layered own.rename? shared.rename? .none
    fields }

/-- The options given for a field. -/
def override? (config : Config) (name : Text) : Option Override :=
  (config.fields.find? fun (known, _) => known == name).map Prod.snd

/-- The options of a field with nothing left open. -/
def key (config : Config) (name : Text) : KeyConfig :=
  let override := config.override? name
  { fieldName := name
    outputKey := (override.bind Override.name?).getD (config.fieldRename.apply name)
    includeFromJson := override.bind (Override.flag? · "includeFromJson")
    includeToJson := override.bind (Override.flag? · "includeToJson")
    includeIfNull := (override.bind (Override.flag? · "includeIfNull")).getD config.includeIfNull
    defaultValue := (override.map Override.defaultValue).getD .undefined
    omitIfDefault := (override.bind (Override.flag? · "omitIfDefault")).getD false
    isAnnotated := override.isSome }

end Config

end JsonCompanion
