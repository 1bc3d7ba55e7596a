import JsonCompanion.Config.Merge
import JsonCompanion.Model.Basic

/-!
# Selecting fields

* `Selection.ofModel` parts the fields of a class into those that can be decoded and those that
  cannot, each with the first reason that applies.
* `encodeFields` are the fields that are written: those that were decoded or are asked for, and not
  left out, under distinct keys.
-/

namespace JsonCompanion

/-- Why a field is not decoded. -/
inductive Exclusion
  | unannotated
  | hidden
  | setterOnly
  | excludedFromDecode
  deriving DecidableEq

namespace Exclusion

/-- The name of a reason. -/
def name : Exclusion → Text
  | .unannotated => "unannotated"
  | .hidden => "private"
  | .setterOnly => "setter-only"
  | .excludedFromDecode => "excluded-from-decode"

/-- The wording of a reason. -/
def reason : Exclusion → Text
  | .unannotated => "It is not annotated and ignoreUnannotated is set."
  | .hidden => "It is assigned to a private field."
  | .setterOnly => "Setter-only properties are not supported."
  | .excludedFromDecode => "It is assigned to a field not meant to be used in fromJson."

/-- The first reason not to decode a field. -/
def of? (config : Config) (field : Field) : Option Exclusion :=
  let key := config.key field.name
  if config.ignoreUnannotated && !key.isAnnotated then some .unannotated
  else if field.isPrivate && key.includeFromJson != some true then some .hidden
  else if !field.hasGetter then some .setterOnly
  else if key.includeFromJson == some false then some .excludedFromDecode
  else none

end Exclusion

/-- The fields of a class, parted by whether they can be decoded. -/
structure Selection where
  usable : List Field
  excluded : List (Field × Exclusion)

namespace Selection

/-- Parts the fields of a class. -/
def ofModel (model : ClassModel) (config : Config) : Selection where
  usable := model.fields.filter fun field => (Exclusion.of? config field).isNone
  excluded := model.fields.filterMap fun field => (Exclusion.of? config field).map (field, ·)

/-- The reason why a field of a name is not decoded: the last one given. -/
def reason? (selection : Selection) (name : Text) : Option Exclusion :=
  (selection.excluded.reverse.find? fun (field, _) => field.name == name).map Prod.snd

/-- The names of fields that are not decoded, each once, with the reason. -/
def reasons (selection : Selection) : List (Text × Exclusion) :=
  let names := selection.excluded.foldl (fun names (field, _) =>
    if names.contains field.name then names else names ++ [field.name]) ([] : List Text)
  names.filterMap fun name => (selection.reason? name).map (name, ·)

end Selection

/-- The field is asked for in the output. -/
def isAskedFor (config : Config) (field : Field) : Bool :=
  field.hasGetter && (config.key field.name).includeToJson == some true

/-- The first key that two fields share, with both of them. -/
def sharedKey? (config : Config) :
    (owners : List (Text × Text)) → List Field → Option (Text × Text × Text)
  | _, [] => none
  | owners, field :: fields =>
    let key := (config.key field.name).outputKey
    match owners.find? fun (owned, _) => owned == key with
    | some (_, owner) => some (key, owner, field.name)
    | none => sharedKey? config ((key, field.name) :: owners) fields

/-- The fields that are written in order of declaration.  With a factory, of the usable fields only
those that it consumed. -/
def encodeFields (model : ClassModel) (config : Config) (consumed : Option (List Text)) :
    Attempt (List Field) :=
  let isWorking (field : Field) : Bool :=
    ((Exclusion.of? config field).isNone && consumed.all fun names => names.contains field.name) ||
      isAskedFor config field
  let fields := model.fields.filter fun field =>
    isWorking field && (config.key field.name).includeToJson != some false
  match sharedKey? config [] fields with
  | some (key, owner, second) => .error (.duplicateKey model.name key owner second)
  | none => .ok fields

end JsonCompanion
