import JsonCompanion.Diagnostic
import JsonCompanion.Emit.Encoder

/-!
# The code of a class

* `ClassSetting.ofClass` merges the options of a class of a unit.
* `ClassOutput.generate` makes what the options ask for: a factory, an encoder, the table of keys
  and the table of encoders, followed by the supporting code that they request.
* `warnings` are the remarks about a class that do not keep it from being generated.
-/

namespace JsonCompanion

open Emit

/-- What a unit is generated with. -/
structure GenerationOptions where
  defaults : Value
  customs : List CustomConverter
  companionSpecifier : Text
  delegates : Bool

/-- The options of a class over those of all classes. -/
def AnnotatedClass.config (defaults : Value) (content : AnnotatedClass) : Attempt Config :=
  Config.merge ⟨content.model.name, some (content.model.fields.map Field.name)⟩ defaults
    content.annotation content.fieldAnnotations

/-- Everything that the code of a class of a unit depends on. -/
def Emit.ClassSetting.ofClass (options : GenerationOptions) (unit : SourceUnit)
    (content : AnnotatedClass) : Attempt ClassSetting := do
  let config ← content.config options.defaults
  return ⟨content.model, config, unit.enums, options.customs⟩

/-- The code of a class, in parts, and the supporting code that it requests. -/
structure ClassOutput where
  factory : Option Factory
  encoder : Option Encoder
  tables : List Fragment
  requested : List Fragment

namespace ClassOutput

/-- The fragments of a class in order. -/
def fragments (output : ClassOutput) : List Fragment :=
  output.factory.toList.map Factory.render ++ output.encoder.toList.map Encoder.render ++
    output.tables ++ output.requested

/-- The factory of a class, if it is asked for. -/
def factory? (setting : ClassSetting) (selection : Selection) : Emission (Option Factory.Plan) :=
  if setting.config.createFactory then
    some <$> Factory.plan setting selection.usable fun name =>
      (selection.reason? name).map Exclusion.reason
  else pure none

/-- The encoder of a class, if it is asked for. -/
def encoder? (setting : ClassSetting) (fields : List Field) : Emission (Option Encoder) :=
  if setting.config.createToJson then some <$> Encoder.plan setting fields else pure none

/-- The tables of a class that are asked for. -/
def tablesOf (setting : ClassSetting) (fields : List Field) : Emission (List Fragment) := do
  let keys := if setting.config.createFieldMap then [fieldMap setting fields] else []
  if setting.config.createPerFieldToJson then return keys ++ [← perFieldToJson setting fields]
  else return keys

/-- The parts of the code of a class. -/
def parts (setting : ClassSetting) :
    Emission (Option Factory × Option Encoder × List Fragment) := do
  let plan ← factory? setting (Selection.ofModel setting.model setting.config)
  let fields ← Collecting.ofAttempt
    (encodeFields setting.model setting.config (plan.map Factory.Plan.consumed))
  let encoder ← encoder? setting fields
  let tables ← tablesOf setting fields
  return (plan.map Factory.Plan.factory, encoder, tables)

/-- Generates the code of a class. -/
def generate (setting : ClassSetting) : Attempt ClassOutput :=
  match Collecting.outcome (parts setting) [] with
  | (.ok (factory, encoder, tables), requested) => .ok ⟨factory, encoder, tables, requested⟩
  | (.error failure, _) => .error failure

end ClassOutput

/-! ### Warnings -/

/-- Another module can import the name. -/
def SourceUnit.offers (unit : SourceUnit) (name : Text) : Bool :=
  unit.exportedNames.contains name || unit.defaultExport == some name

/-- A warning about an element of a unit. -/
def SourceUnit.warning (unit : SourceUnit) (code element message : Text) : Diagnostic :=
  ⟨.warning, code, message, some element, unit.path⟩

/-- Callbacks for type parameters are asked for without type parameters. -/
def callbackWarning (unit : SourceUnit) (setting : ClassSetting) : List Diagnostic :=
  let name := setting.model.name
  if setting.config.genericArgumentFactories && setting.model.typeParameters.isEmpty then
    [unit.warning "unused-generic-argument-factories" name
      ("genericArgumentFactories has no effect on " ++ name.quoted ++
        ": it declares no type parameters.")]
  else []

/-- The code refers to a class that cannot be imported. -/
def exportWarning (unit : SourceUnit) (setting : ClassSetting) : List Diagnostic :=
  let name := setting.model.name
  if (setting.config.createFactory || setting.config.createToJson) && !unit.offers name then
    [unit.warning "class-not-exported" name
      (name.quoted ++ " is not exported; the companion module cannot import it.")]
  else []

/-- A field without getter is left out. -/
def setterWarning (unit : SourceUnit) (setting : ClassSetting) :
    Field × Exclusion → Option Diagnostic
  | (field, .setterOnly) =>
    let element := setting.element field.name
    some (unit.warning "setter-only-field" element
      ("Skipping " ++ element.quoted ++ ": " ++ Exclusion.setterOnly.reason))
  | _ => none

/-- The warnings about a class in order. -/
def warnings (unit : SourceUnit) (setting : ClassSetting) : List Diagnostic :=
  callbackWarning unit setting ++ exportWarning unit setting ++
    (Selection.ofModel setting.model setting.config).excluded.filterMap (setterWarning unit setting)

end JsonCompanion
