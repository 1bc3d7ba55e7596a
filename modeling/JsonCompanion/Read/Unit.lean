import JsonCompanion.Read.ClassModel
import JsonCompanion.Script.Grammar

/-!
# Reading units

* `EnumModel.ofDeclarators` reads an enumeration from a constant that is initialised with an object.
* `SourceUnit.read` reads a module: its annotated classes and enumerations in source order, and the
  names it exports and imports.
-/

namespace JsonCompanion

open Script

/-- The key of `Object.freeze`. -/
def isFreezeKey : Key → Bool
  | .label name => name == ("freeze" : Text)
  | .computed (.name name) => name == ("freeze" : Text)
  | _ => false

/-- The object behind `Object.freeze(…)`, any other expression as it is. -/
def unfrozen : Expr → Expr
  | .call (.member (.name receiver) key) [.item argument] =>
    if receiver == ("Object" : Text) && isFreezeKey key then argument
    else .call (.member (.name receiver) key) [.item argument]
  | expr => expr

/-- The one constant that variables declare: its name, and what it is initialised with. -/
def constant? : List Declarator → Option ({ name : Text // name.isIdentifier } × Option Expr)
  | [⟨.name name, init⟩] => if h : name.isIdentifier then some (⟨name, h⟩, init) else none
  | _ => none

/-- The enumeration of a constant: the strings and numbers of an object. -/
def EnumModel.ofConstant (name : { name : Text // name.isIdentifier }) (init : Option Expr) :
    Attempt EnumModel := do
  let value ← match init with
    | some expr => (unfrozen expr).value name
    | none => .ok .undefined
  match value with
  | .object properties =>
    let values := properties.map Prod.snd
    if h : values.all isEnumValue then .ok ⟨name, values, name.property, h⟩
    else .error (.configuration ("Values of @enum " ++ name.val.quoted ++
      " must be strings or numbers.") (some name))
  | _ => .error (.configuration ("@enum " ++ name.val.quoted ++
      " must be initialized with an object literal.") (some name))

/-- The enumeration that variables declare, which is one constant. -/
def EnumModel.ofDeclarators (declarators : List Declarator) : Attempt EnumModel :=
  match constant? declarators with
  | some (name, init) => EnumModel.ofConstant name init
  | none => .error (.configuration
      "An @enum declaration must declare exactly one named constant." none)

/-- The element that a statement declares, if it is annotated. -/
def elementOf? (context : ClassSource) (statement : Statement) :
    Attempt (Option JsonCompanion.Element) :=
  match statement.class? with
  | some located => do
    let annotations ← readAnnotations (located.content.name.getD "default") located.content
    if annotations.isAnnotated then
      let model ← ClassModel.ofLocated context located
      return some (.class ⟨model, annotations.annotation, annotations.fieldAnnotations⟩)
    else return none
  | none =>
    match statement.body.declarators? with
    | some declarators => do
      if (context.tagsBefore statement.span.start).isEnum then
        return some (.enum (← EnumModel.ofDeclarators declarators))
      else return none
    | none => .ok none

/-- The syntax tree of a module. -/
def parseModule (path source : Text) : Attempt Module :=
  match Module.parse? source with
  | some module => .ok module
  | none => .error (.sourceParse ("Could not parse " ++ path ++ ": <parser message>") path)

/-- Reads a module. -/
def SourceUnit.read (path source : Text) : Attempt SourceUnit := do
  let module ← parseModule path source
  let context : ClassSource := ⟨source, module.comments, module.classes⟩
  let elements ← module.statements.mapM (elementOf? context)
  return {
    path
    source
    elements := elements.filterMap id
    exportedNames := module.exportedNames
    defaultExport := module.defaultExport?
    imports := module.importBindings }

end JsonCompanion
