import JsonCompanion.Data.Value
import JsonCompanion.Text.Letter

/-!
# Classes, enumerations and units

What the library knows about a source module, independent of how it was read.

* A `ClassModel` has fields with declared types, constructor parameters and type parameters.
* An `EnumModel` is a named constant with its values, strings and numbers.
* A `SourceUnit` is a module: its annotated elements, and the names it exports and imports.
-/

namespace JsonCompanion

/-- A field of a class.  The type is the text of a type expression. -/
structure Field where
  name : Text
  type : Text
  isPrivate : Bool
  isFinal : Bool
  hasGetter : Bool
  hasSetter : Bool
  deriving DecidableEq

/-- A parameter of a constructor. -/
structure Parameter where
  name : Text
  isOptional : Bool
  deriving DecidableEq

/-- The shape of a class. -/
structure ClassModel where
  name : Text
  fields : List Field
  parameters : List Parameter
  typeParameters : List Text
  supertype : Option Text

/-- The value of an entry of an enumeration is a string or a number. -/
def isEnumValue : Value → Bool
  | .string _ | .number _ => true
  | _ => false

/-- A named set of strings and numbers. -/
structure EnumModel where
  name : Text
  values : List Value
  isIdentifier_name : name.isIdentifier := by decide
  isEnumValue_values : values.all isEnumValue := by decide

/-- A class with the options that annotate it and its fields. -/
structure AnnotatedClass where
  model : ClassModel
  annotation : Value
  fieldAnnotations : Value

/-- An element of a unit. -/
inductive Element
  | class (content : AnnotatedClass)
  | enum (content : EnumModel)

/-- The name of an element. -/
def Element.name : Element → Text
  | .class content => content.model.name
  | .enum content => content.name

/-- The ways to import a binding. -/
inductive ImportKind
  | named
  | byDefault
  | namespace
  deriving DecidableEq

/-- A binding that a module imports: under which name it is exported there and bound here. -/
structure ImportBinding where
  kind : ImportKind
  imported : Text
  bound : Text
  source : Text
  deriving DecidableEq

/-- A source module as the library sees it. -/
structure SourceUnit where
  path : Text
  source : Text
  elements : List Element
  exportedNames : List Text
  defaultExport : Option Text
  imports : List ImportBinding

/-- The annotated classes of a unit in order. -/
def SourceUnit.classes (unit : SourceUnit) : List AnnotatedClass :=
  unit.elements.filterMap fun
    | .class content => some content
    | .enum _ => none

/-- The enumerations of a unit in order. -/
def SourceUnit.enums (unit : SourceUnit) : List EnumModel :=
  unit.elements.filterMap fun
    | .class _ => none
    | .enum content => some content

end JsonCompanion
