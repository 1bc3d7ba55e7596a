import JsonCompanion.Collecting
import JsonCompanion.Emit.Support
import JsonCompanion.Types.TypeRef

/-!
# Conversion of values

`convert` writes the expression that converts a value of a declared type to JSON or back.

* `CustomConverter`s are asked first, in order; then `builtIn?` tells the supported types.
* `plainConverter` sees no type as nullable: `guardNull` guards what it writes,
  unless that changes nothing.
* A conversion that changes nothing is the expression itself, and containers pass it through.
* `Emission` collects the supporting code that conversions ask for, also those before a failure.
-/

namespace JsonCompanion.Emit

/-- What a conversion depends on besides the type and the converters of the caller. -/
structure ConversionContext where
  element : Text
  typeParameters : List Text
  usesCallbacks : Bool
  enums : List EnumModel

/-- Code under construction, which asks for supporting code. -/
abbrev Emission := Collecting Fragment

/-- Writes the conversion of an expression. -/
abbrev Converter := Text → Emission Text

/-- A converter of the caller: which types it applies to, and how it converts one of them, given the
conversions of the arguments of the type.  It may ask for supporting code and fail. -/
structure CustomConverter where
  applies : ConversionContext → TypeRef → Emission Bool
  converter : ConversionContext → Direction → TypeRef → (arguments : List Converter) → Converter

/-- What a conversion depends on besides the type. -/
structure Conversion extends ConversionContext where
  customs : List CustomConverter

/-- The name of the element of a container in generated code. -/
def elementName : Text := "e"

/-- A function of the element of a container. -/
def elementLambda (body : Text) : Text := "(e) => " ++ body

/-- A function of a key and the element below it that converts the element. -/
def entryLambda (body : Text) : Text := "([k, e]) => [k, " ++ body ++ "]"

/-- Applies a converter to the element of a container: `none` if it changes nothing. -/
def inside (converter : Converter) : Emission (Option Text) := do
  let body ← converter elementName
  return if body == elementName then none else some body

/-- The one argument of a type. -/
def only? {α : Type} : List α → Option α
  | [a] => some a
  | _ => none

/-- The type without arguments that a text names. -/
def isPlainType (type : TypeRef) (name : Text) : Bool := type.args.isEmpty && type.name == name

/-- The second of two arguments, if the first is the type of texts. -/
def belowText? {α : Type} (args : List TypeRef) (list : List α) : Option α :=
  match args, list with
  | [key, _], [_, a] => if isPlainType key "string" && !key.nullable then some a else none
  | _, _ => none

/-! ### Built-in types -/

/-- The types without arguments that the library knows, with both conversions. -/
def scalar? (direction : Direction) (name : Text) : Option (Text → Text) :=
  let pick (decode encode : Text → Text) : Option (Text → Text) :=
    some (match direction with
      | .decode => decode
      | .encode => encode)
  if name == ("unknown" : Text) || name == ("any" : Text) || name == ("object" : Text) then
    pick id id
  else if name == ("string" : Text) then pick (fun e => "String(" ++ e ++ ")") id
  else if name == ("number" : Text) then pick (fun e => "Number(" ++ e ++ ")") id
  else if name == ("boolean" : Text) then pick id id
  else if name == ("bigint" : Text) then
    pick (fun e => "BigInt(" ++ e ++ ")") (fun e => e ++ ".toString()")
  else if name == ("Date" : Text) then
    pick (fun e => "new Date(" ++ e ++ ")") (fun e => e ++ ".toISOString()")
  else if name == ("URL" : Text) then
    pick (fun e => "new URL(" ++ e ++ ")") (fun e => e ++ ".toString()")
  else none

/-- An array: copied when decoded, passed through when encoded, unless its elements are
converted. -/
def arrayConverter (direction : Direction) (element : Converter) : Converter := fun e => do
  match ← inside element, direction with
  | some body, _ => return e ++ ".map(" ++ elementLambda body ++ ")"
  | none, .decode => return "Array.from(" ++ e ++ ")"
  | none, .encode => return e

/-- A set, whose JSON form is an array. -/
def setConverter (direction : Direction) (element : Converter) : Converter := fun e => do
  match ← inside element, direction with
  | some body, .decode => return "new Set(" ++ e ++ ".map(" ++ elementLambda body ++ "))"
  | none, .decode => return "new Set(" ++ e ++ ")"
  | some body, .encode => return "Array.from(" ++ e ++ ", " ++ elementLambda body ++ ")"
  | none, .encode => return "Array.from(" ++ e ++ ")"

/-- An object with converted values. -/
def mappedEntries (e body : Text) : Text :=
  "Object.entries(" ++ e ++ ").map(" ++ entryLambda body ++ ")"

/-- A record: copied when decoded, passed through when encoded, unless its values are converted. -/
def recordConverter (direction : Direction) (value : Converter) : Converter := fun e => do
  match ← inside value, direction with
  | some body, _ => return "Object.fromEntries(" ++ mappedEntries e body ++ ")"
  | none, .decode => return "\x7b ..." ++ e ++ " \x7d"
  | none, .encode => return e

/-- A map with text keys, whose JSON form is an object. -/
def mapConverter (direction : Direction) (value : Converter) : Converter := fun e => do
  match ← inside value, direction with
  | some body, .decode => return "new Map(" ++ mappedEntries e body ++ ")"
  | none, .decode => return "new Map(Object.entries(" ++ e ++ "))"
  | some body, .encode =>
    return "Object.fromEntries(Array.from(" ++ e ++ ", " ++ entryLambda body ++ "))"
  | none, .encode => return "Object.fromEntries(" ++ e ++ ")"

/-- An enumeration: its values are checked when decoded. -/
def enumConverter (direction : Direction) (model : EnumModel) : Converter := fun e => do
  match direction with
  | .encode => return e
  | .decode =>
    Collecting.add (← Collecting.ofAttempt (enumValues model))
    Collecting.add enumDecode
    return enumDecodeName ++ "(" ++ enumValuesName model.name ++ ", " ++ e ++ ", " ++
      model.name.quote ++ ")"

/-- A type parameter: converted by its callback, if there are callbacks. -/
def parameterConverter (direction : Direction) (usesCallbacks : Bool) (name : Text) : Converter :=
  fun e => pure (if usesCallbacks then callbackName direction name ++ "(" ++ e ++ ")" else e)

/-- Functions that convert the arguments of a type. -/
def argumentLambdas : List Converter → Emission (List Text)
  | [] => pure []
  | converter :: converters => do
    let body ← converter elementName
    return elementLambda body :: (← argumentLambdas converters)

/-- A class that converts itself, given functions for its type arguments. -/
def classConverter (direction : Direction) (name : Text) (arguments : List Converter) : Converter :=
  fun e => do
    let lambdas ← argumentLambdas arguments
    match direction with
    | .decode => return name ++ ".fromJson(" ++ Text.join ", " (e :: lambdas) ++ ")"
    | .encode => return e ++ ".toJson(" ++ Text.join ", " lambdas ++ ")"

/-- Names of types that are no classes with conversions of their own. -/
def reservedTypes : List Text :=
  (["Array", "ReadonlyArray", "Set", "ReadonlySet", "Map", "ReadonlyMap", "Record", "Date", "URL",
    "Object", "Promise", "Function"] : List String).map Text.ofString

/-- The name of a class that converts itself: it begins with a capital. -/
def isConvertibleName (name : Text) : Bool :=
  !reservedTypes.contains name &&
  name.head?.any CodeUnit.isCapital && (name.splitOn '.').all Text.isPlainIdentifier

/-- The name is one of some others. -/
def isOneOf (name : Text) (names : List String) : Bool := names.any fun n => name == Text.ofString n

/-- The conversion of an enumeration, of a type parameter or of a class. -/
def namedConverter? (conversion : Conversion) (direction : Direction) (type : TypeRef)
    (arguments : List Converter) : Option Converter :=
  let name := type.name
  let model? := if type.args.isEmpty then
    conversion.enums.reverse.find? fun model => model.name == name else none
  match model? with
  | some model => some (enumConverter direction model)
  | none =>
    if type.args.isEmpty && conversion.typeParameters.contains name then
      some (parameterConverter direction conversion.usesCallbacks name)
    else if isConvertibleName name then some (classConverter direction name arguments)
    else none

/-- The conversion of a record or a map with text keys, or of a type with a name of its own. -/
def keyedConverter? (conversion : Conversion) (direction : Direction) (type : TypeRef)
    (arguments : List Converter) : Option Converter :=
  match belowText? type.args arguments, isOneOf type.name ["Record"],
    isOneOf type.name ["Map", "ReadonlyMap"] with
  | some value, true, _ => some (recordConverter direction value)
  | some value, _, true => some (mapConverter direction value)
  | _, _, _ => namedConverter? conversion direction type arguments

/-- The conversion of a type by the library, given those of its arguments. -/
def builtIn? (conversion : Conversion) (direction : Direction) (type : TypeRef)
    (arguments : List Converter) : Option Converter :=
  match if type.args.isEmpty then scalar? direction type.name else none with
  | some write => some fun e => pure (write e)
  | none =>
    match only? arguments, isOneOf type.name ["Array", "ReadonlyArray"],
      isOneOf type.name ["Set", "ReadonlySet"] with
    | some element, true, _ => some (arrayConverter direction element)
    | some element, _, true => some (setConverter direction element)
    | _, _, _ => keyedConverter? conversion direction type arguments

/-! ### Any type -/

/-- The first converter of the caller that applies to a type. -/
def custom? (context : ConversionContext) (type : TypeRef) :
    List CustomConverter → Emission (Option CustomConverter)
  | [] => pure none
  | custom :: customs => do
    if ← custom.applies context type then return some custom else custom? context type customs

/-- The conversion of a type by the library, which fails for types that are not supported. -/
def builtInConverter (conversion : Conversion) (direction : Direction) (type : TypeRef)
    (arguments : List Converter) : Converter := fun e =>
  match builtIn? conversion direction type arguments with
  | some converter => converter e
  | none => throw (.unsupportedType type.text conversion.element)

/-- The conversion of a type that is not nullable, given those of its arguments. -/
def plainConverter (conversion : Conversion) (direction : Direction) (type : TypeRef)
    (arguments : List Converter) : Converter := fun e => do
  match ← custom? conversion.toConversionContext type conversion.customs with
  | some custom => custom.converter conversion.toConversionContext direction type arguments e
  | none => builtInConverter conversion direction type arguments e

/-- Guards a conversion against null, unless it changes nothing. -/
def guardNull (nullable : Bool) (e converted : Text) : Text :=
  if !nullable || converted == e then converted else e ++ " == null ? null : " ++ converted

mutual

/-- Writes the conversion of an expression of a type. -/
def convert (conversion : Conversion) (direction : Direction) : TypeRef → Text → Emission Text
  | ⟨name, args, nullable, text⟩, e => do
    let converted ← plainConverter conversion direction ⟨name, args, false, text⟩
      (converters conversion direction args) e
    return guardNull nullable e converted

/-- The conversions of some types. -/
def converters (conversion : Conversion) (direction : Direction) : List TypeRef → List Converter
  | [] => []
  | type :: types => convert conversion direction type :: converters conversion direction types

end

end JsonCompanion.Emit
