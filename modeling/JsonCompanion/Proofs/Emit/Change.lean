import JsonCompanion.Emit.Conversion
import JsonCompanion.Proofs.Script.Paths

/-!
# Conversions as changes of code

* `Change` is what the conversion of a type does to code: nothing, or something that may be a copy
  of an object, and that may hold a function with such a copy as its body.
* `change` follows the library through a type; the body of each function is the change of its own
  parameter.
-/

namespace JsonCompanion.Emit

open Script

/-- What a conversion does to code: `none` if it changes nothing.  It `copies` if it writes a bare
copy of an object, and `breaks` if such a copy is the body of a function in it. -/
structure Change where
  write? : Option (Code → Code)
  copies : Bool := false
  breaks : Bool := false

namespace Change

variable {direction : Direction}

/-- The change of some code. -/
def apply (change : Change) (input : Code) : Code := (change.write?.getD id) input

/-- The change of the parameter of a function, which is the body of that function. -/
def body (change : Change) : Code := change.apply (.reference elementName)

/-- A function with this body would be broken. -/
def breaksLambda (change : Change) : Bool := change.copies || change.breaks

/-! ### Types of the library -/

/-- A conversion that changes nothing. -/
def nothing : Change := { write? := none }

/-- A conversion without functions of elements. -/
def plainly (write : Code → Code) : Change := { write? := some write }

/-- A method of a global object. -/
def globalCall (object name : Text) (arguments : List Code) : Code :=
  .call (.member (.reference object) name) arguments

/-- What a conversion does that depends on the direction. -/
def either (direction : Direction) (decode encode : Change) : Change :=
  match direction with
  | .decode => decode
  | .encode => encode

/-- The change of a type without arguments that the library knows. -/
def scalar? (direction : Direction) (name : Text) : Option Change :=
  if name == ("unknown" : Text) || name == ("any" : Text) || name == ("object" : Text) then some nothing
  else if name == ("string" : Text) then
    some (either direction (plainly fun e => .call (.reference "String") [e]) nothing)
  else if name == ("number" : Text) then
    some (either direction (plainly fun e => .call (.reference "Number") [e]) nothing)
  else if name == ("boolean" : Text) then some nothing
  else if name == ("bigint" : Text) then
    some (either direction (plainly fun e => .call (.reference "BigInt") [e])
      (plainly fun e => .call (.member e "toString") []))
  else if name == ("Date" : Text) then
    some (either direction (plainly fun e => .construction "Date" [e])
      (plainly fun e => .call (.member e "toISOString") []))
  else if name == ("URL" : Text) then
    some (either direction (plainly fun e => .construction "URL" [e])
      (plainly fun e => .call (.member e "toString") []))
  else none

/-- The change of an array. -/
def array (direction : Direction) (element : Change) : Change :=
  match element.write?, direction with
  | some _, _ =>
      { write? := some fun e => .call (.member e "map") [.lambda element.body],
        breaks := element.breaksLambda }
  | none, .decode => plainly fun e => globalCall "Array" "from" [e]
  | none, .encode => nothing

/-- The change of a set. -/
def set (direction : Direction) (element : Change) : Change :=
  match element.write?, direction with
  | some _, .decode => {
      write? := some fun e => .construction "Set" [.call (.member e "map") [.lambda element.body]]
      breaks := element.breaksLambda }
  | none, .decode => plainly fun e => .construction "Set" [e]
  | some _, .encode => {
      write? := some fun e => globalCall "Array" "from" [e, .lambda element.body]
      breaks := element.breaksLambda }
  | none, .encode => plainly fun e => globalCall "Array" "from" [e]

/-- Entries of an object with converted values. -/
def entries (e body : Code) : Code :=
  .call (.member (globalCall "Object" "entries" [e]) "map") [.entryLambda body]

/-- The change of a record. -/
def record (direction : Direction) (value : Change) : Change :=
  match value.write?, direction with
  | some _, _ => {
      write? := some fun e => globalCall "Object" "fromEntries" [entries e value.body]
      breaks := value.breaks }
  | none, .decode => { write? := some .copy, copies := true }
  | none, .encode => nothing

/-- The change of a map. -/
def map (direction : Direction) (value : Change) : Change :=
  match value.write?, direction with
  | some _, .decode =>
      { write? := some fun e => .construction "Map" [entries e value.body], breaks := value.breaks }
  | none, .decode => plainly fun e => .construction "Map" [globalCall "Object" "entries" [e]]
  | some _, .encode => {
      write? := some fun e =>
      globalCall "Object" "fromEntries" [globalCall "Array" "from" [e, .entryLambda value.body]]
      breaks := value.breaks }
  | none, .encode => plainly fun e => globalCall "Object" "fromEntries" [e]

/-- The change of an enumeration. -/
def enumeration (direction : Direction) (name : Text) : Change :=
  either direction
    (plainly fun e =>
      .call (.reference enumDecodeName) [.reference (enumValuesName name), e, .quoted name]) nothing

/-- The change of a type parameter. -/
def parameter (direction : Direction) (usesCallbacks : Bool) (name : Text) : Change :=
  if usesCallbacks then plainly fun e => .call (.ofDotted (callbackName direction name)) [e] else nothing

/-- Functions that convert the arguments of a type. -/
def lambdas (arguments : List Change) : List Code := arguments.map fun argument => .lambda argument.body

/-- The change of a class that converts itself. -/
def ofClass (direction : Direction) (name : Text) (arguments : List Change) : Change where
  write? := some fun e =>
    match direction with
    | .decode => .call (.member (.ofDotted name) "fromJson") (e :: lambdas arguments)
    | .encode => .call (.member e "toJson") (lambdas arguments)
  breaks := arguments.any breaksLambda

/-- The change of an enumeration, of a type parameter or of a class. -/
def named (conversion : Conversion) (direction : Direction) (type : TypeRef)
    (arguments : List Change) : Change :=
  let model? := if type.args.isEmpty then
    conversion.enums.reverse.find? fun model => model.name == type.name else none
  match model? with
  | some model => enumeration direction model.name
  | none =>
    if type.args.isEmpty && conversion.typeParameters.contains type.name then
      parameter direction conversion.usesCallbacks type.name
    else ofClass direction type.name arguments

/-- The change of a record or a map with text keys, or of a type with a name of its own. -/
def keyed (conversion : Conversion) (direction : Direction) (type : TypeRef)
    (arguments : List Change) : Change :=
  match belowText? type.args arguments, isOneOf type.name ["Record"],
    isOneOf type.name ["Map", "ReadonlyMap"] with
  | some value, true, _ => record direction value
  | some value, _, true => map direction value
  | _, _, _ => named conversion direction type arguments

/-- The change of a type by the library, given those of its arguments. -/
def builtIn (conversion : Conversion) (direction : Direction) (type : TypeRef)
    (arguments : List Change) : Change :=
  match if type.args.isEmpty then scalar? direction type.name else none with
  | some change => change
  | none =>
    match only? arguments, isOneOf type.name ["Array", "ReadonlyArray"],
      isOneOf type.name ["Set", "ReadonlySet"] with
    | some element, true, _ => array direction element
    | some element, _, true => set direction element
    | _, _, _ => keyed conversion direction type arguments

/-- The change of a type that may be null, which is guarded if it is one. -/
def guarded (nullable : Bool) (change : Change) : Change :=
  match nullable, change.write? with
  | true, some write => { write? := some fun e => .guarded e (write e), breaks := change.breaks }
  | _, _ => change

end Change

mutual

/-- The change that the conversion of a type is. -/
def change (conversion : Conversion) (direction : Direction) : TypeRef → Change
  | ⟨name, args, nullable, text⟩ =>
    .guarded nullable
      (.builtIn conversion direction ⟨name, args, nullable, text⟩ (changes conversion direction args))

/-- The changes that the conversions of some types are. -/
def changes (conversion : Conversion) (direction : Direction) : List TypeRef → List Change
  | [] => []
  | type :: types => change conversion direction type :: changes conversion direction types

end

end JsonCompanion.Emit
