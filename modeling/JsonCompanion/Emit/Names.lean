import JsonCompanion.Text.Letter
import JsonCompanion.Text.Quoted

/-!
# Names in generated code

* `factoryName`, `toJsonName` and their kin derive the names of generated functions and tables.
* `propertyKey` and `memberAccess` write a name bare where it is an ASCII identifier, else quoted;
  `__proto__` is always computed, so that it is an ordinary key.
-/

namespace JsonCompanion

/-- The two directions of conversion. -/
inductive Direction
  | decode
  | encode
  deriving DecidableEq

namespace Emit

/-- The function that decodes a class. -/
def factoryName (className : Text) : Text := className.lowerFirst ++ "FromJson"

/-- The function that encodes a class. -/
def toJsonName (className : Text) : Text := className.lowerFirst ++ "ToJson"

/-- The table of the JSON keys of a class. -/
def fieldMapName (className : Text) : Text := className.lowerFirst ++ "FieldMap"

/-- The table of the encoders of the fields of a class. -/
def perFieldToJsonName (className : Text) : Text := className.lowerFirst ++ "PerFieldToJson"

/-- The table of the values of an enumeration. -/
def enumValuesName (enumName : Text) : Text := enumName.lowerFirst ++ "EnumValues"

/-- The callback that converts a type parameter. -/
def callbackName (direction : Direction) (typeParameter : Text) : Text :=
  (match direction with
    | .decode => ("fromJson" : Text)
    | .encode => "toJson") ++ typeParameter

/-- The key that would set the prototype. -/
def prototypeKey : Text := "__proto__"

/-- A key of an object literal between quotes. -/
def quotedPropertyKey (name : Text) : Text :=
  if name == prototypeKey then "[" ++ name.quote ++ "]" else name.quote

/-- A key of an object literal. -/
def propertyKey (name : Text) : Text :=
  if name == prototypeKey then quotedPropertyKey name
  else if name.isPlainIdentifier then name
  else name.quote

/-- A member of an object. -/
def memberAccess (target name : Text) : Text :=
  if name.isPlainIdentifier then target ++ "." ++ name else target ++ "[" ++ name.quote ++ "]"

/-- A value of the JSON object that is decoded. -/
def jsonAccess (outputKey : Text) : Text := "json[" ++ outputKey.quote ++ "]"

end Emit

end JsonCompanion
