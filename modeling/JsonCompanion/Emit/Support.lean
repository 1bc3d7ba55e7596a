import JsonCompanion.Emit.Fragment
import JsonCompanion.Emit.Literal
import JsonCompanion.Model.Basic

/-!
# Supporting code

The functions and tables that generated code refers to: `checkKeys` refuses unknown keys,
`enumDecode` refuses unknown values of an enumeration, and `enumValues` is the table of its values.
-/

namespace JsonCompanion.Emit

/-- The name of the function that refuses unknown keys. -/
def checkKeysName : Text := "$checkKeys"

/-- The function that refuses unknown keys. -/
def checkKeys : Fragment :=
  .function false checkKeysName ["json", "allowedKeys"] [
    "  const unrecognized = Object.keys(json).filter((key) => !allowedKeys.includes(key));",
    "  if (unrecognized.length > 0) \x7b",
    "    throw new Error(\x60Unrecognized keys: $\x7bunrecognized.join(\", \")\x7d\x60);",
    "  \x7d"]

/-- The name of the function that refuses unknown values of an enumeration. -/
def enumDecodeName : Text := "$enumDecode"

/-- The function that refuses unknown values of an enumeration. -/
def enumDecode : Fragment :=
  .function false enumDecodeName ["values", "source", "enumName"] [
    "  if (!values.includes(source)) \x7b",
    "    throw new Error(\x60$\x7bJSON.stringify(source)\x7d is not one of the supported values " ++
      ("of $\x7benumName\x7d: $\x7bvalues.join(\", \")\x7d\x60);" : Text),
    "  \x7d",
    "  return source;"]

/-- The table of the values of an enumeration. -/
def enumValues (model : EnumModel) : Attempt Fragment := do
  let values ← literals model.name model.values
  return .constant (enumValuesName model.name) ("Object.freeze([" ++ Text.join ", " values ++ "])")

end JsonCompanion.Emit
