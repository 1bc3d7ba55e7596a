import JsonCompanion.Emit.Factory

/-!
# Encoders

An encoder makes a JSON object from an instance of a class.

* `Encoder.plan` gives the writes of the fields in order, each with the tests that guard it;
  `Encoder.render` writes them down, those before the first guarded one as an object literal and the
  others as statements.
* The key `__proto__` is written as an ordinary key throughout.
-/

namespace JsonCompanion.Emit

/-- A test that guards the write of a field. -/
inductive Test
  | notNull
  | notNaN
  | notEqual (literal : Text)

/-- The test of a member. -/
def Test.render (access : Text) : Test → Text
  | .notNull => access ++ " != null"
  | .notNaN => "!Number.isNaN(" ++ access ++ ")"
  | .notEqual literal => access ++ " !== " ++ literal

/-- The write of a key: the member it comes from, its encoded value, and the tests that guard it. -/
structure Write where
  key : Text
  access : Text
  value : Text
  tests : List Test

/-- The tests of a write as one condition, none without tests. -/
def Write.condition? (write : Write) : Option Text :=
  if write.tests.isEmpty then none
  else some (Text.join " && " (write.tests.map (Test.render write.access)))

/-- An encoder: the writes of the fields of a class in order. -/
structure Encoder where
  className : Text
  callbacks : List Text
  writes : List Write

namespace Encoder

/-- The encoding of a field as an expression. -/
def fieldCode (setting : ClassSetting) (field : Field) (expression : Text) : Emission Text := do
  let type ← Collecting.ofAttempt (setting.fieldType field)
  convert (setting.conversion field.name) .encode type expression

/-- The test that a value is not the default. -/
def defaultTest (element : Text) (default : Value) : Attempt Test :=
  match default with
  | .number .nan => .ok .notNaN
  | _ => do return .notEqual (← literal element default)

/-- The tests that guard the write of a field. -/
def tests (setting : ClassSetting) (key : KeyConfig) : Attempt (List Test) := do
  let present := if key.includeIfNull then [] else [Test.notNull]
  if key.omitIfDefault then
    return present ++ [← defaultTest (setting.element key.fieldName) key.defaultValue]
  else return present

/-- The write of a field. -/
def write (setting : ClassSetting) (field : Field) : Emission Write := do
  let key := setting.config.key field.name
  let access := memberAccess "instance" field.name
  let value ← fieldCode setting field access
  return ⟨key.outputKey, access, value, ← Collecting.ofAttempt (tests setting key)⟩

/-- The writes of fields in order. -/
def writesOf (setting : ClassSetting) : List Field → Emission (List Write)
  | [] => pure []
  | field :: fields => do
    let first ← write setting field
    return first :: (← writesOf setting fields)

/-- Decides what the encoder of a class writes. -/
def plan (setting : ClassSetting) (fields : List Field) : Emission Encoder := do
  return {
    className := setting.model.name
    callbacks := setting.callbacks .encode
    writes := ← writesOf setting fields }

/-- An object literal of writes. -/
def objectLiteral (list : List Write) : Text :=
  if list.isEmpty then "\x7b\x7d"
  else "\x7b\n" ++ Text.join ",\n" (list.map fun w =>
    "    " ++ quotedPropertyKey w.key ++ ": " ++ w.value) ++ "\n  \x7d"

/-- The statement that writes a key.  Assigning `__proto__` would replace the prototype. -/
def assignment (w : Write) : Text :=
  if w.key == prototypeKey then
    "Object.defineProperty(json, " ++ prototypeKey.quote ++ ", \x7b value: " ++ w.value ++
      ", enumerable: true, writable: true, configurable: true \x7d);"
  else "json[" ++ w.key.quote ++ "] = " ++ w.value ++ ";"

/-- A write as a statement under its condition. -/
def statement (w : Write) : Text :=
  match w.condition? with
  | none => "  " ++ assignment w
  | some condition => "  if (" ++ condition ++ ") \x7b\n    " ++ assignment w ++ "\n  \x7d"

/-- The write is not guarded. -/
def isUnguarded (w : Write) : Bool := w.tests.isEmpty

/-- The lines between the braces of an encoder. -/
def body (encoder : Encoder) : List Text :=
  if encoder.writes.all isUnguarded then ["  return " ++ objectLiteral encoder.writes ++ ";"]
  else
    ("  const json = " ++ objectLiteral (encoder.writes.takeWhile isUnguarded) ++ ";" : Text) ::
      (encoder.writes.dropWhile isUnguarded).map statement ++ [("  return json;" : Text)]

/-- The parameters of an encoder. -/
def parameters (encoder : Encoder) : List Text := "instance" :: encoder.callbacks

/-- The function of an encoder. -/
def render (encoder : Encoder) : Fragment :=
  .function true (toJsonName encoder.className) encoder.parameters encoder.body

end Encoder

/-! ### Tables of fields -/

/-- A constant object with the given entries. -/
def constantTable (name : Text) (entries : List Text) : Fragment :=
  .constant name (if entries.isEmpty then "\x7b\x7d"
    else "\x7b\n" ++ Text.join ",\n" (entries.map fun entry => "  " ++ entry) ++ "\n\x7d")

/-- The table of the JSON keys of fields. -/
def fieldMap (setting : ClassSetting) (fields : List Field) : Fragment :=
  constantTable (fieldMapName setting.model.name) (fields.map fun field =>
    propertyKey field.name ++ ": " ++ (setting.config.key field.name).outputKey.quote)

/-- The entries of the table of encoders, with the given parameters. -/
def encoderEntries (setting : ClassSetting) (parameters : Text) : List Field → Emission (List Text)
  | [] => pure []
  | field :: fields => do
    let code ← Encoder.fieldCode setting field "value"
    let entry := propertyKey field.name ++ ": (" ++ parameters ++ ") => " ++ code
    return entry :: (← encoderEntries setting parameters fields)

/-- The table of encoders of fields. -/
def perFieldToJson (setting : ClassSetting) (fields : List Field) : Emission Fragment := do
  let parameters := Text.join ", " ("value" :: setting.callbacks .encode)
  return constantTable (perFieldToJsonName setting.model.name)
    (← encoderEntries setting parameters fields)

end JsonCompanion.Emit
