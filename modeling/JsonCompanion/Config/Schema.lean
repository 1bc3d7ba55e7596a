import JsonCompanion.Data.Printed
import JsonCompanion.Failure

/-!
# Schemas

A schema says which data is accepted.

* `Schema.check` gives the accepted data in the order of the schema, or the first issue: those of
  known properties come before unknown ones.
* `Verdict.settle` turns the outcome of a check into data or a failure that names the place.
-/

namespace JsonCompanion

/-- A rule for texts. -/
inductive TextRule
  | notEmpty
  | noPathSeparator
  deriving DecidableEq

/-- A description of data. -/
inductive Schema
  | anything
  | bool
  | text (rules : List TextRule)
  | choice (options : List Text)
  | list (item : Schema)
  | optional (schema : Schema)
  | withDefault (value : Value) (schema : Schema)
  | object (isStrict : Bool) (properties : List (Text × Schema))
  | record (value : Schema)

/-- What a check complains about, and where. -/
structure Issue where
  path : List Text
  message : Text

/-- The issue seen from one level up. -/
def Issue.under (segment : Text) (issue : Issue) : Issue :=
  { issue with path := segment :: issue.path }

/-- A checked value, or the first issue. -/
abbrev Checked := Except Issue

/-- The result seen from one level up. -/
def Checked.under {α : Type} (segment : Text) : Checked α → Checked α
  | .ok value => .ok value
  | .error issue => .error (issue.under segment)

/-- The name of the type of a value in messages. -/
def Value.typeName : Value → Text
  | .undefined => "undefined"
  | .null => "null"
  | .bool _ => "boolean"
  | .number n => if n = .nan then "nan" else "number"
  | .bigint _ => "bigint"
  | .string _ => "string"
  | .regex .. => "object"
  | .date _ => "date"
  | .emptyMap => "map"
  | .function => "function"
  | .array _ => "array"
  | .object properties => if isPromise (.object properties) then "promise" else "object"

/-- A value of the wrong type. -/
def mismatch (expected : Text) (value : Value) : Issue where
  path := []
  message := if value.isUndefined then "Required"
    else "Expected " ++ expected ++ ", received " ++ value.typeName

/-- Names between single quotes. -/
def quotedNames (separator : Text) (names : List Text) : Text :=
  Text.join separator (names.map fun name => "'" ++ name ++ "'")

namespace Schema

/-- The complaint of a rule about a text. -/
def complaint? (t : Text) : TextRule → Option Text
  | .notEmpty => if t.isEmpty then some "String must contain at least 1 character(s)" else none
  | .noPathSeparator =>
    if t.isEmpty || t.any fun u => u == '/' || u == '\\' then
      some "must not contain path separators"
    else none

/-- Checks a text against rules in order. -/
def checkText (rules : List TextRule) (value : Value) : Checked Value :=
  match value with
  | .string t =>
    match rules.findSome? (complaint? t) with
    | some message => .error ⟨[], message⟩
    | none => .ok value
  | _ => .error (mismatch "string" value)

/-- Checks that a value is one of some texts. -/
def checkChoice (options : List Text) (value : Value) : Checked Value :=
  let listed := quotedNames " | " options
  match value with
  | .string t =>
    if options.contains t then .ok value
    else .error ⟨[], "Invalid enum value. Expected " ++ listed ++ ", received '" ++ t ++ "'"⟩
  | _ => .error (mismatch listed value)

/-- The properties that a schema for objects looks at. -/
def propertiesOf? : Value → Option Record
  | .object properties => if Value.isPromise (.object properties) then none else some properties
  | .regex .. => some []
  | _ => none

/-- Checks items from an index on. -/
def checkItems (check : Value → Checked Value) (index : Nat) : List Value → Checked (List Value)
  | [] => .ok []
  | item :: items => do
    let first ← Checked.under (Text.ofNat index) (check item)
    let rest ← checkItems check (index + 1) items
    return first :: rest

/-- Checks the values of a record; the key of the prototype is dropped. -/
def checkEntries (check : Value → Checked Value) : Record → Checked Record
  | [] => .ok []
  | (key, value) :: properties => do
    let first ← Checked.under key (check value)
    let rest ← checkEntries check properties
    return if key == ("__proto__" : Text) then rest else (key, first) :: rest

mutual

/-- The data that a schema accepts, or the first issue. -/
def check : Schema → Value → Checked Value
  | .anything, value => .ok value
  | .bool, value =>
    match value with
    | .bool _ => .ok value
    | _ => .error (mismatch "boolean" value)
  | .text rules, value => checkText rules value
  | .choice options, value => checkChoice options value
  | .list item, value =>
    match value with
    | .array items => do return .array (← checkItems (check item) 0 items)
    | _ => .error (mismatch "array" value)
  | .optional schema, value => if value.isUndefined then .ok value else check schema value
  | .withDefault whenMissing schema, value =>
    check schema (if value.isUndefined then whenMissing else value)
  | .object isStrict properties, value =>
    match propertiesOf? value with
    | some held => do
      let accepted ← checkProperties properties held
      let unknown := held.keys.filter fun key => !properties.any fun (known, _) => known == key
      if isStrict && !unknown.isEmpty then
        .error ⟨[], "Unrecognized key(s) in object: " ++ quotedNames ", " unknown⟩
      else return .object accepted
    | none => .error (mismatch "object" value)
  | .record schema, value =>
    match propertiesOf? value with
    | some held => do return .object (Record.ofList (← checkEntries (check schema) held))
    | none => .error (mismatch "object" value)

/-- The accepted values of known properties: those present, and those with a default. -/
def checkProperties : List (Text × Schema) → Record → Checked Record
  | [], _ => .ok []
  | (key, schema) :: properties, held => do
    let value ← Checked.under key (check schema (Record.get held key))
    let rest ← checkProperties properties held
    let isHeld := (Record.find? held key).isSome || !value.isUndefined
    return if isHeld then (key, value) :: rest else rest

end

end Schema

/-- The outcome of a check: not known yet, an issue, some data, or nothing said about the data. -/
inductive Verdict
  | pending
  | issue (issue : Issue)
  | accepted (value : Value)
  | silent

namespace Verdict

/-- The verdict of a schema. -/
def ofSchema (schema : Schema) (value : Value) : Verdict :=
  match schema.check value with
  | .ok data => .accepted data
  | .error found => .issue found

/-- The place of an issue in a message, empty for the whole. -/
def location (path : List Text) : Text :=
  let place := Text.join "." path
  if place.isEmpty then [] else " at " ++ place.quoted

/-- The accepted data, the input itself if nothing was said, or a failure of the element. -/
def settle (element : Text) (input : Value) : Verdict → Attempt Value
  | .pending => .error (.configuration
      ("Async schema validation is not supported for " ++ element.quoted ++ ".") (some element))
  | .issue found => .error (.configuration
      ("Invalid configuration for " ++ element.quoted ++ location found.path ++ ": " ++
        found.message)
      (some element))
  | .accepted value => .ok value
  | .silent => .ok input

end Verdict

/-- The data that a schema accepts, or a failure of the element. -/
def Schema.validate (schema : Schema) (element : Text) (value : Value) : Attempt Value :=
  (Verdict.ofSchema schema value).settle element value

end JsonCompanion
