import JsonCompanion.Data.Value
import JsonCompanion.Data.Instant

/-!
# Printed data

* `Value.text?` is the text that a value has when it is put into other text.  An object gives a text
  by its properties `toString` and `valueOf`, and may have none.
* `Value.json` is the JSON form: `undefined` and functions have none and are left out of objects,
  numbers that are not finite become `null`, and integers without bound are refused.

The functions among data give nothing back when they are called.
-/

namespace JsonCompanion

namespace Value

/-- The text of an object: what its own functions give back, if it has any. -/
def objectText? (properties : Record) : Option Text :=
  match Record.find? properties "toString" with
  | none => some "[object Object]"
  | some own =>
    if own.isFunction || (Record.get properties "valueOf").isFunction then some "undefined"
    else none

mutual

/-- The text of a value that is put into other text. -/
def text? : Value → Option Text
  | .undefined => some "undefined"
  | .null => some "null"
  | .bool b => some (if b then "true" else "false")
  | .number n => some n.text
  | .bigint n => some (Text.ofInt n)
  | .string t => some t
  | .regex literal => some literal.text
  | .date ms =>
    match Instant.ofNumber? ms with
    | some instant => some instant.longText
    | none => some "Invalid Date"
  | .emptyMap => some "[object Map]"
  | .function => some "() => \x7b\x7d"
  | .array items => do some (Text.join "," (← itemTexts? items))
  | .object properties => objectText? properties

/-- The texts of the items of an array, empty for `null` and `undefined`. -/
def itemTexts? : List Value → Option (List Text)
  | [] => some []
  | item :: items => do
    let first ← if item.isNullish then some [] else text? item
    some (first :: (← itemTexts? items))

end

mutual

/-- The JSON form of a value, if it has one; `error` for an integer without bound. -/
def json : Value → Except Unit (Option Text)
  | .undefined => .ok none
  | .function => .ok none
  | .null => .ok (some "null")
  | .bool b => .ok (some (if b then "true" else "false"))
  | .number n =>
    match n with
    | .finite .. => .ok (some n.text)
    | _ => .ok (some "null")
  | .bigint _ => .error ()
  | .string t => .ok (some t.quote)
  | .regex .. => .ok (some "\x7b\x7d")
  | .date ms =>
    match Instant.ofNumber? ms with
    | some instant => .ok (some instant.isoText.quote)
    | none => .ok (some "null")
  | .emptyMap => .ok (some "\x7b\x7d")
  | .array items => do
    let parts ← jsonItems items
    .ok (some ("[" ++ Text.join "," parts ++ "]"))
  | .object properties =>
    if (Record.get properties "toJSON").isFunction then .ok none
    else do
      let parts ← jsonProperties properties
      .ok (some ("\x7b" ++ Text.join "," parts ++ "\x7d"))

/-- The JSON forms of items, `null` in place of a missing one. -/
def jsonItems : List Value → Except Unit (List Text)
  | [] => .ok []
  | item :: items => do
    let form ← json item
    let forms ← jsonItems items
    .ok (form.getD "null" :: forms)

/-- The JSON forms of the properties that have one. -/
def jsonProperties : List (Text × Value) → Except Unit (List Text)
  | [] => .ok []
  | (key, value) :: properties => do
    let form ← json value
    let forms ← jsonProperties properties
    match form with
    | some form => .ok ((key.quote ++ ":" ++ form) :: forms)
    | none => .ok forms

end

end Value

end JsonCompanion
