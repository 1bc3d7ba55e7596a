import JsonCompanion.Failure
import JsonCompanion.Data.Printed
import JsonCompanion.Script.Tree

/-!
# Static values

Data is read from expressions without running them.

* `Expr.atom?` is the value of an atom: a literal, a constant, a signed number, or a template of
  atoms.
* `Expr.value` is the value of any data expression: an atom, an array or an object.  A part that is
  no data is an error that names its place, never a part left out.
-/

namespace JsonCompanion.Script

/-- Puts the texts of the substitutions between the chunks of a template. -/
def interleave : (chunks texts : List Text) → Text
  | chunk :: chunks, text :: texts => chunk ++ text ++ interleave chunks texts
  | chunk :: _, [] => chunk
  | [], _ => []

/-- The constant that an identifier names. -/
def constantOf? (name : Text) : Option Value :=
  if name == ("undefined" : Text) then some .undefined
  else if name == ("NaN" : Text) then some (.number .nan)
  else if name == ("Infinity" : Text) then some (.number (.infinity false))
  else none

/-- The result of a prefix operator on a value: signs apply to numbers only. -/
def UnaryOp.apply? : UnaryOp → Value → Option Value
  | .void, _ => some .undefined
  | .minus, .number n => some (.number n.negate)
  | .minus, .bigint n => some (.bigint (-n))
  | .plus, .number n => some (.number n)
  | _, _ => none

mutual

/-- The value of an atom. -/
def Expr.atom? : Expr → Option Value
  | .string value => some (.string value)
  | .number value => some (.number value)
  | .bigint value => some (.bigint value)
  | .bool value => some (.bool value)
  | .null => some .null
  | .regex literal => some (.regex literal.inOrder)
  | .name constant => constantOf? constant
  | .unary op operand => do op.apply? (← Expr.atom? operand)
  | .template chunks parts => do some (.string (interleave chunks (← Expr.atomTexts? parts)))
  | _ => none

/-- The texts of atoms. -/
def Expr.atomTexts? : List Expr → Option (List Text)
  | [] => some []
  | part :: parts => do
    let value ← Expr.atom? part
    some ((← value.text?) :: (← Expr.atomTexts? parts))

end

/-- The text of a key that is known without running the script. -/
def Key.text? : Key → Option Text
  | .label name => some name
  | .literal value | .computed value =>
    match value.atom? with
    | some (.string text) => some text
    | some (.number n) => some n.text
    | _ => none
  | .privateName _ | .missing => none

/-- The failure of a part that is no data. -/
def dynamicValue (label reason : Text) : Failure :=
  .configuration (label.quoted ++ " must be a static value: " ++ reason ++ ".") (some label)

/-- The label of an element of an array. -/
def elementLabel (label : Text) (index : Nat) : Text := label ++ "[" ++ Text.ofNat index ++ "]"

/-- The label of a property of an object. -/
def propertyLabel (label key : Text) : Text := label ++ "." ++ key

mutual

/-- The data that an expression denotes; the label names it in failures. -/
def Expr.value (label : Text) : Expr → Attempt Value
  | .array elements => do return .array (← Element.values label 0 elements)
  | .object properties => do return .object (← Property.record label [] properties)
  | expr =>
    match expr.atom? with
    | some value => .ok value
    | none => .error (dynamicValue label (expr.kindName ++ " is evaluated at runtime"))

/-- The data of the elements of an array from an index on. -/
def Element.values (label : Text) (index : Nat) : List Element → Attempt (List Value)
  | [] => .ok []
  | .hole :: _ => .error (dynamicValue (elementLabel label index) "array holes are not supported")
  | .spread _ :: _ =>
    .error (dynamicValue (elementLabel label index) "spread elements are not supported")
  | .item expr :: elements => do
    let value ← Expr.value (elementLabel label index) expr
    return value :: (← Element.values label (index + 1) elements)

/-- Adds the data of the properties of an object to a record. -/
def Property.record (label : Text) (record : Record) : List Property → Attempt Record
  | [] => .ok record
  | .spread _ :: _ => .error (dynamicValue label "spread elements are not supported")
  | .method key :: _ =>
    match key.text? with
    | none => .error (dynamicValue label "property keys must be static")
    | some text =>
      .error (dynamicValue (propertyLabel label text) "methods and accessors are not supported")
  | .shorthandDefault name _ :: _ =>
    .error (dynamicValue (propertyLabel label name) "AssignmentPattern is evaluated at runtime")
  | .entry key expr :: properties =>
    match key.text? with
    | none => .error (dynamicValue label "property keys must be static")
    | some text => do
      let value ← Expr.value (propertyLabel label text) expr
      Property.record label (record.insert text value) properties

end

end JsonCompanion.Script
