import JsonCompanion.Data.Printed
import JsonCompanion.Emit.Names
import JsonCompanion.Failure

/-!
# Literals

`literal` writes data as an expression that evaluates to it.  Dates, maps and functions have no such
form.
-/

namespace JsonCompanion.Emit

/-- A number as an expression; negative zero keeps its sign. -/
def numberLiteral (n : Number) : Text := if n.isNegativeZero then "-0" else n.text

mutual

/-- A value as an expression; the element names it in failures. -/
def literal (element : Text) : Value → Attempt Text
  | .undefined => .ok "undefined"
  | .null => .ok "null"
  | .bool b => .ok (if b then "true" else "false")
  | .number n => .ok (numberLiteral n)
  | .bigint n => .ok (Text.ofInt n ++ "n")
  | .string t => .ok t.quote
  | .regex literal => .ok literal.text
  | .array items => do return "[" ++ Text.join ", " (← literals element items) ++ "]"
  | .object properties => do
    let entries ← entryLiterals element properties
    return if entries.isEmpty then "\x7b\x7d" else "\x7b " ++ Text.join ", " entries ++ " \x7d"
  | .date _ | .emptyMap | .function =>
    .error (.configuration ("The default value of " ++ element.quoted ++ " has no literal form.")
      (some element))

/-- Values as expressions. -/
def literals (element : Text) : List Value → Attempt (List Text)
  | [] => .ok []
  | item :: items => do
    let first ← literal element item
    return first :: (← literals element items)

/-- Properties as entries of an object literal. -/
def entryLiterals (element : Text) : List (Text × Value) → Attempt (List Text)
  | [] => .ok []
  | (key, value) :: properties => do
    let first ← literal element value
    return (propertyKey key ++ ": " ++ first) :: (← entryLiterals element properties)

end

end JsonCompanion.Emit
