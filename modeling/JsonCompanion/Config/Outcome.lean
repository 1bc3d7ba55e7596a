import JsonCompanion.Config.Schema

/-!
# Outcomes of other checks

A check that is not written as a schema gives back data that says what it found: `issues`, of which
the first one counts, or else a `value`.

* `Verdict.ofOutcome` reads the verdict off that data.  Data of a form that cannot be read is a
  failure by itself.
-/

namespace JsonCompanion

/-- The failure of data that has not the form it is used in. -/
def Failure.malformed (reason : Text) : Failure := .foreign "TypeError" reason

/-- A property of a value, `undefined` for a missing one. -/
def Value.property (value : Value) (key : Text) : Value :=
  match value with
  | .object properties => Record.get properties key
  | _ => .undefined

/-- The text of a value inside a message. -/
def Value.textInside (value : Value) : Attempt Text :=
  match value.text? with
  | some text => .ok text
  | none => .error (.malformed "Cannot convert object to primitive value")

namespace Verdict

/-- The first of the issues that an outcome lists, if there is one; the units of a text count as its
items. -/
def firstIssue? : Value → Attempt (Option Value)
  | .undefined | .null | .emptyMap => .ok none
  | .array items => .ok items.head?
  | .string t => .ok ((t.head?.map fun u => Value.string [u]))
  | _ => .error (.malformed "issues is not iterable")

/-- The text of a step of a path: the key of an object, or the step itself. -/
def stepText (step : Value) : Attempt Text :=
  match step with
  | .null => .error (.malformed "Cannot read properties of null")
  | .object properties => (Record.get properties "key").textInside
  | .array _ | .regex .. | .date _ | .emptyMap => Value.textInside .undefined
  | step => step.textInside

/-- The steps of the path of an issue; nothing, or a function, stands for none. -/
def pathSteps (path : Value) : Attempt (List Text) :=
  match path with
  | .array steps => steps.mapM stepText
  | .function => .ok []
  | path =>
    let isEmpty := match path.property "length" with
      | .number n => n.isZero
      | _ => false
    if !path.isTruthy || isEmpty then .ok []
    else .error (.malformed "path.map is not a function")

/-- The value that an outcome without issues gives, if it gives one. -/
def valueOf (outcome : Value) : Attempt Verdict :=
  match outcome with
  | .object properties =>
    match Record.find? properties "value" with
    | some value => .ok (.accepted value)
    | none => .ok .silent
  | outcome =>
    if outcome.isRecord || outcome.isFunction then .ok .silent
    else .error (.malformed "Cannot use 'in' operator to search for 'value'")

/-- The verdict that an outcome stands for. -/
def ofOutcome (outcome : Value) : Attempt Verdict := do
  if outcome.isNullish then throw (.malformed "Cannot read properties of undefined")
  match ← firstIssue? (outcome.property "issues") with
  | some found =>
    if found.isTruthy then
      let path ← pathSteps (found.property "path")
      return .issue ⟨path, ← (found.property "message").textInside⟩
    else valueOf outcome
  | none => valueOf outcome

end Verdict

end JsonCompanion
