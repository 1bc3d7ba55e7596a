import JsonCompanion.Collecting
import JsonCompanion.Data.Printed

/-!
# Diagnostics

A diagnostic is a remark about a unit.  `Diagnostic.ofFailure` turns a failure into one, and
`Reporting` computations report diagnostics, also before a failure.
-/

namespace JsonCompanion

/-- The failure that a value stands for which is no failure by itself; a value without a text is one
of another kind. -/
def Failure.ofValue (value : Value) : Attempt Failure :=
  match value.text? with
  | some text => .ok (.foreign "Error" text)
  | none => .error (.foreign "TypeError" "Cannot convert object to primitive value")

/-- How serious a diagnostic is. -/
inductive Severity
  | info
  | warning
  | error
  deriving DecidableEq

/-- A remark about an element of a unit, or about the whole unit. -/
structure Diagnostic where
  severity : Severity
  code : Text
  message : Text
  element : Option Text
  unit : Text
  deriving DecidableEq

/-- The diagnostic of a failure in a unit. -/
def Diagnostic.ofFailure (unit : Text) (failure : Failure) : Diagnostic :=
  ⟨.error, failure.code, failure.message, failure.element, unit⟩

/-- Some diagnostic is an error. -/
def hasErrors (diagnostics : List Diagnostic) : Bool :=
  diagnostics.any fun diagnostic => diagnostic.severity == .error

/-- A computation that reports diagnostics and may fail. -/
abbrev Reporting := Collecting Diagnostic

end JsonCompanion
