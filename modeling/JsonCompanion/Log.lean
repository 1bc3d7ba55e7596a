import JsonCompanion.Config.Options
import JsonCompanion.Data.Printed

/-!
# Logs

* `LogLevel.admits` says whether a message is printed at a configured level.
* `LogEntry.line` is the printed line of an entry: its scope, its message, and its data as JSON
  unless there is none.
* A `Logger` is code of the caller that takes entries; it may fail at some of them.
-/

namespace JsonCompanion

/-- The levels of a log in ascending order. -/
inductive LogLevel
  | debug
  | info
  | warn
  | error
  | silent
  deriving DecidableEq

namespace LogLevel

/-- All levels in ascending order. -/
def all : List LogLevel := [.debug, .info, .warn, .error, .silent]

/-- The position of a level. -/
def rank : LogLevel → Nat
  | .debug => 0
  | .info => 1
  | .warn => 2
  | .error => 3
  | .silent => 4

/-- The name of a level. -/
def name : LogLevel → Text
  | .debug => "debug"
  | .info => "info"
  | .warn => "warn"
  | .error => "error"
  | .silent => "silent"

/-- The level of a name. -/
def ofName? (t : Text) : Option LogLevel := all.find? fun level => level.name == t

/-- A configured level admits the messages of a level. -/
def admits (configured message : LogLevel) : Bool := decide (configured.rank ≤ message.rank)

/-- The level of a log that is not configured. -/
def usual : LogLevel := .warn

end LogLevel

/-- A message with data, `undefined` for none. -/
structure LogEntry where
  level : LogLevel
  message : Text
  data : Value

/-- The value has keys of its own. -/
def Value.hasKeys : Value → Bool
  | .string t => !t.isEmpty
  | .array items => !items.isEmpty
  | .object properties => !properties.isEmpty
  | _ => false

/-- The failure of data that has no JSON form. -/
def notSerializable : Failure := .foreign "TypeError" "Do not know how to serialize a BigInt"

namespace LogEntry

/-- The JSON form of data. -/
def dataText (data : Value) : Attempt Text :=
  match data.json with
  | .ok form => .ok (form.getD "undefined")
  | .error _ => .error notSerializable

/-- The line of an entry. -/
def line (scope : Text) (entry : LogEntry) : Attempt Text := do
  let head : Text := "[" ++ scope ++ "] " ++ entry.message
  if entry.data.hasKeys then return head ++ " " ++ (← dataText entry.data)
  else return head

/-- The lines of the entries that a configured level admits, with their levels. -/
def lines (scope : Text) (configured : LogLevel) (entries : List LogEntry) :
    Attempt (List (LogLevel × Text)) :=
  (entries.filter fun entry => configured.admits entry.level).mapM fun entry => do
    return (entry.level, ← entry.line scope)

end LogEntry

/-! ### Loggers -/

/-- Takes an entry: `none` if it does, else how it fails. -/
abbrev Logger := LogEntry → Option Failure

namespace Logger

/-- A logger that takes every entry. -/
def NeverFails (logger : Logger) : Prop := ∀ entry, logger entry = none

/-- How a logger fails at the first of some entries that it does not take. -/
def failure? (logger : Logger) (entries : List LogEntry) : Option Failure := entries.findSome? logger

/-- The entries that reach a logger, up to the first one that it does not take. -/
def reached (logger : Logger) : List LogEntry → List LogEntry
  | [] => []
  | entry :: entries =>
    entry :: (if (logger entry).isNone then reached logger entries else [])

end Logger

end JsonCompanion
