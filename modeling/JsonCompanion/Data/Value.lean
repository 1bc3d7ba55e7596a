import JsonCompanion.Number.Decimal
import JsonCompanion.Script.RegularExpression.Literal
import JsonCompanion.Text.Quoted

/-!
# Data

* `Value` is the data that annotations, options and defaults are written in.
* A `Record` lists the properties of an object in their order: keys that are array indices come
  first in ascending order, then the others as they were first written.  `Record.insert` keeps that
  order, and `Record.find?` reads a property.
-/

namespace JsonCompanion

/-- Data of the configuration language. -/
inductive Value
  | undefined
  | null
  | bool (value : Bool)
  | number (value : Number)
  | bigint (value : Int)
  | string (value : Text)
  | regex (literal : RegexLiteral)
  | date (milliseconds : Number)
  | emptyMap
  | function
  | array (items : List Value)
  | object (properties : List (Text × Value))

instance : Inhabited Value := ⟨.undefined⟩

/-- The properties of an object in order. -/
abbrev Record := List (Text × Value)

/-- The number that a text spells as an array index: no leading zeros, below `2 ^ 32 - 1`. -/
def Text.arrayIndex? (t : Text) : Option Nat :=
  match Number.ofDigits? 10 t with
  | some n => if n < 4294967295 && Text.ofNat n == t then some n else none
  | none => none

namespace Record

/-- Whether a new key stands before an old one. -/
def goesBefore (new old : Text) : Bool :=
  match new.arrayIndex?, old.arrayIndex? with
  | some n, some m => decide (n < m)
  | some _, none => true
  | none, _ => false

/-- Puts a new property at its place. -/
def place (key : Text) (value : Value) : Record → Record
  | [] => [(key, value)]
  | (old, content) :: rest =>
    if goesBefore key old then (key, value) :: (old, content) :: rest
    else (old, content) :: place key value rest

/-- Writes a property: an existing key keeps its place, a new one goes to its own. -/
def insert (record : Record) (key : Text) (value : Value) : Record :=
  if record.any fun (old, _) => old == key then
    record.map fun (old, content) => if old == key then (old, value) else (old, content)
  else place key value record

/-- The record that results from writing properties one after another. -/
def ofList (properties : List (Text × Value)) : Record :=
  properties.foldl (fun record (key, value) => insert record key value) []

/-- The value of a property. -/
def find? (record : Record) (key : Text) : Option Value :=
  (List.find? (fun (old, _) => old == key) record).map Prod.snd

/-- The value of a property, `undefined` for a missing one. -/
def get (record : Record) (key : Text) : Value := (find? record key).getD .undefined

/-- The keys in order. -/
def keys (record : Record) : List Text := record.map Prod.fst

end Record

namespace Value

/-- A list of values in order. -/
def isArray : Value → Bool
  | .array _ => true
  | _ => false

/-- An object that holds nothing but its properties. -/
def isPlainObject : Value → Bool
  | .object _ => true
  | _ => false

/-- Any value that is held by reference and is not a function. -/
def isRecord : Value → Bool
  | .regex .. | .date _ | .emptyMap | .array _ | .object _ => true
  | _ => false

/-- An object whose property `type` is a text, the shape of a syntax tree node. -/
def isNodeLike : Value → Bool
  | .object properties =>
    match Record.get properties "type" with
    | .string _ => true
    | _ => false
  | _ => false

/-- The value counts as true in a condition. -/
def isTruthy : Value → Bool
  | .undefined | .null => false
  | .bool b => b
  | .number n => !n.isZero && n != .nan
  | .bigint n => n != 0
  | .string t => !t.isEmpty
  | _ => true

/-- The value is `undefined`. -/
def isUndefined : Value → Bool
  | .undefined => true
  | _ => false

/-- The value is `null` or `undefined`. -/
def isNullish : Value → Bool
  | .undefined | .null => true
  | _ => false

/-- The value is a function. -/
def isFunction : Value → Bool
  | .function => true
  | _ => false

/-- An object whose properties `then` and `catch` are functions. -/
def isPromise : Value → Bool
  | .object properties =>
    (Record.get properties "then").isFunction && (Record.get properties "catch").isFunction
  | _ => false

end Value

end JsonCompanion
