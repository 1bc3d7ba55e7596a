import JsonCompanion.Model.Basic
import JsonCompanion.Text.Letter
import JsonCompanion.Text.Quoted

/-!
# Imports of companions

A companion imports what its code refers to.

* `references` finds a name that stands in code with no letter, digit, `_` or `$` beside it.
* `companionImports` takes a name from the exports of the source module, else from its default
  export, else from where the source module imports it.
* `renderCompanion` is the text of a companion module.
-/

namespace JsonCompanion

/-- A name stands at the beginning of a text and is not continued. -/
def beginsWithName (name t : Text) : Bool :=
  match Text.dropBeginning? name t with
  | some rest => !rest.head?.any Text.continuesPlainIdentifier
  | none => false

/-- A name stands in a text; the first argument says whether something before could be part of
it. -/
def referencesFrom (isContinued : Bool) (name : Text) : Text → Bool
  | [] => !isContinued && beginsWithName name []
  | u :: us =>
    !isContinued && beginsWithName name (u :: us) ||
      referencesFrom (Text.continuesPlainIdentifier u) name us

/-- A name stands in code as a whole. -/
def references (code name : Text) : Bool := referencesFrom false name code

/-- An import declaration of a companion. -/
inductive ImportStatement
  | byDefault (bound source : Text)
  | namespace (bound source : Text)
  | named (bindings : List (Text × Text)) (source : Text)

namespace ImportStatement

/-- The names that a declaration binds. -/
def boundNames : ImportStatement → List Text
  | .byDefault bound _ => [bound]
  | .namespace bound _ => [bound]
  | .named bindings _ => bindings.map Prod.snd

/-- A binding between braces: the exported name, and the bound name if it differs. -/
def bindingText (imported bound : Text) : Text :=
  if imported == bound then bound else imported ++ " as " ++ bound

/-- The text of a declaration. -/
def text : ImportStatement → Text
  | .byDefault bound source => "import " ++ bound ++ " from " ++ source.quote ++ ";"
  | .namespace bound source => "import * as " ++ bound ++ " from " ++ source.quote ++ ";"
  | .named bindings source =>
    "import \x7b " ++
      Text.join ", " (bindings.map fun (imported, bound) => bindingText imported bound) ++
      " \x7d from " ++ source.quote ++ ";"

/-- Declarations of bindings between braces: one, or none without bindings. -/
def ofNamed (bindings : List (Text × Text)) (source : Text) : List ImportStatement :=
  if bindings.isEmpty then [] else [.named bindings source]

/-- The declaration of a binding that has one of its own. -/
def ofBinding? (binding : ImportBinding) : Option ImportStatement :=
  match binding.kind with
  | .byDefault => some (.byDefault binding.bound binding.source)
  | .namespace => some (.namespace binding.bound binding.source)
  | .named => none

/-- The exported and the bound name of a binding between braces. -/
def namedPair? (binding : ImportBinding) : Option (Text × Text) :=
  match binding.kind with
  | .named => some (binding.imported, binding.bound)
  | _ => none

/-- The declarations of bindings from one source: those between braces come last, together. -/
def ofBindings (source : Text) (bindings : List ImportBinding) : List ImportStatement :=
  bindings.filterMap ofBinding? ++ ofNamed (bindings.filterMap namedPair?) source

end ImportStatement

/-- How a companion names the source module, and how the source module names the companion. -/
structure Specifiers where
  source : Text
  companion : Text

/-- The bindings of the source module that the code refers to, the first of each name; those of the
companion itself and of taken names are left out. -/
def neededBindings (code companion : Text) :
    (taken : List Text) → List ImportBinding → List ImportBinding
  | _, [] => []
  | taken, binding :: bindings =>
    let isLeftOut :=
      binding.source == companion || taken.contains binding.bound || !references code binding.bound
    if isLeftOut then
      neededBindings code companion taken bindings
    else binding :: neededBindings code companion (binding.bound :: taken) bindings

/-- The sources of bindings in order, each once. -/
def sourcesOf (bindings : List ImportBinding) : List Text :=
  bindings.foldl (fun seen binding =>
    if seen.contains binding.source then seen else seen ++ [binding.source]) []

/-- The imports of a companion with the given code. -/
def companionImports (unit : SourceUnit) (code : Text) (specifiers : Specifiers) :
    List ImportStatement :=
  let exported := unit.exportedNames.filter (references code)
  let byDefault := unit.defaultExport.toList.filter fun name =>
    !exported.contains name && references code name
  let needed := neededBindings code specifiers.companion (exported ++ byDefault) unit.imports
  byDefault.map (fun name => .byDefault name specifiers.source) ++
    ImportStatement.ofNamed (exported.map fun name => (name, name)) specifiers.source ++
    (sourcesOf needed).flatMap fun source =>
      ImportStatement.ofBindings source (needed.filter fun binding => binding.source == source)

/-- The first line of a companion. -/
def companionHeader : Text := "// Generated by class-json-codegen. Do not edit."

/-- The text of a companion with the given code. -/
def renderCompanion (unit : SourceUnit) (code : Text) (specifiers : Specifiers) : Text :=
  let imports := (companionImports unit code specifiers).map ImportStatement.text
  let sections : List Text := if imports.isEmpty then [] else [Text.join "\n" imports]
  Text.join "\n\n" (companionHeader :: sections ++ [code]) ++ "\n"

end JsonCompanion
