import JsonCompanion.Compose.ClassOutput
import JsonCompanion.Patch.Basic
import JsonCompanion.Read.Unit

/-!
# Delegation

A class of a module may delegate to its companion: it gets a member `fromJson` that calls the
factory and a member `toJson` that calls the encoder, and the module imports both functions.

* `Delegate` is such a member, and `missingDelegates` lists those that a class still needs.
* `memberPatch` inserts members behind the last one of a class.
* `importPatch?` makes a module import names of its companion, unless it does so already.
* `delegation` gives all patches of a unit.
-/

namespace JsonCompanion

open Emit Script

/-- A member that calls a function of the companion. -/
structure Delegate where
  isStatic : Bool
  name : Text
  parameters : List Text
  callee : Text
  arguments : List Text

namespace Delegate

/-- The member that calls the factory of a class. -/
def ofFactory (setting : ClassSetting) : Delegate :=
  let parameters : List Text := "json" :: setting.callbacks .decode
  ⟨true, "fromJson", parameters, factoryName setting.model.name, parameters⟩

/-- The member that calls the encoder of a class. -/
def ofEncoder (setting : ClassSetting) : Delegate :=
  let callbacks := setting.callbacks .encode
  ⟨false, "toJson", callbacks, toJsonName setting.model.name, "this" :: callbacks⟩

/-- The text of a member at an indentation. -/
def text (indent : Text) (delegate : Delegate) : Text :=
  let modifier : Text := if delegate.isStatic then "static " else []
  indent ++ modifier ++ delegate.name ++ "(" ++ Text.join ", " delegate.parameters ++ ") \x7b\n" ++
    indent ++ "  return " ++ delegate.callee ++ "(" ++ Text.join ", " delegate.arguments ++
    ");\n" ++ indent ++ "\x7d"

end Delegate

/-- The members that the options of a class ask for. -/
def wantedDelegates (setting : ClassSetting) : List Delegate :=
  (if setting.config.createFactory then [Delegate.ofFactory setting] else []) ++
    (if setting.config.createToJson then [Delegate.ofEncoder setting] else [])

/-- The members that a class still needs. -/
def missingDelegates (setting : ClassSetting) (body : ClassBody) : Attempt (List Delegate) :=
  (wantedDelegates setting).filterM fun delegate => do
    return !(← declaresMember delegate.name delegate.isStatic body.members)

/-! ### Members -/

/-- The part of a line before a place. -/
def lineBefore (source : Text) (place : Nat) : Text :=
  ((source.take place).reverse.takeWhile fun u => u != 0x0A).reverse

/-- The spaces and tabs at the beginning of the line of a place. -/
def indentAt (source : Text) (place : Nat) : Text :=
  (lineBefore source place).takeWhile fun u => u == 0x20 || u == 0x09

/-- The texts of members behind a body that is empty or not. -/
def memberTexts (indent : Text) (isEmpty : Bool) : List Delegate → Text
  | [] => []
  | delegate :: delegates =>
    let gap : Text := if isEmpty then "\n" else "\n\n"
    gap ++ delegate.text indent ++ memberTexts indent false delegates

/-- The insertion of members behind the last one of a class. -/
def memberPatch (path source : Text) (located : LocatedClass) (delegates : List Delegate) : Patch :=
  let brace := located.content.body.stop - 1
  let place := (Text.trimEnd (source.take brace)).length
  let indent := indentAt source located.statement
  let isEmpty := (source.take place).getLast? == some 0x7B
  let ending : Text :=
    if (source.slice place brace).contains 0x0A then [] else "\n" ++ indent
  .inserting path place (memberTexts (indent ++ "  ") isEmpty delegates ++ ending)

/-! ### Imports -/

/-- An import declaration of names. -/
def importStatement (names : List Text) (specifier : Text) : Text :=
  "import \x7b " ++ Text.join ", " names ++ " \x7d from " ++ specifier.quote ++ ";"

/-- A specifier imports a name as it is. -/
def isPlainSpecifier : ImportSpecifier → Bool
  | .named imported bound => !imported.isString && imported.name == bound
  | _ => false

/-- The name that a specifier between braces binds. -/
def namedBinding? : ImportSpecifier → Option Text
  | .named _ bound => some bound
  | _ => none

/-- The place at the top of a module, below a first line that begins with `#!`. -/
def topOf (source : Text) : Nat :=
  if source.beginsWith "#!" then (source.findIdx? fun u => u == 0x0A).elim 0 (· + 1) else 0

/-- The patch that makes a module import names of its companion. -/
def importPatch? (path source : Text) (imports : List LocatedImport) (specifier : Text)
    (names : List Text) : Option Patch :=
  match imports.find? fun i => i.source == specifier with
  | some existing =>
    let present := existing.specifiers.filterMap namedBinding?
    let missing := names.filter fun name => !present.contains name
    if missing.isEmpty then none
    else if existing.specifiers.all isPlainSpecifier then
      some (.replacing path existing.span.start existing.span.stop
        (importStatement (present ++ missing) specifier))
    else some (.inserting path existing.span.stop ("\n" ++ importStatement missing specifier))
  | none =>
    match imports.getLast? with
    | some last =>
      some (.inserting path last.span.stop ("\n" ++ importStatement names specifier))
    | none => some (.inserting path (topOf source) (importStatement names specifier ++ "\n\n"))

/-! ### Units -/

/-- What a class needs: names to import, and patches. -/
structure ClassDelegation where
  names : List Text
  patches : List Patch

/-- What a class of a unit needs; a class that the module does not declare is reported. -/
def classDelegation (options : GenerationOptions) (unit : SourceUnit) (module : Module)
    (content : AnnotatedClass) : Reporting ClassDelegation := do
  let setting ← Collecting.ofAttempt (ClassSetting.ofClass options unit content)
  let wanted := wantedDelegates setting
  if wanted.isEmpty then return ⟨[], []⟩
  match module.findClass? content.model.name with
  | none => do
    Collecting.add (.ofFailure unit.path (.classNotFound content.model.name unit.path))
    return ⟨[], []⟩
  | some located =>
    let missing ← Collecting.ofAttempt (missingDelegates setting located.content)
    return ⟨wanted.map Delegate.callee,
      if missing.isEmpty then [] else [memberPatch unit.path unit.source located missing]⟩

/-- The elements of a list in order, each once. -/
def distinct (names : List Text) : List Text :=
  names.foldl (fun seen name => if seen.contains name then seen else seen ++ [name]) []

/-- The patches of a unit with its classes: their members in order, then the import. -/
def delegation (options : GenerationOptions) (unit : SourceUnit) : Reporting (List Patch) := do
  if unit.classes.isEmpty then return []
  let module ← Collecting.ofAttempt (parseModule unit.path unit.source)
  let classes ← unit.classes.mapM (classDelegation options unit module)
  let names := distinct (classes.flatMap ClassDelegation.names)
  let patches := classes.flatMap ClassDelegation.patches
  if names.isEmpty then return patches
  else return patches ++ (importPatch? unit.path unit.source module.imports
    options.companionSpecifier names).toList

end JsonCompanion
