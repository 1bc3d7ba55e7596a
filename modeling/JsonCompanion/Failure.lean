import JsonCompanion.Text.Basic

/-!
# Failures

* `Failure` lists what can go wrong, with the data that a message needs.
* `Failure.message` and `Failure.element` give the wording and the element at fault.
* `Failure.code` is the short name of a failure in diagnostics, made of the name of its kind; a
  failure of no kind of the library has the code `internal`.
-/

namespace JsonCompanion

/-- What went wrong.  Code of the caller may add kinds of its own (`derived`). -/
inductive Failure
  | general (reason : Text) (element : Option Text)
  | configuration (reason : Text) (element : Option Text)
  | duplicateKey (className outputKey first second : Text)
  | unavailableField (reason : Text) (element : Option Text)
  | unsupportedType (type element : Text)
  | sourceRead (reason path : Text)
  | sourceParse (reason path : Text)
  | classNotFound (className path : Text)
  | patchRange (reason path : Text)
  | patchFile (reason path : Text)
  | derived (kind reason : Text) (element : Option Text)
  | foreign (kind reason : Text)

namespace Failure

/-- The wording of a failure. -/
def message : Failure → Text
  | .general reason _ => reason
  | .configuration reason _ => reason
  | .duplicateKey className outputKey first second =>
    "More than one field of " ++ className.quoted ++ " has the JSON key " ++ outputKey.quoted ++
      ": " ++ first.quoted ++ " and " ++ second.quoted ++ "."
  | .unavailableField reason _ => reason
  | .unsupportedType type element =>
    "Could not generate JSON conversion code for " ++ element.quoted ++ " of type " ++
      type.quoted ++ "."
  | .sourceRead reason _ => reason
  | .sourceParse reason _ => reason
  | .classNotFound className path => "Class " ++ className.quoted ++ " not found in " ++ path ++ "."
  | .patchRange reason _ => reason
  | .patchFile reason _ => reason
  | .derived _ reason _ => reason
  | .foreign _ reason => reason

/-- The element at fault: a class, a field, an option or a file. -/
def element : Failure → Option Text
  | .general _ element => element
  | .configuration _ element => element
  | .duplicateKey className _ _ second => some (className ++ "." ++ second)
  | .unavailableField _ element => element
  | .unsupportedType _ element => some element
  | .sourceRead _ path => some path
  | .sourceParse _ path => some path
  | .classNotFound className _ => some className
  | .patchRange _ path => some path
  | .patchFile _ path => some path
  | .derived _ _ element => element
  | .foreign .. => none

/-- The name of the kind of a failure. -/
def kind : Failure → Text
  | .general .. => "CodegenError"
  | .configuration .. => "ConfigurationError"
  | .duplicateKey .. => "DuplicateKeyError"
  | .unavailableField .. => "UnavailableFieldError"
  | .unsupportedType .. => "UnsupportedTypeError"
  | .sourceRead .. => "SourceReadError"
  | .sourceParse .. => "SourceParseError"
  | .classNotFound .. => "ClassNotFoundError"
  | .patchRange .. => "PatchRangeError"
  | .patchFile .. => "PatchIoError"
  | .derived kind .. => kind
  | .foreign kind _ => kind

/-- The name of a kind without `Error` at its end. -/
def stem (kind : Text) : Text :=
  ((Text.dropBeginning? (Text.ofString "Error").reverse kind.reverse).map List.reverse).getD kind

/-- A name in small letters, with a dash in front of every capital that is not the first unit. -/
def dashed : Text → Text
  | [] => []
  | u :: us => u.toSmall :: us.flatMap fun v => if v.isCapital then ['-', v.toSmall] else [v]

/-- The short name of a failure in diagnostics. -/
def code : Failure → Text
  | .foreign .. => "internal"
  | failure => dashed (stem failure.kind)

example : (patchFile "no space left" "a.js").code = "patch-io" := by decide

end Failure

/-- A result, or what went wrong. -/
abbrev Attempt := Except Failure

end JsonCompanion
