import JsonCompanion.Text.Basic

/-!
# Paths of companions

* `lastPart` is what a path names: the part behind the last slash, slashes at the end apart.
* `extension` is the end of that part from its last point on; a point in front begins no extension.
* `companionPath` puts a suffix before the extension, and `siblingSpecifier` names a file from a
  module beside it.
-/

namespace JsonCompanion

/-- A slash parts a path. -/
def isSlash (u : CodeUnit) : Bool := u == '/'

/-- The last part of a path. -/
def lastPart (path : Text) : Text :=
  ((path.reverse.dropWhile isSlash).takeWhile fun u => !isSlash u).reverse

/-- The extension of the name of a file, with its point. -/
def extensionOfName (name : Text) : Text :=
  let isPoint (u : CodeUnit) : Bool := u == '.'
  let behind : Text := (name.reverse.takeWhile fun u => !isPoint u).reverse
  match (name.reverse.dropWhile fun u => !isPoint u).tail with
  | [] => []
  | _ => if name == (".." : Text) then [] else "." ++ behind

/-- The extension of a path, with its point. -/
def extension (path : Text) : Text := extensionOfName (lastPart path)

/-- The path of the companion of a file. -/
def companionPath (path suffix : Text) : Text :=
  let ending := extension path
  path.take (path.length - ending.length) ++ suffix ++ ending

/-- The specifier that imports a file from the directory it is in. -/
def siblingSpecifier (path : Text) : Text := "./" ++ lastPart path

end JsonCompanion
