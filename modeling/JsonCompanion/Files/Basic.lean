import JsonCompanion.Text.Basic

/-!
# Files

`Files` holds the contents of files by path, the accesses that fail, and the paths written so far.

* `Files.read` and `Files.write` fail where they are told to; `Files.read` also fails for a missing
  file.
-/

namespace JsonCompanion

/-- The ways to access a file. -/
inductive FileAccess
  | read
  | write
  deriving DecidableEq

/-- Files with their contents. -/
structure Files where
  contents : List (Text × Text)
  failing : List (Text × FileAccess)
  written : List Text

namespace Files

/-- The value of a key in a list of pairs. -/
def lookup? {α : Type} (key : Text) (pairs : List (Text × α)) : Option α :=
  (pairs.find? fun (known, _) => known == key).map Prod.snd

/-- Sets the value of a key in a list of pairs; a new key goes to the end. -/
def assign {α : Type} (key : Text) (value : α) : List (Text × α) → List (Text × α)
  | [] => [(key, value)]
  | (known, old) :: pairs =>
    if known == key then (key, value) :: pairs else (known, old) :: assign key value pairs

/-- No files. -/
def empty : Files := ⟨[], [], []⟩

/-- The text of a file. -/
def text? (files : Files) (path : Text) : Option Text := lookup? path files.contents

/-- Puts a file into place from outside. -/
def put (files : Files) (path text : Text) : Files :=
  { files with contents := assign path text files.contents }

/-- Removes a file. -/
def remove (files : Files) (path : Text) : Files :=
  { files with contents := files.contents.filter fun (known, _) => known != path }

/-- Makes an access to a path fail from now on, and no other access to it. -/
def failOn (files : Files) (path : Text) (access : FileAccess) : Files :=
  { files with failing := assign path access files.failing }

/-- Why an access to a path is denied, if it is. -/
def denial? (files : Files) (path : Text) (access : FileAccess) : Option Text :=
  if lookup? path files.failing == some access then
    some ("EACCES: permission denied, open '" ++ path ++ "'")
  else none

/-- The text of a file, or why it cannot be read. -/
def read (files : Files) (path : Text) : Except Text Text :=
  match files.denial? path .read, files.text? path with
  | some reason, _ => .error reason
  | none, some text => .ok text
  | none, none => .error ("ENOENT: no such file or directory, open '" ++ path ++ "'")

/-- The files after writing one, or why it cannot be written. -/
def write (files : Files) (path text : Text) : Except Text Files :=
  match files.denial? path .write with
  | some reason => .error reason
  | none => .ok { files.put path text with written := files.written ++ [path] }

end Files

end JsonCompanion
