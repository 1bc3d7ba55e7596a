import JsonCompanion.Script.Tree

/-!
# Documentation comments

* `docCommentBefore?` finds the documentation comment that stands directly before a place.
* `DocTags.ofText` reads the tags of a comment: a declared type, marks, and type parameters.
* `braced?` is the text between a brace and the brace that closes it.
-/

namespace JsonCompanion

open Script (Comment)

/-- The tags of a documentation comment. -/
structure DocTags where
  type : Option Text
  isReadonly : Bool
  isPrivate : Bool
  isEnum : Bool
  templates : List Text

/-- No tags. -/
def DocTags.none : DocTags := ⟨.none, false, false, false, []⟩

/-- The documentation comment before an offset, with nothing but blanks between. -/
def docCommentBefore? (source : Text) (comments : List Comment) (offset : Nat) : Option Text := do
  let comment ← (comments.takeWhile fun c => decide (c.stop ≤ offset)).getLast?
  if comment.kind == .block && comment.value.beginsWith "*" &&
      Text.isBlank (source.slice comment.stop offset) then
    some comment.value
  else Option.none

/-- The text up to the brace that closes the given number of open braces. -/
def closedAt? : (depth : Nat) → Text → Option Text
  | _, [] => none
  | depth, u :: us =>
    if u == '\x7b' then (closedAt? (depth + 1) us).map (u :: ·)
    else if u == '\x7d' then
      if depth ≤ 1 then some [] else (closedAt? (depth - 1) us).map (u :: ·)
    else (closedAt? depth us).map (u :: ·)

/-- The text between the brace that a text begins with and the brace that closes it, trimmed. -/
def braced? : Text → Option Text
  | [] => none
  | _ :: us => (closedAt? 1 us).map Text.trim

/-- The first place where a tag is followed by an opening brace, as the text from the brace on. -/
def tagBrace? (tag : Text) : Text → Option Text
  | [] => none
  | u :: us =>
    match (Text.dropBeginning? ("@" ++ tag) (u :: us)).map Text.trimStart with
    | some rest =>
      if rest.head? == some (CodeUnit.ofChar '\x7b') then some rest else tagBrace? tag us
    | none => tagBrace? tag us

/-- The type in braces behind a tag. -/
def typeOfTag? (text tag : Text) : Option Text := do braced? (← tagBrace? tag text)

/-- A tag occurs that is not the beginning of a longer one. -/
def hasTag (tag : Text) : Text → Bool
  | [] => false
  | u :: us =>
    match Text.dropBeginning? ("@" ++ tag) (u :: us) with
    | some rest => !(rest.head?.any fun (v : CodeUnit) => v.isWord || v == '-') || hasTag tag us
    | none => hasTag tag us

/-- The unit may stand in a list of type parameters. -/
def isTemplateUnit (u : CodeUnit) : Bool := u != 0x0A && u != '*' && u != '@'

/-- The identifiers that the parts of a list begin with. -/
def listedNames (declared : Text) : List Text :=
  (declared.splitOn ',').filterMap fun part =>
    let word : Text := part.trim.takeWhile fun u => !u.isBlank
    if word.isPlainIdentifier then some word else none

/-- What a tag for type parameters declares, and how many units of the text it covers. -/
structure TemplateMatch where
  declared : Text
  width : Nat

/-- A list of type parameters behind blanks, at least one unit long. -/
def templateList? (before : Nat) (rest : Text) : Option TemplateMatch :=
  let declared := rest.takeWhile isTemplateUnit
  if declared.isEmpty then none else some ⟨declared, before + declared.length⟩

/-- A list that consists of the last blank that is no line feed. -/
def blankList? (before : Nat) (blanks : Text) : Option TemplateMatch :=
  let kept := (blanks.reverse.dropWhile fun u => u == 0x0A).length
  if kept = 0 then none else some ⟨[], before + kept⟩

/-- A constraint in braces, up to the first closing brace, and the list behind it. -/
def constrainedList? (before : Nat) (rest : Text) : Option TemplateMatch :=
  if rest.head? == some (CodeUnit.ofChar '\x7b') then
    let inner := rest.takeWhile fun u => u != CodeUnit.ofChar '\x7d'
    if inner.length < rest.length then
      let behind := rest.drop (inner.length + 1)
      let blanks := behind.takeWhile CodeUnit.isBlank
      let width := before + inner.length + 1
      (templateList? (width + blanks.length) (behind.drop blanks.length)).or
        (blankList? width blanks)
    else none
  else none

/-- What stands behind the tag for type parameters: blanks, perhaps a constraint, and the list. -/
def templateAt? (behind : Text) : Option TemplateMatch :=
  let blanks := behind.takeWhile CodeUnit.isBlank
  let rest := behind.drop blanks.length
  if blanks.isEmpty then none
  else ((constrainedList? blanks.length rest).or (templateList? blanks.length rest)).or
    (blankList? 1 (blanks.drop 1))

/-- The type parameters that tags declare; the first argument counts units to pass. -/
def templateNames : (pending : Nat) → Text → List Text
  | _, [] => []
  | pending + 1, _ :: us => templateNames pending us
  | 0, u :: us =>
    match Text.dropBeginning? "@template" (u :: us) with
    | some behind =>
      match templateAt? behind with
      | some found => listedNames found.declared ++ templateNames (8 + found.width) us
      | none => templateNames 0 us
    | none => templateNames 0 us

/-- The tags in the text of a documentation comment. -/
def DocTags.ofText (text : Text) : DocTags where
  type := (((typeOfTag? text "type").or (typeOfTag? text "returns")).or
    (typeOfTag? text "return")).or (typeOfTag? text "param")
  isReadonly := hasTag "readonly" text
  isPrivate := hasTag "private" text || hasTag "protected" text
  isEnum := hasTag "enum" text
  templates := templateNames 0 text

/-- The tags of a comment, none without a comment. -/
def DocTags.ofComment : Option Text → DocTags
  | some text => .ofText text
  | .none => .none

end JsonCompanion
