import JsonCompanion.Script.Scan
import JsonCompanion.Script.Tree

/-!
# Cursors

A cursor stands on a token of a script.

* `Cursor.begin?` is the cursor on the first token, behind a `#!` line.
* `Cursor.next?` moves to the next token, and `Cursor.resume?` reads on as a template where a
  substitution ends.  The context says what that token may be.
-/

namespace JsonCompanion.Script

/-- A token with its place, what stands behind it, and the comments passed so far, the last one
first.  `written` is the name or the text of the last token so far that is no punctuation, empty for
other values. -/
structure Cursor where
  token : Token
  start : Nat
  stop : Nat
  lineBreak : Bool
  previousStop : Nat
  rest : Text
  comments : List Comment
  written : Text

namespace Cursor

/-- What a token leaves behind as the last name or text. -/
def writtenBy (previous : Text) : Token → Text
  | .finish | .mark _ => previous
  | .word word => word.name
  | .string value _ => value
  | .template value _ => value.getD []
  | _ => []

/-- The cursor on the first token of a text that begins at some offset. -/
def at? (ctx : Context) (t : Text) (offset previousStop : Nat) (comments : List Comment)
    (written : Text) : Option Cursor := do
  let skipped ← skip (!ctx.isModule) t offset .between false comments
  let (token, width) ← tokenAt? ctx skipped.rest
  some {
    token
    start := skipped.offset
    stop := skipped.offset + width
    lineBreak := skipped.lineBreak
    previousStop
    rest := skipped.rest.drop width
    comments := skipped.comments
    written := writtenBy written token }

/-- The cursor on the next token. -/
def next? (c : Cursor) (ctx : Context) : Option Cursor :=
  at? ctx c.rest c.stop c.stop c.comments c.written

/-- The cursor on the first token of a script; a first line `#!` is a comment. -/
def begin? (ctx : Context) (t : Text) : Option Cursor :=
  match Text.dropBeginning? "#!" t with
  | some line => do
    let skipped ← skip false line 2 (.line 0 []) false []
    at? ctx skipped.rest skipped.offset 0 skipped.comments []
  | none => at? ctx t 0 0 [] []

/-- The same place with the brace that ends a substitution read as the beginning of the next part of
the template. -/
def resume? (c : Cursor) (ctx : Context) : Option Cursor := do
  let (token, width) ← templateAt? ctx c.rest
  some { c with
    token
    stop := c.start + width
    rest := c.rest.drop (width - 1)
    written := writtenBy c.written token }

end Cursor

end JsonCompanion.Script
