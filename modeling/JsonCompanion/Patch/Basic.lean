import JsonCompanion.Failure
import JsonCompanion.Number.Decimal

/-!
# Patches

A patch replaces a range of a text, from one offset up to another.

* `Patch.apply` puts all patches of a batch into a text.  It goes from the back to the front, of
  patches with the same start from the last to the first, so that insertions at one place stay in
  the order of the batch.
* `Patch.complaint?` says why a range is refused: it is no range, it leaves the text, or it overlaps
  a range that was replaced before.
-/

namespace JsonCompanion

/-- A place in a text, or a number that is none. -/
inductive Offset
  | at (n : Int)
  | nowhere (n : Number)
  deriving DecidableEq

namespace Offset

/-- The offset that a number gives. -/
def ofNumber (n : Number) : Offset :=
  match n.toInt? with
  | some i => .at i
  | none => .nowhere n

/-- The number of an offset. -/
def number : Offset → Number
  | .at n => .ofInt n
  | .nowhere n => n

/-- The text of an offset in messages. -/
def text (offset : Offset) : Text := offset.number.text

/-- One offset is smaller than another. -/
def below : Offset → Offset → Bool
  | .at n, .at m => decide (n < m)
  | a, b => a.number.below b.number

end Offset

/-- The replacement of a range of a file. -/
structure Patch where
  path : Text
  start : Offset
  stop : Offset
  replacement : Text
  deriving DecidableEq

namespace Patch

/-- The replacement of a range between places. -/
def replacing (path : Text) (start stop : Nat) (replacement : Text) : Patch :=
  ⟨path, .at start, .at stop, replacement⟩

/-- The insertion of a text at a place. -/
def inserting (path : Text) (place : Nat) (text : Text) : Patch := replacing path place place text

/-- The text of the range in messages. -/
def range (patch : Patch) : Text := "[" ++ patch.start.text ++ ", " ++ patch.stop.text ++ ")"

/-- The bounds of a range that lies behind the beginning of a text. -/
def bounds? (patch : Patch) : Option (Nat × Nat) :=
  match patch.start, patch.stop with
  | .at (.ofNat start), .at (.ofNat stop) => if start ≤ stop then some (start, stop) else none
  | _, _ => none

/-- Puts a later patch before the earlier ones that do not start behind it. -/
def place (later : Patch) : List Patch → List Patch
  | [] => [later]
  | patch :: patches =>
    if later.start.below patch.start then patch :: place later patches
    else later :: patch :: patches

/-- The patches from the back to the front, those of one start from the last to the first. -/
def backwards (patches : List Patch) : List Patch :=
  patches.foldl (fun list patch => place patch list) []

/-- The failure of a range of a file. -/
def refusal (path reason : Text) : Failure := .patchRange reason path

/-- Why the range between two places is refused in a text of a length, given the start of the range
that was replaced before. -/
def complaint? (patch : Patch) (path : Text) (length stop : Nat) (previous : Option Nat) :
    Option Text :=
  if length < stop then
    some ("Patch range " ++ patch.range ++ " exceeds the length of " ++ path ++ " (" ++
      Text.ofNat length ++ ").")
  else
    match previous with
    | some start =>
      if start < stop then
        some ("Patch range " ++ patch.range ++ " overlaps another patch of " ++ path ++
          " starting at " ++ Offset.text (.at start) ++ ".")
      else none
    | none => none

/-- Puts patches into a text in the given order. -/
def applyInOrder (path : Text) : (previous : Option Nat) → Text → List Patch → Attempt Text
  | _, current, [] => .ok current
  | previous, current, patch :: patches =>
    match patch.bounds? with
    | none =>
      .error (refusal path ("Invalid patch range " ++ patch.range ++ " for " ++ path ++ "."))
    | some (start, stop) =>
      match patch.complaint? path current.length stop previous with
      | some reason => .error (refusal path reason)
      | none =>
        applyInOrder path (some start)
          (current.take start ++ patch.replacement ++ current.drop stop) patches

/-- Puts all patches of a batch into the text of a file. -/
def apply (path text : Text) (patches : List Patch) : Attempt Text :=
  applyInOrder path none text (backwards patches)

end Patch

end JsonCompanion
