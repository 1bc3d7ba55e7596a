import JsonCompanion.Text.Basic
import JsonCompanion.Text.CaseTable
import JsonCompanion.Text.IdentifierTable

/-!
# Letters

* `Text.toCapitals` and `Text.toSmalls` map every code point by the full case mappings of Unicode.
* `Text.capitalizeFirst` and `Text.lowerFirst` map the first code unit only.
* `Text.isIdentifierStart` and `Text.isIdentifierPart` say which code points form identifiers;
  `Text.isIdentifier` tells identifiers, and `Text.isPlainIdentifier` those of ASCII units.
-/

namespace JsonCompanion

namespace Text

/-- The image of a code point under a table of runs. -/
def runImage? (runs : List (Nat × Nat × Nat × Int)) (n : Nat) : Option Nat :=
  (runs.find? fun (first, last, step, _) =>
    decide (first ≤ n) && decide (n ≤ last) && (n - first) % step == 0).map
    fun (_, _, _, distance) => ((n : Int) + distance).toNat

/-- The image of a code point under a case mapping. -/
def caseImage (runs : List (Nat × Nat × Nat × Int)) (forms : List (Nat × List Nat)) (n : Nat) :
    List Nat :=
  match forms.find? fun (m, _) => m == n with
  | some (_, image) => image
  | none => [(runImage? runs n).getD n]

/-- All code points in capitals. -/
def toCapitals (t : Text) : Text :=
  t.codePoints.flatMap fun n => (caseImage capitalRuns capitalForms n).flatMap ofCodePoint

/-- All code points in small letters, each by itself. -/
def toSmalls (t : Text) : Text :=
  t.codePoints.flatMap fun n => (caseImage smallRuns smallForms n).flatMap ofCodePoint

/-- The text with its first unit in capitals. -/
def capitalizeFirst : Text → Text
  | [] => []
  | u :: us => toCapitals [u] ++ us

/-- The text with its first unit in small letters. -/
def lowerFirst : Text → Text
  | [] => []
  | u :: us => toSmalls [u] ++ us

/-- The number lies in one of the ranges. -/
def inRanges (ranges : Array (Nat × Nat)) (n : Nat) : Bool :=
  ranges.any fun (first, last) => decide (first ≤ n) && decide (n ≤ last)

/-- Letters, the dollar sign and the underscore begin an identifier. -/
def isIdentifierStart (n : Nat) : Bool :=
  if n < 128 then
    let u := UInt16.ofNat n
    CodeUnit.isSmall u || CodeUnit.isCapital u || u == CodeUnit.ofChar '$' ||
      u == CodeUnit.ofChar '_'
  else inRanges identifierStartRanges n

/-- Starters, digits, marks, connectors and the two joiners continue an identifier. -/
def isIdentifierPart (n : Nat) : Bool :=
  isIdentifierStart n || (decide (48 ≤ n) && decide (n ≤ 57)) ||
  (decide (128 ≤ n) && (n == 0x200C || n == 0x200D || inRanges identifierPartRanges n))

/-- The characters of an identifier: one that may begin it, and others that may continue it. -/
def isIdentifier (name : Text) : Bool :=
  name.codePoints.head?.any isIdentifierStart && name.codePoints.all isIdentifierPart

/-- An ASCII letter, an underscore or a dollar sign. -/
def beginsPlainIdentifier (u : CodeUnit) : Bool :=
  u.isSmall || u.isCapital || u == '_' || u == '$'

/-- An ASCII word unit or a dollar sign. -/
def continuesPlainIdentifier (u : CodeUnit) : Bool := u.isWord || u == '$'

/-- An identifier of ASCII letters, digits, underscores and dollar signs. -/
def isPlainIdentifier : Text → Bool
  | [] => false
  | u :: us => beginsPlainIdentifier u && us.all continuesPlainIdentifier

end Text

end JsonCompanion
