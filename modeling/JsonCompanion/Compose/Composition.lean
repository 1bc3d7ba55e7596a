import JsonCompanion.Compose.Delegation

/-!
# Composition

`compose` generates everything for a unit: the fragments of its companion, the tables of
enumerations before the code of classes, and the patches that make its classes delegate to it.

* Fragments with the same text are kept once, where they first occur.
* `Composition.text` joins the fragments by blank lines.
-/

namespace JsonCompanion

open Emit

/-- What is generated for a unit. -/
structure Composition where
  fragments : List Fragment
  patches : List Patch

/-- The text of the fragments, empty without fragments. -/
def Composition.text (composition : Composition) : Text :=
  Text.join "\n\n" (composition.fragments.map Fragment.text)

/-- The fragments of a class, with its warnings. -/
def classFragments (options : GenerationOptions) (unit : SourceUnit) (content : AnnotatedClass) :
    Reporting (List Fragment) := do
  let setting ← Collecting.ofAttempt (ClassSetting.ofClass options unit content)
  Collecting.addAll (warnings unit setting)
  let output ← Collecting.ofAttempt (ClassOutput.generate setting)
  return output.fragments

/-- The fragments of a list in order, each text once. -/
def distinctFragments (fragments : List Fragment) : List Fragment :=
  fragments.foldl (fun seen fragment =>
    if seen.any fun earlier => earlier.text == fragment.text then seen else seen ++ [fragment]) []

/-- The fragments that the enumerations and the classes of a unit contribute, in order. -/
def contribute (options : GenerationOptions) (unit : SourceUnit) : Reporting (List Fragment) := do
  let tables ← Collecting.ofAttempt (unit.enums.mapM enumValues)
  let classes ← unit.classes.mapM (classFragments options unit)
  return tables ++ classes.flatten

/-- The patches of a unit, none unless its classes are to delegate to the companion. -/
def unitPatches (options : GenerationOptions) (unit : SourceUnit) : Reporting (List Patch) :=
  if options.delegates then delegation options unit else pure []

/-- Generates everything for a unit. -/
def compose (options : GenerationOptions) (unit : SourceUnit) : Reporting Composition := do
  let fragments ← contribute options unit
  let patches ← unitPatches options unit
  return ⟨distinctFragments fragments, patches⟩

end JsonCompanion
