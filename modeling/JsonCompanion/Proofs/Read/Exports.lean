import Mathlib.Data.List.Flatten
import Mathlib.Data.List.Perm.Basic
import JsonCompanion.Read.Declarations
import JsonCompanion.Script.Grammar

/-!
# Exported names

Which of the bindings that a module exports unchanged, that is, under the names they have inside,
are listed.

* `StatementBody.exports` are the exports of a statement in source order, and
  `Module.unchangedExports` the names of those in a module that are unchanged.
* `Module.destructuredExports` are the names that patterns with parts bind in exported declarations.
* `exportedNames_settle`: all unchanged exports are listed but the destructured ones.
-/

namespace JsonCompanion.Script

/-! ### Exports -/

/-- The names that a declaration binds, from left to right. -/
def Declaration.boundNames : Declaration → List Text
  | .class body => body.name.toList
  | .function name => name.toList
  | .declarators list => list.flatMap fun declarator => declarator.pattern.boundNames

/-- What a module exports: a binding of its own under some name, the value of its default export, or
what it passes on from another module. -/
inductive Export
  | binding (inside outside : Text)
  | byDefault
  | passedOn

/-- What a statement exports, in source order. -/
def StatementBody.exports : StatementBody → List Export
  | .exportDeclaration declared => declared.boundNames.map fun bound => .binding bound bound
  | .exportNames specifiers none => specifiers.map fun s => .binding s.inner.name s.exported.name
  | .exportNames specifiers (some _) => specifiers.map fun _ => .passedOn
  | .exportDefault _ => [.byDefault]
  | .exportAll => [.passedOn]
  | .declaration _ | .importNames .. | .expression _ | .other => []

/-- The name of a binding that is exported under the name it has inside. -/
def Export.unchanged? : Export → Option Text
  | .binding inside outside => if inside = outside then some inside else none
  | .byDefault | .passedOn => none

/-- The names that a statement exports unchanged. -/
def StatementBody.unchangedExports (body : StatementBody) : List Text :=
  body.exports.filterMap Export.unchanged?

/-- The names that a module exports unchanged, in source order. -/
def Module.unchangedExports (module : Module) : List Text :=
  module.statements.flatMap fun statement => statement.body.unchangedExports

/-- The names that the parts of a pattern bind. -/
def Pattern.partNames : Pattern → List Text
  | .name _ => []
  | pattern => pattern.boundNames

/-- The names that patterns with parts bind in an exported declaration. -/
def StatementBody.destructuredExports : StatementBody → List Text
  | .exportDeclaration (.declarators list) => list.flatMap fun declarator => declarator.pattern.partNames
  | _ => []

/-- The names that patterns with parts bind in the exported declarations of a module. -/
def Module.destructuredExports (module : Module) : List Text :=
  module.statements.flatMap fun statement => statement.body.destructuredExports

/-! ### What is listed -/

/-- The name of a pattern that is a mere name. -/
private def Pattern.name? : Pattern → Option Text
  | .name bound => some bound
  | _ => none

private theorem Pattern.boundNames_eq (pattern : Pattern) :
    pattern.boundNames = pattern.name?.toList ++ pattern.partNames := by
  cases pattern <;> simp [Pattern.boundNames, Pattern.name?, Pattern.partNames]

private theorem unchanged?_bound (names : List Text) :
    (names.map fun bound => Export.binding bound bound).filterMap Export.unchanged? = names := by
  have hsome : Export.unchanged? ∘ (fun bound => Export.binding bound bound) = some :=
    funext fun _ => if_pos rfl
  rw [List.filterMap_map, hsome, List.filterMap_some]

private theorem exportedNames_declarators (list : List Declarator) :
    (StatementBody.exportDeclaration (.declarators list)).exportedNames =
      list.flatMap fun declarator => declarator.pattern.name?.toList := by
  rw [← List.filterMap_eq_flatMap_toList]
  rfl

private theorem exportedNames_specifiers (specifiers : List ExportSpecifier) :
    (StatementBody.exportNames specifiers none).exportedNames =
      (StatementBody.exportNames specifiers none).unchangedExports := by
  unfold StatementBody.exportedNames StatementBody.unchangedExports StatementBody.exports
  rw [List.filterMap_map]
  refine List.filterMap_congr fun s _ => ?_
  simp [Export.unchanged?]

/-- What a statement lists of its exports: all unchanged ones, in their order, but those that parts
of patterns bind. -/
private theorem StatementBody.exportedNames_exports (body : StatementBody) :
    body.exportedNames.Sublist body.unchangedExports ∧
      (body.exportedNames ++ body.destructuredExports).Perm body.unchangedExports := by
  cases body with
  | exportDeclaration declaration =>
    have hall : (StatementBody.exportDeclaration declaration).unchangedExports =
        declaration.boundNames :=
      unchanged?_bound declaration.boundNames
    rw [hall]
    cases declaration with
    | declarators list =>
      rw [exportedNames_declarators]
      constructor
      · refine List.Sublist.flatMap_right list fun declarator _ => ?_
        rw [Pattern.boundNames_eq]
        exact List.sublist_append_left _ _
      · refine (List.flatMap_append_perm list _ _).trans
          (List.Perm.flatMap_left list fun declarator _ => ?_)
        rw [Pattern.boundNames_eq]
    | «class» body => simp [exportedNames, destructuredExports, Declaration.boundNames]
    | function name => simp [exportedNames, destructuredExports, Declaration.boundNames]
  | exportNames specifiers source =>
    cases source with
    | none => simp [exportedNames_specifiers, destructuredExports]
    | some source =>
      have hnone : (StatementBody.exportNames specifiers (some source)).unchangedExports = [] := by
        simp [unchangedExports, exports, Export.unchanged?]
      simp [hnone, exportedNames, destructuredExports]
  | _ => simp [exportedNames, destructuredExports, unchangedExports, exports, Export.unchanged?]

/-- A module lists in source order what it exports unchanged, and nothing else: no default export,
no export under another name, and nothing of another module.  Of these names it leaves out exactly
those that patterns with parts bind. -/
theorem exportedNames_settle (module : Module) :
    module.exportedNames.Sublist module.unchangedExports ∧
      (module.exportedNames ++ module.destructuredExports).Perm module.unchangedExports ∧
      (module.exportedNames = module.unchangedExports ↔ module.destructuredExports = []) := by
  have hsublist : module.exportedNames.Sublist module.unchangedExports :=
    List.Sublist.flatMap_right _ fun statement _ => statement.body.exportedNames_exports.1
  have hperm : (module.exportedNames ++ module.destructuredExports).Perm module.unchangedExports :=
    (List.flatMap_append_perm _ _ _).trans
      (List.Perm.flatMap_left _ fun statement _ => statement.body.exportedNames_exports.2)
  have hlength := hperm.length_eq
  rw [List.length_append] at hlength
  refine ⟨hsublist, hperm, fun heq => ?_, fun hnone => ?_⟩
  · rw [heq] at hlength
    exact List.length_eq_zero_iff.mp (by omega)
  · rw [hnone, List.length_nil] at hlength
    exact hsublist.eq_of_length hlength

/-- The names between braces and brackets are left out. -/
example : (Module.parse? "export const { a, b: [c] } = d, e = 1; export { a as f, d };").map
    (fun module => (module.exportedNames, module.unchangedExports)) =
      some ([("e" : Text), "d"], [("a" : Text), "c", "e", "d"]) := by
  decide +kernel

end JsonCompanion.Script
