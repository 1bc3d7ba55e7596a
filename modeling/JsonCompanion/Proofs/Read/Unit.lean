import JsonCompanion.Proofs.Read.Fields
import JsonCompanion.Read.Unit

/-!
# Units and the modules that they are read from

* `SourceUnit.IsReadFrom` says what a unit takes over from its module, and `isReadFrom_read` that
  units that are read do so.
* `IsReadFrom.exists_class`: the module declares every class of the unit under its name.
-/

namespace JsonCompanion

open Script

/-- A unit holds what a module declares. -/
structure SourceUnit.IsReadFrom (unit : SourceUnit) (path source : Text) (module : Module) : Prop where
  path_eq : unit.path = path
  source_eq : unit.source = source
  elements : ∃ found, List.Forall₂
    (fun statement element? =>
      elementOf? ⟨source, module.comments, module.classes⟩ statement = .ok element?)
    module.statements found ∧ unit.elements = found.filterMap id
  exportedNames_eq : unit.exportedNames = module.exportedNames
  defaultExport_eq : unit.defaultExport = module.defaultExport?
  imports_eq : unit.imports = module.importBindings

variable {path source : Text} {unit : SourceUnit} {module : Module}

theorem isReadFrom_read (hmodule : parseModule path source = .ok module)
    (hread : SourceUnit.read path source = .ok unit) : unit.IsReadFrom path source module := by
  unfold SourceUnit.read at hread
  obtain ⟨found, hfound, hread⟩ := Attempt.of_bind_ok hread
  obtain rfl := Except.ok.inj (hfound.symm.trans hmodule)
  obtain ⟨elements, helements, hread⟩ := Attempt.of_bind_ok hread
  obtain rfl := Except.ok.inj hread
  exact ⟨rfl, rfl, ⟨elements, Attempt.of_mapM_ok helements, rfl⟩, rfl, rfl, rfl⟩

/-! ### Elements -/

theorem SourceUnit.mem_elements_of_class {content : AnnotatedClass} (h : content ∈ unit.classes) :
    .class content ∈ unit.elements := by
  obtain ⟨element, helement, hclass⟩ := List.mem_filterMap.1 h
  cases element with
  | «class» other => exact Option.some.inj hclass ▸ helement
  | enum other => cases hclass

theorem SourceUnit.mem_elements_of_enum {model : EnumModel} (h : model ∈ unit.enums) :
    .enum model ∈ unit.elements := by
  obtain ⟨element, helement, henum⟩ := List.mem_filterMap.1 h
  cases element with
  | «class» other => cases henum
  | enum other => exact Option.some.inj henum ▸ helement

/-! ### Classes -/

/-- A class element of a statement is the class that the statement declares. -/
private theorem class_of_elementOf? {context : ClassSource} {statement : Statement}
    {content : AnnotatedClass} (h : elementOf? context statement = .ok (some (.class content))) :
    ∃ located, statement.class? = some located ∧ located.content.name = some content.model.name := by
  unfold elementOf? at h
  split at h
  · rename_i located hlocated
    obtain ⟨annotations, -, h⟩ := Attempt.of_bind_ok h
    split at h
    · obtain ⟨model, hmodel, h⟩ := Attempt.of_bind_ok h
      injection Except.ok.inj h with h
      injection h with h
      refine ⟨located, hlocated, ?_⟩
      rw [name_of_ofLocated hmodel, ← h]
    · cases Except.ok.inj h
  · split at h
    · split at h
      · obtain ⟨model, -, h⟩ := Attempt.of_bind_ok h
        injection Except.ok.inj h with h
        cases h
      · cases Except.ok.inj h
    · cases Except.ok.inj h

/-- The module declares every class of the unit. -/
theorem SourceUnit.IsReadFrom.exists_class (h : unit.IsReadFrom path source module)
    {content : AnnotatedClass} (hcontent : content ∈ unit.classes) :
    ∃ located, module.findClass? content.model.name = some located := by
  obtain ⟨found, hfound, helements⟩ := h.elements
  have helement := SourceUnit.mem_elements_of_class hcontent
  rw [helements, List.mem_filterMap] at helement
  obtain ⟨element?, hmem, rfl⟩ := helement
  obtain ⟨i, hi, hget⟩ := List.getElem_of_mem hmem
  have hi' : i < module.statements.length := hfound.length_eq ▸ hi
  have hstatement := hfound.get hi' hi
  simp only [List.get_eq_getElem, hget] at hstatement
  obtain ⟨located, hlocated, hname⟩ := class_of_elementOf? hstatement
  have hlocated : located ∈ module.classes := List.mem_filterMap.2 ⟨_, List.getElem_mem hi', hlocated⟩
  refine Option.isSome_iff_exists.1 (List.find?_isSome.2 ⟨located, hlocated, ?_⟩)
  rw [hname]
  exact beq_self_eq_true _

end JsonCompanion
