import JsonCompanion.Proofs.Companion.Bindings
import JsonCompanion.Proofs.Script.Imports

/-!
# Imports of a companion, read again

The import statements of a companion are a module, and what this module imports is what the source
module exports and imports itself.

* `importBindings_of_bodies`: a module binds what its statements create.
* `sharedBindings_eq_filter`: without repeated names the bindings that are passed on are those that
  the code refers to, but for those of the companion and of names that the source module exports.
* `companionImports_reread`: these are the bindings that the statements are read as, if the names
  between braces are identifiers.
-/

namespace JsonCompanion

open Script

variable {unit : SourceUnit} {code companion : Text} {specifiers : Specifiers}
  {bindings : List ImportBinding}
  {taken : List Text} {statement : ImportStatement} {statements : List ImportStatement}

/-! ### Bindings of a module -/

/-- What a statement of a module imports. -/
private def bodyBindings : StatementBody → List ImportBinding
  | .importNames specifiers source => specifiers.map (ImportSpecifier.binding source)
  | _ => []

private theorem importBindings_eq (module : Module) :
    module.importBindings = (module.statements.map Statement.body).flatMap bodyBindings := by
  unfold Module.importBindings Module.imports
  induction module.statements with
  | nil => rfl
  | cons statement statements ih =>
    rw [List.map_cons, List.flatMap_cons, ← ih, List.filterMap_cons]
    unfold Statement.import? bodyBindings
    cases statement.body <;> rfl

/-- A module of import statements binds what these create. -/
theorem importBindings_of_bodies {module : Module}
    (h : module.statements.map Statement.body = statements.map statementBody) :
    module.importBindings = statements.flatMap ImportStatement.created := by
  rw [importBindings_eq, h, List.flatMap_map]
  refine List.flatMap_congr fun statement _ => ?_
  cases statement with
  | byDefault bound source => rfl
  | «namespace» bound source => rfl
  | named pairs source =>
      simp [statementBody, bodyBindings, ImportStatement.created, pairSpecifier, ImportSpecifier.binding]

/-- The bindings of a module name what they import as import declarations do. -/
private theorem told_of_mem_importBindings {module : Module} {binding : ImportBinding}
    (h : binding ∈ module.importBindings) : binding.told = binding := by
  obtain ⟨declaration, -, h⟩ := List.mem_flatMap.1 h
  obtain ⟨specifier, -, rfl⟩ := List.mem_map.1 h
  cases specifier <;> rfl

/-! ### Bindings that are passed on -/

/-- Without repeated names, needed bindings are the referenced ones of free names from elsewhere
than the companion. -/
private theorem neededBindings_eq_filter (hdistinct : (bindings.map ImportBinding.bound).Nodup) :
    neededBindings code companion taken bindings = bindings.filter fun binding =>
      !(binding.source == companion || taken.contains binding.bound ||
        !references code binding.bound) := by
  induction bindings generalizing taken with
  | nil => rfl
  | cons first bindings ih =>
    obtain ⟨hnew, hrest⟩ := List.nodup_cons.1 hdistinct
    rw [neededBindings, List.filter_cons]
    cases hout : first.source == companion || taken.contains first.bound ||
      !references code first.bound with
    | true => exact ih hrest
    | false =>
      have hsame : bindings.filter (fun binding => !(binding.source == companion ||
            (first.bound :: taken).contains binding.bound || !references code binding.bound)) =
          bindings.filter fun binding =>
            !(binding.source == companion || taken.contains binding.bound ||
              !references code binding.bound) := by
        refine List.filter_congr fun binding hbinding => ?_
        have hmem : binding.bound ∈ bindings.map ImportBinding.bound := List.mem_map_of_mem hbinding
        have hother : (binding.bound == first.bound) = false :=
          beq_false_of_ne fun heq => hnew (heq ▸ hmem)
        rw [List.contains_cons, hother, Bool.false_or]
      simp only [Bool.false_eq_true, if_false, Bool.not_false, if_true, ih hrest, hsame]

/-- A binding of the source module is passed on: the code refers to it, it comes from elsewhere than
the companion, and the source module exports nothing under its name. -/
def SourceUnit.PassesOn (unit : SourceUnit) (code companion : Text) (binding : ImportBinding) : Prop :=
  references code binding.bound = true ∧ binding.source ≠ companion ∧
    binding.bound ∉ unit.exportedNames ∧ unit.defaultExport ≠ some binding.bound

instance (binding : ImportBinding) : Decidable (unit.PassesOn code companion binding) :=
  inferInstanceAs (Decidable (_ ∧ _ ∧ _ ∧ _))

theorem sharedBindings_eq_filter (hdistinct : (unit.imports.map ImportBinding.bound).Nodup) :
    sharedBindings unit code specifiers =
      unit.imports.filter fun binding => decide (unit.PassesOn code specifiers.companion binding) := by
  unfold sharedBindings
  rw [neededBindings_eq_filter hdistinct]
  refine List.filter_congr fun binding _ => ?_
  rw [Bool.eq_iff_iff, decide_eq_true_eq]
  simp only [Bool.not_eq_true', Bool.or_eq_false_iff, beq_eq_false_iff_ne, List.contains_eq_mem,
    decide_eq_false_iff_not, List.mem_append, mem_referredExports_iff, mem_referredDefault_iff,
    Bool.not_eq_false', SourceUnit.PassesOn]
  tauto

/-! ### Writable statements -/

/-- The imports have no empty braces. -/
private theorem pairs_of_mem {pairs : List (Text × Text)} {source : Text}
    (h : .named pairs source ∈ companionImports unit code specifiers) : pairs ≠ [] := by
  have hnamed {pairs' : List (Text × Text)} {source' : Text}
      (h : .named pairs source ∈ ImportStatement.ofNamed pairs' source') : pairs ≠ [] := by
    obtain ⟨hne, heq⟩ := mem_ofNamed_iff.1 h
    injection heq with hpairs
    rwa [hpairs]
  rw [companionImports_eq] at h
  rcases List.mem_append.1 h with h | h
  · rcases List.mem_append.1 h with h | h
    · obtain ⟨name, -, hname⟩ := List.mem_map.1 h
      cases hname
    · exact hnamed h
  · obtain ⟨origin, -, h⟩ := List.mem_flatMap.1 h
    rcases List.mem_append.1 h with h | h
    · obtain ⟨binding, -, hof⟩ := List.mem_filterMap.1 h
      unfold ImportStatement.ofBinding? at hof
      split at hof <;> cases hof
    · exact hnamed h

/-- What is imported between braces has an identifier for its name. -/
def ImportBinding.IsSpelled (binding : ImportBinding) : Prop :=
  binding.kind = .named → binding.imported.isIdentifier

instance (binding : ImportBinding) : Decidable binding.IsSpelled := inferInstanceAs (Decidable (_ → _))

/-- Imports of names that can be bound can be written, if those between braces are identifiers. -/
private theorem isWritable_of_mem
    (hbound : ∀ name ∈ (companionImports unit code specifiers).flatMap ImportStatement.boundNames,
      IsBindable name)
    (hspelled : ∀ binding ∈ sharedBindings unit code specifiers, binding.IsSpelled) :
    ∀ statement ∈ companionImports unit code specifiers, IsWritable statement := by
  -- an exported name is bound as it is, so that it is spelled if it can be bound
  have hcreated : ∀ binding ∈ (companionImports unit code specifiers).flatMap ImportStatement.created,
      IsBindable binding.bound ∧ binding.IsSpelled := by
    intro binding hbinding
    rw [flatMap_boundNames] at hbound
    have hbindable := hbound _ (List.mem_map_of_mem hbinding)
    refine ⟨hbindable, ?_⟩
    rw [companionImports_eq, List.flatMap_append, created_exportImports, List.mem_append,
      List.mem_append] at hbinding
    rcases hbinding with (hbinding | hbinding) | hbinding
    · obtain ⟨name, -, rfl⟩ := List.mem_map.1 hbinding
      exact nofun
    · obtain ⟨name, -, rfl⟩ := List.mem_map.1 hbinding
      exact fun _ => hbindable.isIdentifier
    · obtain ⟨shared, hshared, rfl⟩ :=
        List.mem_map.1 ((created_sharedImports_perm _ _ _).mem_iff.1 hbinding)
      have hspell := hspelled shared hshared
      unfold ImportBinding.told
      split
      · exact hspell
      · rename_i hkind
        exact fun hnamed => nomatch hkind.symm.trans hnamed
      · rename_i hkind
        exact fun hnamed => nomatch hkind.symm.trans hnamed
  intro statement hstatement
  have hin : ∀ binding ∈ statement.created, IsBindable binding.bound ∧ binding.IsSpelled :=
    fun binding hbinding =>
    hcreated binding (List.mem_flatMap.2 ⟨statement, hstatement, hbinding⟩)
  cases statement with
  | byDefault bound source => exact (hin _ List.mem_cons_self).1
  | «namespace» bound source => exact (hin _ List.mem_cons_self).1
  | named pairs source =>
    refine ⟨pairs_of_mem hstatement, fun pair hpair => ?_⟩
    obtain ⟨hbindable, hspell⟩ := hin _ (List.mem_map_of_mem hpair)
    exact ⟨hspell rfl, hbindable⟩

/-! ### Reading the imports again -/

/-- The statements of the module bind what the source module exports, and behind that exactly the
bindings that are passed on. -/
structure RereadsImports (unit : SourceUnit) (code : Text) (specifiers : Specifiers) (module : Module)
    (own passed : List Statement) : Prop where
  statements_eq : module.statements = own ++ passed
  own_eq : ({ module with statements := own } : Module).importBindings =
    (unit.referredDefault code).map (fun name => ⟨.byDefault, "default", name, specifiers.source⟩) ++
      (unit.referredExports code).map fun name => ⟨.named, name, name, specifiers.source⟩
  passed_perm : ({ module with statements := passed } : Module).importBindings.Perm
    (unit.imports.filter fun binding => decide (unit.PassesOn code specifiers.companion binding))

/-- The imports of a companion are a module, whose imports beside those of the source module itself
are the imports of the source module that the code refers to. -/
theorem companionImports_reread {original : Module} (himports : unit.imports = original.importBindings)
    (hdistinct : (unit.imports.map ImportBinding.bound).Nodup)
    (hbound : ∀ name ∈ (companionImports unit code specifiers).flatMap ImportStatement.boundNames,
      IsBindable name)
    (hspelled : ∀ binding ∈ unit.imports, unit.PassesOn code specifiers.companion binding →
      binding.IsSpelled) :
    ∃ module own passed,
      Module.parse?
        (Text.join "\n" ((companionImports unit code specifiers).map ImportStatement.text)) =
        some module ∧ RereadsImports unit code specifiers module own passed := by
  have hshared : sharedBindings unit code specifiers = unit.imports.filter fun binding =>
      decide (unit.PassesOn code specifiers.companion binding) := sharedBindings_eq_filter hdistinct
  have hwritable := isWritable_of_mem hbound fun binding hbinding => by
    rw [hshared, List.mem_filter, decide_eq_true_eq] at hbinding
    exact hspelled binding hbinding.1 hbinding.2
  obtain ⟨module, hmodule, hbodies⟩ := exists_parse?_lines hwritable
  rw [companionImports_eq, List.map_append] at hbodies
  obtain ⟨own, passed, hsplit, hown, hpassed⟩ := List.map_eq_append_iff.1 hbodies
  refine ⟨module, own, passed, hmodule, hsplit, ?_, ?_⟩
  · rw [importBindings_of_bodies hown, created_exportImports]
  · -- bindings that are read from a module are told as they are
    have htold : (sharedBindings unit code specifiers).map ImportBinding.told =
        sharedBindings unit code specifiers := by
      refine (List.map_congr_left fun binding hbinding => ?_).trans (List.map_id _)
      rw [hshared, himports] at hbinding
      exact told_of_mem_importBindings (List.mem_filter.1 hbinding).1
    have hperm := created_sharedImports_perm unit code specifiers
    rw [importBindings_of_bodies hpassed]
    rwa [htold, hshared] at hperm

/-- A default import with other imports from its module, one of them of the default again, and a
namespace. -/
theorem companionImports_reread_route :
    let source : Text := "import Money, \x7b default as Rate, unit as km \x7d from \"./money.js\";\n" ++
      "import * as geo from \"./geo.js\";\nexport class Route \x7b static jsonSerializable = true; \x7d"
    let code : Text := "new Route(new Money(km), Rate, geo)"
    let specifiers : Specifiers := ⟨"./route.js", "./route.g.js"⟩
    ∃ original unit module own passed, parseModule "route.js" source = .ok original ∧
      SourceUnit.read "route.js" source = .ok unit ∧ unit.imports = original.importBindings ∧
      (unit.imports.map ImportBinding.bound).Nodup ∧
      (∀ name ∈ (companionImports unit code specifiers).flatMap ImportStatement.boundNames,
        IsBindable name) ∧
      (∀ binding ∈ unit.imports, unit.PassesOn code specifiers.companion binding → binding.IsSpelled) ∧
      (companionImports unit code specifiers).map ImportStatement.text =
        ["import \x7b Route \x7d from \"./route.js\";", "import Money from \"./money.js\";",
        "import \x7b default as Rate, unit as km \x7d from \"./money.js\";",
        "import * as geo from \"./geo.js\";"] ∧
      Module.parse?
        (Text.join "\n" ((companionImports unit code specifiers).map ImportStatement.text)) =
        some module ∧ RereadsImports unit code specifiers module own passed := by
  intro source code specifiers
  have hfacts : (parseModule "route.js" source).toOption.any fun original =>
      (SourceUnit.read "route.js" source).toOption.any fun unit =>
        decide (unit.imports = original.importBindings ∧ (unit.imports.map ImportBinding.bound).Nodup ∧
          (∀ name ∈ (companionImports unit code specifiers).flatMap ImportStatement.boundNames,
            IsBindable name) ∧
          (∀ binding ∈ unit.imports, unit.PassesOn code specifiers.companion binding →
            binding.IsSpelled) ∧
          (companionImports unit code specifiers).map ImportStatement.text =
            ["import \x7b Route \x7d from \"./route.js\";", "import Money from \"./money.js\";",
              "import \x7b default as Rate, unit as km \x7d from \"./money.js\";",
              "import * as geo from \"./geo.js\";"]) := by
    decide +kernel
  obtain ⟨original, horiginal, hunit⟩ := Attempt.exists_of_any hfacts
  obtain ⟨unit, hread, hfacts⟩ := Attempt.exists_of_any hunit
  obtain ⟨himports, hdistinct, hbound, hspelled, htexts⟩ := of_decide_eq_true hfacts
  obtain ⟨module, own, passed, hmodule, hreread⟩ :=
    companionImports_reread himports hdistinct hbound hspelled
  exact ⟨original, unit, module, own, passed, horiginal, hread, himports, hdistinct, hbound,
    hspelled, htexts, hmodule, hreread⟩

end JsonCompanion
