import Mathlib.Data.List.Perm.Basic
import JsonCompanion.Proofs.Companion.Classes

/-!
# Bindings of a companion

The imports of a companion bind every name that its code refers to once, if the source module knows
the name.

* `ImportStatement.created` lists the bindings that a declaration creates.
* `created_exportImports` and `created_sharedImports_perm`: the imports create the bindings of what
  the source module exports and the bindings that are passed on, each once.
* `SourceUnit.origin?` is where a name comes from: the exports of the source module, its default
  export, or its first binding from elsewhere than from the companion.
* `companionImports_bind`: the names that are bound are pairwise distinct, and each comes from there.
-/

namespace JsonCompanion

variable {unit : SourceUnit} {code companion name : Text} {specifiers : Specifiers}
  {bindings : List ImportBinding}
  {taken : List Text}

/-! ### Created bindings -/

/-- The binding as an import declaration tells it: what is imported has a name only between braces. -/
def ImportBinding.told (binding : ImportBinding) : ImportBinding :=
  match binding.kind with
  | .named => binding
  | .byDefault => { binding with imported := "default" }
  | .namespace => { binding with imported := "*" }

/-- The bindings that a declaration creates. -/
def ImportStatement.created : ImportStatement → List ImportBinding
  | .byDefault bound source => [⟨.byDefault, "default", bound, source⟩]
  | .namespace bound source => [⟨.namespace, "*", bound, source⟩]
  | .named pairs source => pairs.map fun (imported, bound) => ⟨.named, imported, bound, source⟩

theorem boundNames_eq (statement : ImportStatement) :
    statement.boundNames = statement.created.map ImportBinding.bound := by
  cases statement with
  | byDefault bound source => rfl
  | «namespace» bound source => rfl
  | named pairs source => simp [ImportStatement.boundNames, ImportStatement.created]

theorem flatMap_boundNames (statements : List ImportStatement) :
    statements.flatMap ImportStatement.boundNames =
      (statements.flatMap ImportStatement.created).map ImportBinding.bound := by
  rw [List.map_flatMap]
  exact List.flatMap_congr fun statement _ => boundNames_eq statement

@[simp]
theorem ImportBinding.told_bound (binding : ImportBinding) : binding.told.bound = binding.bound := by
  unfold told
  split <;> rfl

private theorem created_ofNamed (pairs : List (Text × Text)) (source : Text) :
    (ImportStatement.ofNamed pairs source).flatMap ImportStatement.created =
      pairs.map fun (imported, bound) => ⟨.named, imported, bound, source⟩ := by
  unfold ImportStatement.ofNamed
  split
  · rename_i hpairs
    simp [List.isEmpty_iff.1 hpairs]
  · simp [ImportStatement.created]

/-- Declarations of bindings from one source create these bindings. -/
private theorem created_ofBindings_perm {source : Text}
    (hsource : ∀ binding ∈ bindings, binding.source = source) :
    ((ImportStatement.ofBindings source bindings).flatMap ImportStatement.created).Perm
      (bindings.map ImportBinding.told) := by
  unfold ImportStatement.ofBindings
  rw [List.flatMap_append, created_ofNamed]
  induction bindings with
  | nil => exact .nil
  | cons binding bindings ih =>
    have hfirst : binding.source = source := hsource binding List.mem_cons_self
    have hrest := ih fun other hother => hsource other (List.mem_cons_of_mem _ hother)
    obtain ⟨kind, imported, bound, origin⟩ := binding
    obtain rfl : origin = source := hfirst
    cases kind with
    | named =>
      -- between braces, thus behind the declarations of the others
      simp only [List.filterMap_cons, ImportStatement.ofBinding?, ImportStatement.namedPair?,
        List.map_cons, ImportBinding.told]
      exact List.perm_middle.trans (hrest.cons _)
    | byDefault =>
      simp only [List.filterMap_cons, ImportStatement.ofBinding?, ImportStatement.namedPair?,
        List.map_cons, ImportBinding.told, List.flatMap_cons, ImportStatement.created,
        List.cons_append, List.nil_append]
      exact hrest.cons _
    | «namespace» =>
      simp only [List.filterMap_cons, ImportStatement.ofBinding?, ImportStatement.namedPair?,
        List.map_cons, ImportBinding.told, List.flatMap_cons, ImportStatement.created,
        List.cons_append, List.nil_append]
      exact hrest.cons _

/-- Bindings gathered source by source are the bindings in another order. -/
private theorem gathered_perm {sources : List Text} (hsources : sources.Nodup)
    (hcover : ∀ binding ∈ bindings, binding.source ∈ sources) :
    (sources.flatMap fun source => bindings.filter fun binding => binding.source == source).Perm
      bindings := by
  induction sources generalizing bindings with
  | nil =>
    have hnone : bindings = [] := List.eq_nil_iff_forall_not_mem.2 fun binding hbinding =>
      List.not_mem_nil (hcover binding hbinding)
    simp [hnone]
  | cons source sources ih =>
    obtain ⟨hnew, hsources⟩ := List.nodup_cons.1 hsources
    -- the other sources cover what is left when the bindings of this one are taken out
    have hothers := @ih (bindings.filter fun binding => !(binding.source == source)) hsources (by
      intro binding hbinding
      obtain ⟨hmem, hne⟩ := List.mem_filter.1 hbinding
      rcases List.mem_cons.1 (hcover binding hmem) with hsame | hother
      · simp [hsame] at hne
      · exact hother)
    have hsame :
        (sources.flatMap fun other => (bindings.filter fun binding => !(binding.source == source)).filter
          fun binding => binding.source == other) =
        sources.flatMap fun other => bindings.filter fun binding => binding.source == other := by
      refine List.flatMap_congr fun other hother => ?_
      rw [List.filter_filter]
      refine List.filter_congr fun binding _ => ?_
      by_cases hbinding : binding.source = other
      · have hne : other ≠ source := fun heq => hnew (heq ▸ hother)
        simp [hbinding, hne]
      · simp [hbinding]
    rw [hsame] at hothers
    rw [List.flatMap_cons]
    exact (hothers.append_left _).trans (List.filter_append_perm _ bindings)

/-- The imports of what the source module imports create the bindings that are passed on. -/
theorem created_sharedImports_perm (unit : SourceUnit) (code : Text) (specifiers : Specifiers) :
    ((sharedImports unit code specifiers).flatMap ImportStatement.created).Perm
      ((sharedBindings unit code specifiers).map ImportBinding.told) := by
  generalize hshared : sharedBindings unit code specifiers = shared
  have hsources : (sourcesOf shared).Nodup := by
    rw [sourcesOf_eq]
    exact distinct_nodup _
  have hgathered : ((sourcesOf shared).flatMap fun source =>
      shared.filter fun binding => binding.source == source).Perm shared :=
    gathered_perm hsources fun binding hbinding => mem_sourcesOf.2 ⟨binding, hbinding, rfl⟩
  unfold sharedImports
  rw [hshared, List.flatMap_assoc]
  refine List.Perm.trans ?_ (hgathered.map ImportBinding.told)
  rw [List.map_flatMap]
  refine List.Perm.flatMap_left _ fun source _ => created_ofBindings_perm fun binding hbinding => ?_
  exact eq_of_beq (List.mem_filter.1 hbinding).2

/-- The imports of what the source module exports create the binding of its default export and those
of other exports. -/
theorem created_exportImports (unit : SourceUnit) (code : Text) (specifiers : Specifiers) :
    (exportImports unit code specifiers).flatMap ImportStatement.created =
      (unit.referredDefault code).map (fun name => ⟨.byDefault, "default", name, specifiers.source⟩) ++
        (unit.referredExports code).map fun name => ⟨.named, name, name, specifiers.source⟩ := by
  have hdefault (names : List Text) :
      (names.map fun name => ImportStatement.byDefault name specifiers.source).flatMap
      ImportStatement.created = names.map fun name =>
        ⟨.byDefault, "default", name, specifiers.source⟩ := by
    induction names with
    | nil => rfl
    | cons name names ih => rw [List.map_cons, List.flatMap_cons, ih, List.map_cons]; rfl
  unfold exportImports
  rw [List.flatMap_append, created_ofNamed, hdefault, List.map_map]
  rfl

/-! ### Origins -/

/-- Where a companion takes a name from: the exports of the source module, its default export, or
the first import of the name from elsewhere than from the companion. -/
def SourceUnit.origin? (unit : SourceUnit) (specifiers : Specifiers) (name : Text) :
    Option ImportBinding :=
  if name ∈ unit.exportedNames then some ⟨.named, name, name, specifiers.source⟩
  else if unit.defaultExport = some name then some ⟨.byDefault, "default", name, specifiers.source⟩
  else (firstBinding? specifiers.companion name unit.imports).map ImportBinding.told

private theorem mem_shared_iff {binding : ImportBinding} :
    binding ∈ sharedBindings unit code specifiers ↔
    references code binding.bound = true ∧ binding.bound ∉ unit.exportedNames ∧
      unit.defaultExport ≠ some binding.bound ∧
      firstBinding? specifiers.companion binding.bound unit.imports = some binding := by
  unfold sharedBindings
  rw [mem_neededBindings_iff, List.mem_append, mem_referredExports_iff, mem_referredDefault_iff]
  tauto

/-- The imports create the bindings of the names that the code refers to, each from its origin. -/
theorem mem_created_iff {binding : ImportBinding} :
    binding ∈ (companionImports unit code specifiers).flatMap ImportStatement.created ↔
      references code binding.bound = true ∧ unit.origin? specifiers binding.bound = some binding := by
  have hshared := (created_sharedImports_perm unit code specifiers).mem_iff (a := binding)
  rw [companionImports_eq, List.flatMap_append, List.mem_append, hshared, created_exportImports,
    List.mem_append, List.mem_map, List.mem_map, List.mem_map]
  unfold SourceUnit.origin?
  constructor
  · -- default import, exported names, shared bindings: in the order of the statements
    rintro ((⟨name, hname, rfl⟩ | ⟨name, hname, rfl⟩) | ⟨binding, hbinding, rfl⟩)
    · obtain ⟨hcode, hexports, hdefault⟩ := mem_referredDefault_iff.1 hname
      exact ⟨hcode, by rw [if_neg hexports, if_pos hdefault]⟩
    · obtain ⟨hcode, hexports⟩ := mem_referredExports_iff.1 hname
      exact ⟨hcode, by rw [if_pos hexports]⟩
    · obtain ⟨hcode, hexports, hdefault, hfirst⟩ := mem_shared_iff.1 hbinding
      rw [ImportBinding.told_bound]
      exact ⟨hcode, by rw [if_neg hexports, if_neg hdefault, hfirst, Option.map_some]⟩
  · -- the origin is asked for in another order: exported, default, then imported
    rintro ⟨hcode, horigin⟩
    split at horigin
    · rename_i hexports
      exact .inl (.inr ⟨_, mem_referredExports_iff.2 ⟨hcode, hexports⟩, Option.some.inj horigin⟩)
    · rename_i hexports
      split at horigin
      · rename_i hdefault
        exact .inl (.inl
          ⟨_, mem_referredDefault_iff.2 ⟨hcode, hexports, hdefault⟩, Option.some.inj horigin⟩)
      · rename_i hdefault
        obtain ⟨first, hfirst, rfl⟩ := Option.map_eq_some_iff.1 horigin
        rw [ImportBinding.told_bound] at hcode hexports hdefault hfirst
        exact .inr ⟨first, mem_shared_iff.2 ⟨hcode, hexports, hdefault, hfirst⟩, rfl⟩

/-! ### Distinct names -/

private theorem neededBindings_nodup (code companion : Text) (taken : List Text)
    (bindings : List ImportBinding) :
    ((neededBindings code companion taken bindings).map ImportBinding.bound).Nodup := by
  induction bindings generalizing taken with
  | nil => exact .nil
  | cons first bindings ih =>
    rw [neededBindings]
    split
    · exact ih taken
    · rw [List.map_cons, List.nodup_cons]
      refine ⟨fun hmem => ?_, ih _⟩
      obtain ⟨binding, hbinding, hbound⟩ := List.mem_map.1 hmem
      have htaken := (mem_neededBindings_iff.1 hbinding).1
      rw [hbound] at htaken
      exact htaken List.mem_cons_self

private theorem neededBindings_sublist (code companion : Text) (taken : List Text)
    (bindings : List ImportBinding) :
    (neededBindings code companion taken bindings).Sublist bindings := by
  induction bindings generalizing taken with
  | nil => exact .slnil
  | cons first bindings ih =>
    rw [neededBindings]
    split
    · exact (ih taken).cons first
    · exact (ih _).cons_cons first

/-- The names that the imports bind are pairwise distinct, if the exported names are. -/
theorem nodup_boundNames (hexported : unit.exportedNames.Nodup) :
    ((companionImports unit code specifiers).flatMap ImportStatement.boundNames).Nodup := by
  have hshared := (created_sharedImports_perm unit code specifiers).map ImportBinding.bound
  rw [flatMap_boundNames, companionImports_eq, List.flatMap_append, List.map_append, List.nodup_append,
    created_exportImports]
  simp only [List.map_append, List.map_map, Function.comp_def, List.map_id',
    ImportBinding.told_bound] at hshared ⊢
  refine ⟨?_, ?_, ?_⟩
  · have hdefault : (unit.referredDefault code).Nodup := by
      refine List.Nodup.filter _ ?_
      cases unit.defaultExport <;> simp
    refine List.nodup_append.2 ⟨hdefault, hexported.filter _, ?_⟩
    rintro name hname _ hother rfl
    exact (mem_referredDefault_iff.1 hname).2.1 (mem_referredExports_iff.1 hother).2
  · exact hshared.nodup_iff.2 (neededBindings_nodup _ _ _ _)
  · rintro name hname _ hother rfl
    obtain ⟨binding, hbinding, rfl⟩ := List.mem_map.1 (hshared.mem_iff.1 hother)
    obtain ⟨-, hexports, hdefault, -⟩ := mem_shared_iff.1 hbinding
    rcases List.mem_append.1 hname with hname | hname
    · exact hdefault (mem_referredDefault_iff.1 hname).2.2
    · exact hexports (mem_referredExports_iff.1 hname).2

/-! ### Order -/

private theorem source_of_mem_shared {statement : ImportStatement} {source : Text}
    (h : statement ∈
      ImportStatement.ofBindings source (bindings.filter fun binding => binding.source == source)) :
    statement.source = source :=
  source_of_mem_ofBindings (fun _ hbinding => eq_of_beq (List.mem_filter.1 hbinding).2) h

private theorem source_of_mem_exportImports : ∀ statement ∈ exportImports unit code specifiers,
    statement.source = specifiers.source := by
  intro statement hstatement
  rcases List.mem_append.1 hstatement with hstatement | hstatement
  · obtain ⟨name, -, rfl⟩ := List.mem_map.1 hstatement
    rfl
  · obtain ⟨-, rfl⟩ := mem_ofNamed_iff.1 hstatement
    rfl

/-- The imports that are passed on follow the sources of the bindings as these are first seen. -/
theorem sharedImports_inOrder (unit : SourceUnit) (code : Text) (specifiers : Specifiers) :
    (sharedImports unit code specifiers).Pairwise fun first second =>
      let sources := (sharedBindings unit code specifiers).map ImportBinding.source
      sources.idxOf first.source ≤ sources.idxOf second.source := by
  unfold sharedImports
  rw [List.pairwise_flatMap]
  constructor
  · intro source _
    refine List.pairwise_of_forall_mem_list fun first hfirst second hsecond => ?_
    rw [source_of_mem_shared hfirst, source_of_mem_shared hsecond]
  · rw [sourcesOf_eq]
    refine (distinct_firstSeen _).pairwise.imp fun hbefore first hfirst second hsecond => ?_
    rw [source_of_mem_shared hfirst, source_of_mem_shared hsecond]
    exact Nat.le_of_lt hbefore

/-! ### Main statement -/

/-- How a companion binds the names that its code refers to: each once and from its origin, first
what the source module exports itself, then what it imports, the sources as they are first seen
among the bindings that are passed on. -/
structure BindsReferred (unit : SourceUnit) (code : Text) (specifiers : Specifiers) : Prop where
  nodup : ((companionImports unit code specifiers).flatMap ImportStatement.boundNames).Nodup
  mem_iff : ∀ name, name ∈ (companionImports unit code specifiers).flatMap ImportStatement.boundNames ↔
    references code name = true ∧ (name ∈ unit.exportedNames ∨ unit.defaultExport = some name ∨
      ∃ binding ∈ unit.imports, binding.bound = name ∧ binding.source ≠ specifiers.companion)
  origin : ∀ statement ∈ companionImports unit code specifiers, ∀ binding ∈ statement.created,
    unit.origin? specifiers binding.bound = some binding
  exported_first : ∃ exported,
    companionImports unit code specifiers = exported ++ sharedImports unit code specifiers ∧
    ∀ statement ∈ exported, statement.source = specifiers.source
  passed_iff : ∀ binding, binding ∈ sharedBindings unit code specifiers ↔
    references code binding.bound = true ∧
    binding.bound ∉ unit.exportedNames ∧ unit.defaultExport ≠ some binding.bound ∧
      firstBinding? specifiers.companion binding.bound unit.imports = some binding
  passed_sublist : (sharedBindings unit code specifiers).Sublist unit.imports
  shared_inOrder : (sharedImports unit code specifiers).Pairwise fun first second =>
    let sources := (sharedBindings unit code specifiers).map ImportBinding.source
    sources.idxOf first.source ≤ sources.idxOf second.source

/-- A companion binds exactly the names that its code refers to and that the source module knows,
each once. -/
theorem companionImports_bind (hexported : unit.exportedNames.Nodup) (code : Text)
    (specifiers : Specifiers) :
    BindsReferred unit code specifiers := by
  constructor
  case nodup => exact nodup_boundNames hexported
  case mem_iff =>
    intro name
    rw [List.mem_flatMap]
    exact mem_boundNames_iff
  case origin =>
    intro statement hstatement binding hbinding
    exact (mem_created_iff.1 (List.mem_flatMap.2 ⟨statement, hstatement, hbinding⟩)).2
  case exported_first => exact ⟨_, companionImports_eq, source_of_mem_exportImports⟩
  case passed_iff =>
    intro binding
    exact mem_shared_iff
  case passed_sublist => exact neededBindings_sublist _ _ _ _
  case shared_inOrder => exact sharedImports_inOrder unit code specifiers

/-- A name that is exported and imported, one that is imported twice, and one that the companion
itself declares. -/
theorem companionImports_bind_route :
    let unit : SourceUnit := {
      path := "src/route.js"
      source := []
      elements := []
      exportedNames := [("Route" : Text)]
      defaultExport := some "Leg"
      imports := [⟨.byDefault, "default", "Route", "./legacy.js"⟩, ⟨.namespace, "*", "geo", "./geo.js"⟩,
        ⟨.named, "routeFromJson", "routeFromJson", "./route.g.js"⟩, ⟨.named, "unit", "km", "./units.js"⟩,
        ⟨.named, "geo", "geo", "./units.js"⟩, ⟨.named, "Place", "Place", "./geo.js"⟩] }
    let code : Text := "routeFromJson(new Route(new Leg(geo.Point, Place, km)))"
    let specifiers : Specifiers := ⟨"./route.js", "./route.g.js"⟩
    unit.exportedNames.Nodup ∧ BindsReferred unit code specifiers ∧
      (companionImports unit code specifiers).map ImportStatement.text = [
        "import Leg from \"./route.js\";", "import \x7b Route \x7d from \"./route.js\";",
        "import * as geo from \"./geo.js\";", "import \x7b Place \x7d from \"./geo.js\";",
        "import \x7b unit as km \x7d from \"./units.js\";"] := by
  intro unit code specifiers
  have hexported : unit.exportedNames.Nodup := by decide
  exact ⟨hexported, companionImports_bind hexported code specifiers, by decide⟩

end JsonCompanion
