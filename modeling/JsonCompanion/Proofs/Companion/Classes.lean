import JsonCompanion.Proofs.Companion.Imports
import JsonCompanion.Proofs.Compose.Agreement
import JsonCompanion.Proofs.Compose.Fragments

/-!
# Imports of classes

The factory of a class calls its constructor, so the companion has to import the class.

* `references_class`: the code of a composition refers to every class that has a factory.
* `isReported_iff`: of these classes, those are reported that the source module does not export.
* `exportImports` and `sharedImports` are the imports of what the source module exports itself, and
  of what it imports.
* `ImportsClass` says how the companion binds a class, and `companion_imports_class` that it binds
  every class with a factory so: once, unless the class is reported.
-/

namespace JsonCompanion

open Emit Collecting

/-! ### Constructor calls -/

/-- A factory calls the constructor of its class. -/
theorem Emit.Factory.exists_call (factory : Factory) :
    ∃ line ∈ factory.body, 0x20 :: (factory.className ++ [0x28]) <:+: line := by
  have hcall : ∀ opening arguments ending : Text, 0x20 :: (factory.className ++ [0x28]) <:+:
      opening ++ (("new " : Text) ++ factory.className ++ ("(" : Text) ++ arguments ++
        (")" : Text)) ++ ending := by
    intro opening arguments ending
    refine ⟨opening ++ ("new" : Text), arguments ++ (")" : Text) ++ ending, ?_⟩
    simp only [List.append_assoc, List.cons_append]
    rfl
  unfold body
  dsimp only
  split
  · exact ⟨_, List.mem_append_right _ List.mem_cons_self, hcall _ _ _⟩
  · exact ⟨_, List.mem_append_right _ (List.mem_append_left _ List.mem_cons_self), hcall _ _ _⟩

variable {options : GenerationOptions} {unit : SourceUnit} {composed : Composition}
  {content : AnnotatedClass}
  {config : Config} {earlier reported : List Diagnostic} {code name : Text} {specifiers : Specifiers}

/-- The code of a composition refers to every class that has a factory. -/
theorem references_class {diagnostics : List Diagnostic}
    (h : (compose options unit).outcome earlier = (.ok composed, diagnostics))
    (hcontent : content ∈ unit.classes) (hconfig : content.config options.defaults = .ok config)
    (hcreate : config.createFactory = true) :
    references composed.text content.model.name = true := by
  obtain ⟨tables, outputs, hcontributions, hfragments⟩ := exists_contributions h
  obtain ⟨output, houtput, setting, hsetting, hgenerate⟩ :=
    exists_of_mem_left hcontributions.outputs hcontent
  obtain ⟨other, hother, rfl⟩ := ofClass_eq hsetting
  obtain rfl := Except.ok.inj (hconfig.symm.trans hother)
  obtain ⟨factory, hfactory, hname, -⟩ := (ClassOutput.generate_hasWanted hgenerate).1 hcreate
  have hrendered : factory.render ∈ contributed tables outputs :=
    List.mem_append_right _
      (List.mem_flatMap.2 ⟨output, houtput, by simp [ClassOutput.fragments, hfactory]⟩)
  obtain ⟨kept, hkept, htext⟩ := exists_mem_distinctFragments hrendered
  have hinfix : kept.text <:+: composed.text :=
    Text.isInfix_join (List.mem_map_of_mem (by rwa [hfragments]))
  obtain ⟨line, hline, hcall⟩ := factory.exists_call
  have hbody : line <:+: factory.render.text := by
    rw [Factory.render, Fragment.text]
    exact Text.isInfix_join (List.mem_cons_of_mem _ (List.mem_append_left _ hline))
  rw [hname] at hcall
  exact references_between (by decide) (by decide) (hcall.trans (hbody.trans (htext ▸ hinfix)))

/-! ### Reports -/

/-- A class is reported as one that the companion cannot import. -/
def IsReported (diagnostics : List Diagnostic) (name : Text) : Prop :=
  ∃ diagnostic ∈ diagnostics, diagnostic.code = "class-not-exported" ∧ diagnostic.element = some name

instance (diagnostics : List Diagnostic) (name : Text) : Decidable (IsReported diagnostics name) :=
  inferInstanceAs (Decidable (∃ _ ∈ _, _ ∧ _))

/-- The companion would have to import a class that the source module does not export. -/
def SourceUnit.Withholds (unit : SourceUnit) (setting : ClassSetting) : Prop :=
  (setting.config.createFactory = true ∨ setting.config.createToJson = true) ∧
    unit.offers setting.model.name = false

private theorem isReported_warnings_iff {setting : ClassSetting} :
    IsReported (warnings unit setting) name ↔ setting.model.name = name ∧ unit.Withholds setting := by
  -- the other two kinds of warnings have codes of their own
  have hcallbacks : ¬ IsReported (callbackWarning unit setting) name := by
    rintro ⟨diagnostic, hdiagnostic, hcode, -⟩
    unfold callbackWarning at hdiagnostic
    dsimp only at hdiagnostic
    split at hdiagnostic
    · have hother : ("unused-generic-argument-factories" : Text) ≠ "class-not-exported" := by decide
      obtain rfl := List.mem_singleton.1 hdiagnostic
      exact hother hcode
    · cases hdiagnostic
  have hsetters : ¬ IsReported ((Selection.ofModel setting.model setting.config).excluded.filterMap
      (setterWarning unit setting)) name := by
    rintro ⟨diagnostic, hdiagnostic, hcode, -⟩
    obtain ⟨⟨field, reason⟩, -, hwarning⟩ := List.mem_filterMap.1 hdiagnostic
    cases reason with
    | setterOnly =>
      have hother : ("setter-only-field" : Text) ≠ "class-not-exported" := by decide
      obtain rfl := Option.some.inj hwarning
      exact hother hcode
    | _ => cases hwarning
  have hexport : IsReported (exportWarning unit setting) name ↔ setting.model.name = name ∧
      unit.Withholds setting := by
    unfold exportWarning IsReported SourceUnit.Withholds
    dsimp only
    split
    · rename_i hwithheld
      simp only [Bool.and_eq_true, Bool.or_eq_true, Bool.not_eq_true'] at hwithheld
      simp [SourceUnit.warning, hwithheld]
    · rename_i hfine
      simp only [Bool.and_eq_true, Bool.or_eq_true, Bool.not_eq_true'] at hfine
      simp [hfine]
  rw [← hexport]
  simp only [IsReported, warnings, List.mem_append, or_and_right, exists_or] at hcallbacks hsetters ⊢
  simp only [hcallbacks, hsetters, false_or, or_false]

/-- Delegation reports no class as one that cannot be imported. -/
private theorem delegation_reports (options : GenerationOptions) (unit : SourceUnit) :
    (delegation options unit).Leaves fun _ left => ∀ name, ¬ IsReported left name := by
  have hnothing : ∀ name, ¬ IsReported [] name := fun name ⟨_, hmem, _⟩ => absurd hmem List.not_mem_nil
  have hclass (module : Script.Module) (content : AnnotatedClass) :
      (classDelegation options unit module content).Leaves fun _ left =>
        ∀ name, ¬ IsReported left name := by
    unfold classDelegation
    refine leaves_ofAttempt_bind fun setting _ => ?_
    dsimp only
    split
    · exact leaves_pure hnothing
    · split
      · -- a class that is not found is reported, but under another code
        have hreport : (Collecting.add (Diagnostic.ofFailure unit.path
            (.classNotFound content.model.name unit.path))).Leaves fun _ left =>
              ∀ name, ¬ IsReported left name := by
          refine leaves_add fun name ⟨diagnostic, hmem, hcode, _⟩ => ?_
          have hother : ("class-not-found" : Text) ≠ "class-not-exported" := by decide
          obtain rfl := List.mem_singleton.1 hmem
          exact hother hcode
        exact leaves_bind hreport fun _ left hleft => leaves_pure (by simpa using hleft)
      · exact leaves_ofAttempt_bind fun missing _ => leaves_pure hnothing
  unfold delegation
  split
  · exact leaves_pure hnothing
  refine leaves_ofAttempt_bind fun module _ => ?_
  refine leaves_bind (leaves_mapM fun content _ => hclass module content) ?_
  rintro classes left ⟨parts, rfl, rfl, hparts⟩
  have hquiet : ∀ name, ¬ IsReported (parts.flatMap Prod.snd) name := by
    rintro name ⟨diagnostic, hmem, hcode⟩
    obtain ⟨part, hpart, hmem⟩ := List.mem_flatMap.1 hmem
    obtain ⟨_, _, hleft⟩ := exists_of_mem_right hparts hpart
    exact hleft name ⟨diagnostic, hmem, hcode⟩
  dsimp only
  split <;> exact leaves_pure (by simpa using hquiet)

private theorem unitPatches_reports (options : GenerationOptions) (unit : SourceUnit) :
    (unitPatches options unit).Leaves fun _ left => ∀ name, ¬ IsReported left name := by
  unfold unitPatches
  split
  · exact delegation_reports options unit
  · exact leaves_pure fun name ⟨_, hmem, _⟩ => List.not_mem_nil hmem

/-- A class that the companion would have to import is reported unless the module exports it. -/
private theorem contribute_reports (options : GenerationOptions) (unit : SourceUnit) :
    (contribute options unit).Leaves fun _ left => ∀ name, IsReported left name ↔
      ∃ content ∈ unit.classes, ∃ setting, ClassSetting.ofClass options unit content = .ok setting ∧
        setting.model.name = name ∧ unit.Withholds setting := by
  -- a class leaves just its warnings behind, all of them before its code
  have hclass (content : AnnotatedClass) : (classFragments options unit content).Leaves fun _ left =>
      ∃ setting, ClassSetting.ofClass options unit content = .ok setting ∧
        left = warnings unit setting := by
    unfold classFragments
    refine leaves_ofAttempt_bind fun setting hsetting => ?_
    refine leaves_bind (leaves_addAll (P := fun _ left => left = warnings unit setting) rfl) ?_
    rintro _ _ rfl
    refine leaves_ofAttempt_bind fun output _ => leaves_pure ⟨setting, hsetting, by simp⟩
  unfold contribute
  refine leaves_ofAttempt_bind fun tables _ => ?_
  refine leaves_bind (leaves_mapM fun content _ => hclass content) ?_
  rintro classes left ⟨parts, rfl, rfl, hparts⟩
  refine leaves_pure fun name => ?_
  rw [List.append_nil]
  constructor
  · rintro ⟨diagnostic, hmem, hcode⟩
    obtain ⟨part, hpart, hmem⟩ := List.mem_flatMap.1 hmem
    obtain ⟨content, hcontent, setting, hsetting, hleft⟩ := exists_of_mem_right hparts hpart
    exact ⟨content, hcontent, setting, hsetting,
      isReported_warnings_iff.1 ⟨diagnostic, hleft ▸ hmem, hcode⟩⟩
  · rintro ⟨content, hcontent, setting, hsetting, hwithheld⟩
    obtain ⟨part, hpart, other, hother, hleft⟩ := exists_of_mem_left hparts hcontent
    obtain rfl := Except.ok.inj (hsetting.symm.trans hother)
    obtain ⟨diagnostic, hmem, hcode⟩ := isReported_warnings_iff.2 hwithheld
    exact ⟨diagnostic, List.mem_flatMap.2 ⟨part, hpart, hleft ▸ hmem⟩, hcode⟩

/-- The classes that are reported are those that the companion would have to import and that are not
exported. -/
private theorem compose_reports (options : GenerationOptions) (unit : SourceUnit) :
    (compose options unit).Leaves fun _ left => ∀ name, IsReported left name ↔ ∃ content ∈ unit.classes,
      ∃ setting, ClassSetting.ofClass options unit content = .ok setting ∧ setting.model.name = name ∧
        unit.Withholds setting := by
  unfold compose
  refine leaves_bind (contribute_reports options unit) fun fragments left hleft => ?_
  refine leaves_bind (unitPatches_reports options unit) fun patches more hmore =>
    leaves_pure fun name => ?_
  have hnot : ¬ ∃ diagnostic ∈ more, diagnostic.code = _ ∧ diagnostic.element = some name := hmore name
  rw [List.append_nil, ← hleft name]
  simp only [IsReported, List.mem_append, or_and_right, exists_or, hnot, or_false]

/-- A class that has a factory is reported exactly if the source module does not export it. -/
theorem isReported_iff (h : (compose options unit).outcome earlier = (.ok composed, earlier ++ reported))
    (hcontent : content ∈ unit.classes) (hconfig : content.config options.defaults = .ok config)
    (hcreate : config.createFactory = true) :
    IsReported reported content.model.name ↔ unit.offers content.model.name = false := by
  obtain ⟨left, hleft, hreports⟩ := compose_reports options unit earlier composed _ h
  obtain rfl : reported = left := List.append_cancel_left hleft
  rw [hreports]
  constructor
  · rintro ⟨_, _, setting, _, hname, -, hoffers⟩
    rwa [hname] at hoffers
  · intro hoffers
    refine ⟨content, hcontent, ⟨content.model, config, unit.enums, options.customs⟩, ?_, rfl,
      .inl hcreate, hoffers⟩
    rw [ClassSetting.ofClass, hconfig]
    rfl

/-! ### Imports -/

/-- The module that a declaration imports from. -/
def ImportStatement.source : ImportStatement → Text
  | .byDefault _ source => source
  | .namespace _ source => source
  | .named _ source => source

/-- The names that the source module exports and that the code refers to. -/
def SourceUnit.referredExports (unit : SourceUnit) (code : Text) : List Text :=
  unit.exportedNames.filter (references code)

/-- The default export of the source module, if the code refers to it and it is not exported by name. -/
def SourceUnit.referredDefault (unit : SourceUnit) (code : Text) : List Text :=
  unit.defaultExport.toList.filter fun name =>
    !(unit.referredExports code).contains name && references code name

/-- The bindings of the source module that are passed on to the companion. -/
def sharedBindings (unit : SourceUnit) (code : Text) (specifiers : Specifiers) : List ImportBinding :=
  neededBindings code specifiers.companion (unit.referredExports code ++ unit.referredDefault code)
    unit.imports

/-- The imports of what the source module exports itself. -/
def exportImports (unit : SourceUnit) (code : Text) (specifiers : Specifiers) : List ImportStatement :=
  (unit.referredDefault code).map (fun name => .byDefault name specifiers.source) ++
    ImportStatement.ofNamed ((unit.referredExports code).map fun name => (name, name)) specifiers.source

/-- The imports of what the source module imports. -/
def sharedImports (unit : SourceUnit) (code : Text) (specifiers : Specifiers) : List ImportStatement :=
  (sourcesOf (sharedBindings unit code specifiers)).flatMap fun source =>
    ImportStatement.ofBindings source
      ((sharedBindings unit code specifiers).filter fun binding => binding.source == source)

theorem mem_referredExports_iff : name ∈ unit.referredExports code ↔
    references code name = true ∧ name ∈ unit.exportedNames := by
  rw [SourceUnit.referredExports, List.mem_filter, and_comm]

theorem mem_referredDefault_iff : name ∈ unit.referredDefault code ↔
    references code name = true ∧ name ∉ unit.exportedNames ∧ unit.defaultExport = some name := by
  unfold SourceUnit.referredDefault
  rw [List.mem_filter, Option.mem_toList, Bool.and_eq_true, Bool.not_eq_true', List.contains_eq_mem,
    decide_eq_false_iff_not, mem_referredExports_iff]
  tauto

theorem companionImports_eq : companionImports unit code specifiers =
    exportImports unit code specifiers ++ sharedImports unit code specifiers := rfl

/-- An import takes a name from the exports of the source module: between braces if it is exported
by name, as the default otherwise. -/
def ImportStatement.Takes (unit : SourceUnit) (source name : Text) : ImportStatement → Prop
  | .named bindings origin => origin = source ∧ name ∈ unit.exportedNames ∧
      ∃ names : List Text, names.Nodup ∧ name ∈ names ∧ bindings = names.map fun exported =>
        (exported, exported)
  | .byDefault bound origin => origin = source ∧ name ∉ unit.exportedNames ∧ bound = name
  | .namespace _ _ => False

private theorem neededBindings_sound {companion : Text} {taken : List Text}
    {bindings : List ImportBinding} :
    ∀ binding ∈ neededBindings code companion taken bindings, binding ∈ bindings ∧
      binding.source ≠ companion := by
  intro binding hbinding
  obtain ⟨-, -, hfirst⟩ := mem_neededBindings_iff.1 hbinding
  obtain ⟨hmem, -, hsource⟩ := firstBinding?_sound hfirst
  exact ⟨hmem, hsource⟩

theorem source_of_mem_ofBindings {source : Text} {bindings : List ImportBinding}
    {statement : ImportStatement} (hbindings : ∀ binding ∈ bindings, binding.source = source)
    (h : statement ∈ ImportStatement.ofBindings source bindings) : statement.source = source := by
  rcases List.mem_append.1 h with h | h
  · obtain ⟨binding, hbinding, hof⟩ := List.mem_filterMap.1 h
    unfold ImportStatement.ofBinding? at hof
    split at hof <;> cases hof <;> exact hbindings binding hbinding
  · obtain ⟨-, rfl⟩ := mem_ofNamed_iff.1 h
    rfl

/-- An import that is passed on has its binding in the source module, and it binds no name that is
taken from there. -/
private theorem exists_binding_of_shared {statement : ImportStatement}
    (h : statement ∈ sharedImports unit code specifiers) (hname : name ∈ statement.boundNames) :
    name ∉ unit.referredExports code ++ unit.referredDefault code ∧ ∃ binding ∈ unit.imports,
      binding.bound = name ∧ binding.source ≠ specifiers.companion ∧
        statement.source = binding.source := by
  obtain ⟨source, -, hstatement⟩ := List.mem_flatMap.1 h
  obtain ⟨binding, hbinding, hbound⟩ := exists_ofBindings_iff.1 ⟨statement, hstatement, hname⟩
  obtain ⟨hshared, hsource⟩ := List.mem_filter.1 hbinding
  obtain ⟨hmem, hother⟩ := neededBindings_sound binding hshared
  have horigin : statement.source = source :=
    source_of_mem_ofBindings (fun binding hbinding => eq_of_beq (List.mem_filter.1 hbinding).2)
      hstatement
  exact ⟨(exists_needed_iff.1 ⟨binding, hshared, hbound⟩).1, binding, hmem, hbound, hother,
    horigin.trans (eq_of_beq hsource).symm⟩

/-- The imports of exports bind what the source module exports and the code refers to. -/
private theorem mem_taken_iff :
    (∃ statement ∈ exportImports unit code specifiers, name ∈ statement.boundNames) ↔
    name ∈ unit.referredExports code ++ unit.referredDefault code := by
  simp only [exportImports, List.mem_append, or_and_right, exists_or, exists_ofNamed_iff]
  simp [ImportStatement.boundNames, or_comm]

private theorem referredDefault_eq (hcode : references code name = true)
    (hname : name ∉ unit.exportedNames) (hoffers : unit.offers name = true) :
    unit.referredDefault code = [name] := by
  have hexport : unit.defaultExport = some name := by simpa [SourceUnit.offers, hname] using hoffers
  simp [SourceUnit.referredDefault, hexport, mem_referredExports_iff, hname, hcode]

private theorem filter_eq_nil {statements : List ImportStatement}
    (h : ∀ statement ∈ statements, name ∉ statement.boundNames) :
    (statements.filter fun statement => decide (name ∈ statement.boundNames)) = [] := by
  simpa [List.filter_eq_nil_iff] using h

/-- A name that the source module exports and the code refers to is bound once. -/
private theorem exists_filter_eq (specifiers : Specifiers) (hnodup : unit.exportedNames.Nodup)
    (hcode : references code name = true) (hoffers : unit.offers name = true) :
    ∃ statement : ImportStatement,
      ((companionImports unit code specifiers).filter fun other =>
        decide (name ∈ other.boundNames)) = [statement] ∧
        statement.Takes unit specifiers.source name := by
  have hexports : name ∈ unit.referredExports code ↔ name ∈ unit.exportedNames := by
    rw [mem_referredExports_iff, and_iff_right hcode]
  have htaken : name ∈ unit.referredExports code ++ unit.referredDefault code := by
    by_cases hname : name ∈ unit.exportedNames
    · exact List.mem_append_left _ (hexports.2 hname)
    · exact List.mem_append_right _ (by simp [referredDefault_eq hcode hname hoffers])
  have hshared :
      (sharedImports unit code specifiers).filter (fun other => decide (name ∈ other.boundNames)) = [] :=
    filter_eq_nil fun statement hstatement hbound =>
      (exists_binding_of_shared hstatement hbound).1 htaken
  rw [companionImports_eq, List.filter_append, hshared, List.append_nil, exportImports,
    List.filter_append]
  by_cases hname : name ∈ unit.exportedNames
  · -- the named import takes it, and the default import is of no exported name
    have hdefault : ((unit.referredDefault code).map fun bound => ImportStatement.byDefault bound
        specifiers.source).filter (fun other => decide (name ∈ other.boundNames)) = [] := by
      refine filter_eq_nil fun statement hstatement hbound => ?_
      obtain ⟨bound, hmem, rfl⟩ := List.mem_map.1 hstatement
      obtain rfl := List.mem_singleton.1 hbound
      exact (mem_referredDefault_iff.1 hmem).2.1 hname
    have hne : unit.referredExports code ≠ [] := List.ne_nil_of_mem (hexports.2 hname)
    refine ⟨.named ((unit.referredExports code).map fun exported => (exported, exported))
      specifiers.source, ?_,
      rfl, hname, unit.referredExports code, hnodup.filter _, hexports.2 hname, rfl⟩
    rw [hdefault]
    simp [ImportStatement.ofNamed, hne, ImportStatement.boundNames, hexports, hname]
  · -- the default import takes it, and the named import is of exported names only
    have hnamed :
        (ImportStatement.ofNamed ((unit.referredExports code).map fun exported => (exported, exported))
          specifiers.source).filter (fun other => decide (name ∈ other.boundNames)) = [] := by
      refine filter_eq_nil fun statement hstatement hbound => hname (hexports.1 ?_)
      obtain ⟨pair, hpair, rfl⟩ := exists_ofNamed_iff.1 ⟨statement, hstatement, hbound⟩
      obtain ⟨exported, hexported, rfl⟩ := List.mem_map.1 hpair
      exact hexported
    refine ⟨.byDefault name specifiers.source, ?_, rfl, hname, rfl⟩
    rw [hnamed, referredDefault_eq hcode hname hoffers]
    simp [ImportStatement.boundNames]

/-- How the companion binds a class: by one import, which takes it from the exports of the source
module, unless the class is reported; then no import takes it from there, and what binds it is
passed on from an import of the module. -/
structure ImportsClass (unit : SourceUnit) (code : Text) (specifiers : Specifiers)
    (reported : List Diagnostic) (name : Text) : Prop where
  of_not_reported : ¬ IsReported reported name → ∃ statement : ImportStatement,
    ((companionImports unit code specifiers).filter fun other => decide (name ∈ other.boundNames)) =
      [statement] ∧ statement.Takes unit specifiers.source name ∧
      renderCompanion unit code specifiers = companionHeader ++ "\n\n" ++
        Text.join "\n" ((companionImports unit code specifiers).map ImportStatement.text) ++
          "\n\n" ++ code ++ "\n"
  not_taken : IsReported reported name → ∀ statement ∈ exportImports unit code specifiers,
    name ∉ statement.boundNames
  passed_on : IsReported reported name → ∀ statement ∈ companionImports unit code specifiers,
    name ∈ statement.boundNames → ∃ binding ∈ unit.imports, binding.bound = name ∧
      binding.source ≠ specifiers.companion ∧ statement.source = binding.source

/-- The companion binds every class that has a factory once, unless the class is reported. -/
theorem companion_imports_class (hexported : unit.exportedNames.Nodup)
    (h : (compose options unit).outcome earlier = (.ok composed, earlier ++ reported))
    (hcontent : content ∈ unit.classes) (hconfig : content.config options.defaults = .ok config)
    (hcreate : config.createFactory = true) (specifiers : Specifiers) :
    ImportsClass unit composed.text specifiers reported content.model.name := by
  have hcode := references_class h hcontent hconfig hcreate
  have hreported := isReported_iff h hcontent hconfig hcreate
  -- a reported class is none that the source offers
  have hnot_taken : IsReported reported content.model.name →
      content.model.name ∉ unit.referredExports composed.text ++ unit.referredDefault composed.text := by
    intro hmem htaken
    have hoffers := hreported.1 hmem
    simp only [SourceUnit.offers, Bool.or_eq_false_iff] at hoffers
    rcases List.mem_append.1 htaken with htaken | htaken
    · have hexport := (List.mem_filter.1 htaken).1
      simp [hexport] at hoffers
    · have hexport := Option.mem_toList.1 (List.mem_filter.1 htaken).1
      simp [Option.mem_def.1 hexport] at hoffers
  constructor
  case of_not_reported =>
    intro hquiet
    have hoffers : unit.offers content.model.name = true := by simpa using mt hreported.2 hquiet
    obtain ⟨statement, honly, htakes⟩ := exists_filter_eq specifiers hexported hcode hoffers
    refine ⟨statement, honly, htakes, ?_⟩
    have hne : companionImports unit composed.text specifiers ≠ [] := by
      intro hnil
      rw [hnil] at honly
      cases honly
    simp [renderCompanion, hne, Text.join]
  case not_taken =>
    intro hmem statement hstatement hbound
    exact hnot_taken hmem (mem_taken_iff.1 ⟨statement, hstatement, hbound⟩)
  case passed_on =>
    intro hmem statement hstatement hbound
    rw [companionImports_eq] at hstatement
    rcases List.mem_append.1 hstatement with hstatement | hstatement
    · exact absurd (mem_taken_iff.1 ⟨statement, hstatement, hbound⟩) (hnot_taken hmem)
    · exact (exists_binding_of_shared hstatement hbound).2

/-- Two exported classes, one of them by default, and one that is not exported. -/
theorem companion_imports_class_shapes :
    let source : Text := "export class Box \x7b static jsonSerializable = true; \x7d\n" ++
      "export default class Point \x7b static jsonSerializable = true; \x7d\n" ++
      "class Line \x7b static jsonSerializable = true; \x7d\n"
    let options : GenerationOptions := ⟨.undefined, [], "./shapes.g.js", true⟩
    let specifiers : Specifiers := ⟨"./shapes.js", "./shapes.g.js"⟩
    let lines : List Text :=
      ["import Point from \"./shapes.js\";", "import \x7b Box \x7d from \"./shapes.js\";"]
    ∃ unit composed reported, SourceUnit.read "src/shapes.js" source = .ok unit ∧
      (compose options unit).outcome [] = (.ok composed, reported) ∧
      unit.classes.map (fun content => content.model.name) = (["Box", "Point", "Line"] : List Text) ∧
      IsReported reported "Line" ∧ ¬ IsReported reported "Box" ∧ ¬ IsReported reported "Point" ∧
      (companionImports unit composed.text specifiers).map ImportStatement.text = lines ∧
      ∀ content ∈ unit.classes,
        ImportsClass unit composed.text specifiers reported content.model.name := by
  intro source options specifiers lines
  have hgenerated : (SourceUnit.read "src/shapes.js" source).toOption.any fun unit =>
      ((compose options unit).outcome []).1.toOption.any fun composed => decide (
        (unit.exportedNames.Nodup ∧
          ∀ content ∈ unit.classes, (content.config .undefined).toOption.any Config.createFactory) ∧
        unit.classes.map (fun content => content.model.name) = (["Box", "Point", "Line"] : List Text) ∧
        (IsReported ((compose options unit).outcome []).2 "Line" ∧
          ¬ IsReported ((compose options unit).outcome []).2 "Box" ∧
          ¬ IsReported ((compose options unit).outcome []).2 "Point") ∧
        (companionImports unit composed.text specifiers).map ImportStatement.text = lines) := by
    decide +kernel
  obtain ⟨unit, hread, hgenerated⟩ := Attempt.exists_of_any hgenerated
  obtain ⟨composed, reported, hrun, hgenerated⟩ := exists_of_any hgenerated
  obtain ⟨⟨hexported, hfactories⟩, hclasses, hreported, hlines⟩ := of_decide_eq_true hgenerated
  rw [hrun] at hreported
  obtain ⟨hline, hbox, hpoint⟩ := hreported
  refine ⟨unit, composed, reported, hread, hrun, hclasses, hline, hbox, hpoint, hlines,
    fun content hcontent => ?_⟩
  obtain ⟨config, hconfig, hcreate⟩ := Attempt.exists_of_any (hfactories content hcontent)
  exact companion_imports_class hexported hrun hcontent hconfig hcreate specifiers

end JsonCompanion
