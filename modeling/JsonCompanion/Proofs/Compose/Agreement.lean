import JsonCompanion.Proofs.Collecting
import JsonCompanion.Proofs.Compose.Distinct
import JsonCompanion.Proofs.Emit.Fragment

/-!
# Agreement of a module with its companion

The members that a class gets call functions of the companion.  They find these functions there,
with the parameters that they pass, and the module imports them.

* `Emit.Fragment.Exports` says that the text of a fragment exports a function with some parameters, and
  `Delegate.Calls` that a member calls that function with its parameters.
* `exists_calls`: the code of a class has the functions that its members call.
* `importPatch?_puts`: the patch of the imports puts names that are asked for into them, and no others.
* `Agreement` ties the patches of a composition to its fragments, and `compose_agrees` says that
  every composition has it.
-/

namespace JsonCompanion

open Emit Script Collecting

/-! ### Members and functions -/

/-- The text of a fragment exports a function of a name with some parameters. -/
def Emit.Fragment.Exports (fragment : Fragment) (name : Text) (parameters : List Text) : Prop :=
  ∃ rest : Text, fragment.text =
    "export function " ++ name ++ "(" ++ Text.join ", " parameters ++ ") \x7b\n" ++ rest

/-- A member calls the function that a fragment exports and passes what that function declares: the
factory gets the parameters of the member, the encoder the instance and then the parameters of the
member. -/
inductive Delegate.Calls : Delegate → Fragment → Prop
  | factory {callee : Text} {parameters : List Text} {fragment : Fragment}
      (h : fragment.Exports callee parameters) :
    Calls ⟨true, "fromJson", parameters, callee, parameters⟩ fragment
  | encoder {callee : Text} {callbacks : List Text} {fragment : Fragment}
    (h : fragment.Exports callee ("instance" :: callbacks)) :
    Calls ⟨false, "toJson", callbacks, callee, "this" :: callbacks⟩ fragment

theorem Delegate.Calls.exports {delegate : Delegate} {fragment : Fragment}
    (h : delegate.Calls fragment) :
    ∃ parameters, fragment.Exports delegate.callee parameters := by
  cases h with
  | factory h => exact ⟨_, h⟩
  | encoder h => exact ⟨_, h⟩

/-- Only the text of a fragment matters. -/
theorem Delegate.Calls.of_text {delegate : Delegate} {fragment kept : Fragment}
    (h : delegate.Calls fragment) (htext : kept.text = fragment.text) : delegate.Calls kept := by
  cases h with
  | factory h => exact .factory (h.imp fun rest heq => htext.trans heq)
  | encoder h => exact .encoder (h.imp fun rest heq => htext.trans heq)

theorem Emit.Fragment.exports_function (name : Text) (parameters lines : List Text) :
    (Fragment.function true name parameters lines).Exports name parameters := by
  obtain ⟨line, more, hmore⟩ : ∃ line more, lines ++ [("\x7d" : Text)] = line :: more := by
    cases lines <;> simp
  refine ⟨Text.join "\n" (line :: more), ?_⟩
  have hhead : ("export " : Text) ++ "function " = "export function " := rfl
  have hbrace : (") \x7b" : Text) ++ "\n" = ") \x7b\n" := rfl
  simp only [Fragment.text, Fragment.signature, if_true, List.cons_append, hmore, Text.join,
    ← hhead, ← hbrace, List.append_assoc]

/-! ### The code of a class -/

/-- The factory of a class takes what its member passes. -/
theorem plan_yields (setting : ClassSetting) (usable : List Field) (reason? : Text → Option Text) :
    (Factory.plan setting usable reason?).Yields fun plan =>
      plan.factory.className = setting.model.name ∧
        plan.factory.callbacks = setting.callbacks .decode := by
  unfold Factory.plan
  refine yields_bind (yields_true _) fun all _ => ?_
  refine yields_bind (yields_true _) fun assigned _ => ?_
  dsimp only
  split
  · exact yields_bind (yields_true _) fun _ _ => yields_pure ⟨rfl, rfl⟩
  · exact yields_pure ⟨rfl, rfl⟩

/-- The factory and the encoder that the options of a class ask for. -/
def ClassOutput.HasWanted (setting : ClassSetting) (factory : Option Factory)
    (encoder : Option Encoder) : Prop :=
  (setting.config.createFactory = true → ∃ f, factory = some f ∧ f.className = setting.model.name ∧
      f.callbacks = setting.callbacks .decode) ∧
    (setting.config.createToJson = true → ∃ e, encoder = some e ∧ e.className = setting.model.name ∧
      e.callbacks = setting.callbacks .encode)

theorem parts_yields (setting : ClassSetting) :
    (ClassOutput.parts setting).Yields fun (factory, encoder, _) =>
      ClassOutput.HasWanted setting factory encoder := by
  have hfactory :
      (ClassOutput.factory? setting (Selection.ofModel setting.model setting.config)).Yields fun plan =>
      setting.config.createFactory = true → ∃ p, plan = some p ∧
        p.factory.className = setting.model.name ∧
        p.factory.callbacks = setting.callbacks .decode := by
    unfold ClassOutput.factory?
    split
    · exact yields_map (plan_yields _ _ _) fun plan hplan _ => ⟨plan, rfl, hplan⟩
    · exact yields_pure fun h => absurd h ‹_›
  have hencoder : ∀ fields, (ClassOutput.encoder? setting fields).Yields fun encoder =>
      setting.config.createToJson = true → ∃ e, encoder = some e ∧ e.className = setting.model.name ∧
        e.callbacks = setting.callbacks .encode := by
    intro fields
    unfold ClassOutput.encoder?
    split
    · refine yields_map
        (P := fun e => e.className = setting.model.name ∧ e.callbacks = setting.callbacks .encode) ?_
        fun e he _ => ⟨e, rfl, he⟩
      exact yields_bind (yields_true _) fun writes _ => yields_pure ⟨rfl, rfl⟩
    · exact yields_pure fun h => absurd h ‹_›
  unfold ClassOutput.parts
  refine yields_bind hfactory fun plan hplan => ?_
  refine yields_bind (yields_true _) fun fields _ => ?_
  refine yields_bind (hencoder fields) fun encoder hencoder => ?_
  refine yields_bind (yields_true _) fun tables _ => yields_pure ⟨fun h => ?_, hencoder⟩
  obtain ⟨p, rfl, hp⟩ := hplan h
  exact ⟨p.factory, rfl, hp⟩

theorem ClassOutput.generate_hasWanted {setting : ClassSetting} {output : ClassOutput}
    (h : ClassOutput.generate setting = .ok output) :
    HasWanted setting output.factory output.encoder := by
  unfold ClassOutput.generate at h
  split at h
  · rename_i factory encoder tables requested hparts
    exact Except.ok.inj h ▸ parts_yields setting [] _ _ hparts
  · cases h

/-- The code of a class has the functions that its members call. -/
theorem exists_calls {setting : ClassSetting} {output : ClassOutput}
    (h : ClassOutput.generate setting = .ok output) {delegate : Delegate}
    (hwanted : delegate ∈ wantedDelegates setting) :
    ∃ fragment ∈ output.fragments, delegate.Calls fragment := by
  obtain ⟨hfactory, hencoder⟩ := ClassOutput.generate_hasWanted h
  rcases List.mem_append.1 hwanted with hmem | hmem
  · split at hmem
    · rename_i hcreate
      obtain ⟨f, hf, hname, hcallbacks⟩ := hfactory hcreate
      obtain rfl := List.mem_singleton.1 hmem
      refine ⟨f.render, by simp [ClassOutput.fragments, hf], .factory ?_⟩
      rw [← hname, ← hcallbacks]
      exact Fragment.exports_function _ _ _
    · cases hmem
  · split at hmem
    · rename_i hcreate
      obtain ⟨e, he, hname, hcallbacks⟩ := hencoder hcreate
      obtain rfl := List.mem_singleton.1 hmem
      refine ⟨e.render, by simp [ClassOutput.fragments, he], .encoder ?_⟩
      rw [← hname, ← hcallbacks]
      exact Fragment.exports_function _ _ _
    · cases hmem

/-! ### Members that are missing -/

private theorem filterAuxM_spec {α : Type} {p : α → Attempt Bool} {list kept result : List α}
    (h : list.filterAuxM p kept = .ok result) :
    (∀ a ∈ list, ∃ keeps, p a = .ok keeps) ∧ ∀ a, a ∈ result ↔ a ∈ kept ∨ a ∈ list ∧ p a = .ok true := by
  induction list generalizing kept with
  | nil =>
    obtain rfl := Except.ok.inj h
    simp
  | cons first list ih =>
    rcases hfirst : p first with failure | keeps
    · simp [List.filterAuxM, hfirst, bind, Except.bind] at h
    · simp only [List.filterAuxM, hfirst, bind, Except.bind] at h
      obtain ⟨hdecided, hmem⟩ := ih h
      refine ⟨List.forall_mem_cons.2 ⟨⟨keeps, hfirst⟩, hdecided⟩, fun a => (hmem a).trans ?_⟩
      cases keeps <;> grind

private theorem filterM_spec {α : Type} {p : α → Attempt Bool} {list result : List α}
    (h : list.filterM p = .ok result) :
    (∀ a ∈ list, ∃ keeps, p a = .ok keeps) ∧ ∀ a, a ∈ result ↔ a ∈ list ∧ p a = .ok true := by
  unfold List.filterM at h
  rcases haux : list.filterAuxM p [] with failure | kept
  · simp [haux, bind, Except.bind] at h
  · simp only [haux, bind, Except.bind, pure, Except.pure] at h
    obtain rfl := Except.ok.inj h
    simpa using filterAuxM_spec haux

variable {setting : ClassSetting} {body : ClassBody} {missing : List Delegate}

/-- Only members that the options ask for are missing. -/
theorem missingDelegates_subset (h : missingDelegates setting body = .ok missing) :
    missing ⊆ wantedDelegates setting :=
  fun delegate hmem => ((filterM_spec h).2 delegate).1 hmem |>.1

/-- None is missing exactly if the class declares all members that the options ask for. -/
theorem missingDelegates_eq_nil_iff (h : missingDelegates setting body = .ok missing) :
    missing = [] ↔ ∀ delegate ∈ wantedDelegates setting,
      declaresMember delegate.name delegate.isStatic body.members = .ok true := by
  obtain ⟨hdecided, hmem⟩ := filterM_spec h
  have hkept (delegate : Delegate) (hwanted : delegate ∈ wantedDelegates setting) :
      delegate ∈ missing ↔ declaresMember delegate.name delegate.isStatic body.members ≠ .ok true := by
    obtain ⟨keeps, hkeeps⟩ := hdecided delegate hwanted
    rw [hmem]
    rcases hdeclares : declaresMember delegate.name delegate.isStatic body.members with
      failure | declared
    · simp [hdeclares, bind, Except.bind] at hkeeps
    · cases declared <;> simp [hwanted, bind, Except.bind, pure, Except.pure]
  rw [List.eq_nil_iff_forall_not_mem]
  constructor
  · intro hnone delegate hwanted
    exact Classical.not_not.1 fun hne => hnone delegate ((hkept delegate hwanted).2 hne)
  · intro hall delegate hdelegate
    have hwanted := missingDelegates_subset h hdelegate
    exact (hkept delegate hwanted).1 hdelegate (hall delegate hwanted)

/-! ### Imports -/

/-- The names that an import declaration binds by a list between braces. -/
def Script.LocatedImport.bindings (declaration : LocatedImport) : List Text :=
  declaration.specifiers.filterMap namedBinding?

/-- How a module comes to import names from a specifier, and which of them a patch puts into its
imports: no patch is needed, or a longer list stands in place of an import of it, or an import
stands behind another or at the top. -/
inductive PutsNames (path : Text) (imports : List LocatedImport) (specifier : Text) (names : List Text) :
    Option Patch → List Text → Prop
  | unchanged (h : ∀ name ∈ names, ∃ existing ∈ imports, existing.source = specifier ∧
      name ∈ existing.bindings) :
    PutsNames path imports specifier names none []
  | longer {existing : LocatedImport} {put : List Text} (hmem : existing ∈ imports)
    (hsource : existing.source = specifier) (hplain : existing.specifiers.all isPlainSpecifier = true)
    (h : ∀ name ∈ names, name ∈ existing.bindings ∨ name ∈ put) :
    PutsNames path imports specifier names
      (some (.replacing path existing.span.start existing.span.stop
        (importStatement (existing.bindings ++ put) specifier))) put
  | beside {existing : LocatedImport} {put : List Text} (hmem : existing ∈ imports)
    (hsource : existing.source = specifier) (h : ∀ name ∈ names, name ∈ existing.bindings ∨ name ∈ put) :
    PutsNames path imports specifier names
      (some (.inserting path existing.span.stop ("\n" ++ importStatement put specifier))) put
  | behind {last : LocatedImport} (hmem : last ∈ imports) :
    PutsNames path imports specifier names
      (some (.inserting path last.span.stop ("\n" ++ importStatement names specifier))) names
  | atTop {place : Nat} (h : imports = []) :
    PutsNames path imports specifier names
      (some (.inserting path place (importStatement names specifier ++ "\n\n"))) names

/-- The patch of the imports puts names into them that are asked for, and the module imports all
that are. -/
theorem importPatch?_puts (path source : Text) (imports : List LocatedImport) (specifier : Text)
    (names : List Text) :
    ∃ put ⊆ names,
      PutsNames path imports specifier names (importPatch? path source imports specifier names) put := by
  unfold importPatch?
  split
  · rename_i existing hfind
    have hmem : existing ∈ imports := List.mem_of_find?_eq_some hfind
    have hsource : existing.source = specifier := by simpa using List.find?_some hfind
    dsimp only
    change ∃ put ⊆ names, PutsNames path imports specifier names
      (if (names.filter fun name => !existing.bindings.contains name).isEmpty = true then none
      else if existing.specifiers.all isPlainSpecifier = true then
        some (.replacing path existing.span.start existing.span.stop (importStatement
          (existing.bindings ++ names.filter fun name => !existing.bindings.contains name) specifier))
      else some (.inserting path existing.span.stop
        ("\n" ++ importStatement (names.filter fun name => !existing.bindings.contains name)
          specifier))) put
    -- each name is bound already or lacking
    have hsplit : ∀ name ∈ names, name ∈ existing.bindings ∨
        name ∈ names.filter fun name => !existing.bindings.contains name := by
      intro name hname
      by_cases hbound : name ∈ existing.bindings
      · exact .inl hbound
      · exact .inr (List.mem_filter.2 ⟨hname, by simpa using hbound⟩)
    split
    · rename_i hempty
      refine ⟨[], by simp, .unchanged fun name hname => ⟨existing, hmem, hsource, ?_⟩⟩
      exact (hsplit name hname).resolve_right (List.isEmpty_iff.1 hempty ▸ List.not_mem_nil)
    · split
      · exact ⟨_, List.filter_subset_self _, .longer hmem hsource ‹_› hsplit⟩
      · exact ⟨_, List.filter_subset_self _, .beside hmem hsource hsplit⟩
  · split
    · exact ⟨names, List.Subset.refl _, .behind (List.mem_of_getLast? ‹_›)⟩
    · exact ⟨names, List.Subset.refl _, .atTop (List.getLast?_eq_none_iff.1 ‹_›)⟩

/-! ### Agreement -/

/-- A patch inserts the missing members of a class of a unit.  They call functions that fragments
export and that the module is to import. -/
inductive InsertsMembers (options : GenerationOptions) (unit : SourceUnit) (module : Module)
    (fragments : List Fragment) (names : List Text) : Patch → Prop
  | intro {content : AnnotatedClass} {setting : ClassSetting} {located : LocatedClass}
      {missing : List Delegate}
    (hcontent : content ∈ unit.classes)
      (hsetting : ClassSetting.ofClass options unit content = .ok setting)
    (hlocated : module.findClass? content.model.name = some located)
    (hmissing : missingDelegates setting located.content = .ok missing)
    (hcalls : ∀ delegate ∈ missing, delegate.callee ∈ names ∧ ∃ fragment ∈ fragments,
      delegate.Calls fragment) :
    InsertsMembers options unit module fragments names
      (memberPatch unit.path unit.source located missing)

/-- The patches of a composition insert members and put names into the imports of the module, in
agreement with the fragments that the companion consists of. -/
structure Agreement (options : GenerationOptions) (unit : SourceUnit) (composed : Composition)
    (module : Module) (names put : List Text) (members : List Patch) (imports? : Option Patch) :
    Prop where
  parsed : composed.patches ≠ [] → parseModule unit.path unit.source = .ok module
  patches_eq : composed.patches = members ++ imports?.toList
  members_call : ∀ patch ∈ members, InsertsMembers options unit module composed.fragments names patch
  imports_put : PutsNames unit.path module.imports options.companionSpecifier names imports? put
  put_subset : put ⊆ names
  exported : ∀ name ∈ names, ∃ fragment ∈ composed.fragments, ∃ parameters,
    fragment.Exports name parameters
  text_ne_nil : composed.patches ≠ [] → composed.text ≠ []

private theorem classFragments_yields (options : GenerationOptions) (unit : SourceUnit)
    (content : AnnotatedClass) :
    (classFragments options unit content).Yields fun fragments => ∀ setting,
      ClassSetting.ofClass options unit content = .ok setting → ∀ delegate ∈ wantedDelegates setting,
        ∃ fragment ∈ fragments, delegate.Calls fragment := by
  unfold classFragments
  refine yields_bind (yields_ofAttempt fun _ h => h) fun setting hsetting => ?_
  refine yields_bind (yields_true _) fun _ _ => ?_
  refine yields_bind (yields_ofAttempt fun _ h => h) fun output houtput =>
    yields_pure fun other hother => ?_
  obtain rfl := Except.ok.inj (hother.symm.trans hsetting)
  exact fun delegate hdelegate => exists_calls houtput hdelegate

/-- What a class needs belongs to the members that its options ask for. -/
inductive ClassDelegation.Serves (options : GenerationOptions) (unit : SourceUnit) (module : Module)
    (content : AnnotatedClass) : ClassDelegation → Prop
  | nothing (h : ∀ setting located, ClassSetting.ofClass options unit content = .ok setting →
      module.findClass? content.model.name = some located → wantedDelegates setting = []) :
    Serves options unit module content ⟨[], []⟩
  | members {setting : ClassSetting} {located : LocatedClass} {missing : List Delegate}
    (hsetting : ClassSetting.ofClass options unit content = .ok setting)
    (hlocated : module.findClass? content.model.name = some located)
    (hmissing : missingDelegates setting located.content = .ok missing)
      (hwanted : wantedDelegates setting ≠ []) :
    Serves options unit module content ⟨(wantedDelegates setting).map Delegate.callee,
      if missing.isEmpty then [] else [memberPatch unit.path unit.source located missing]⟩

theorem classDelegation_serves (options : GenerationOptions) (unit : SourceUnit) (module : Module)
    (content : AnnotatedClass) :
    (classDelegation options unit module content).Yields
    (ClassDelegation.Serves options unit module content) := by
  unfold classDelegation
  refine yields_bind (yields_ofAttempt fun _ h => h) fun setting hsetting => ?_
  dsimp only
  split
  · rename_i hwanted
    refine yields_pure (.nothing fun other located hother _ => ?_)
    obtain rfl := Except.ok.inj (hother.symm.trans hsetting)
    exact List.isEmpty_iff.1 hwanted
  · rename_i hwanted
    split
    · rename_i hnone
      refine yields_bind (yields_true _) fun _ _ => yields_pure (.nothing fun _ located _ hlocated => ?_)
      cases hnone.symm.trans hlocated
    · rename_i located hlocated
      refine yields_bind (yields_ofAttempt fun _ h => h) fun missing hmissing => yields_pure ?_
      exact .members hsetting hlocated hmissing (by simpa using hwanted)

/-- The fragments that are kept have the functions that the members of all classes call. -/
def HasFunctions (options : GenerationOptions) (unit : SourceUnit) (fragments : List Fragment) : Prop :=
  ∀ content ∈ unit.classes, ∀ setting, ClassSetting.ofClass options unit content = .ok setting →
    ∀ delegate ∈ wantedDelegates setting, ∃ fragment ∈ fragments, delegate.Calls fragment

/-- A composition with a fragment has a text. -/
theorem Composition.text_ne_nil {composed : Composition} {fragment : Fragment}
    (h : fragment ∈ composed.fragments) :
    composed.text ≠ [] := by
  intro hnil
  have hpart : fragment.text <:+: composed.text := Text.isInfix_join (List.mem_map_of_mem h)
  rw [hnil, List.infix_nil] at hpart
  exact fragment.text_ne_nil hpart

variable {options : GenerationOptions} {unit : SourceUnit} {module : Module} {fragments : List Fragment}
  {content : AnnotatedClass} {result : ClassDelegation} {names : List Text}

private theorem ClassDelegation.Serves.exported (h : HasFunctions options unit fragments)
    (hcontent : content ∈ unit.classes) (hserves : result.Serves options unit module content)
    {name : Text} (hname : name ∈ result.names) :
    ∃ fragment ∈ fragments, ∃ parameters, fragment.Exports name parameters := by
  cases hserves with
  | nothing => cases hname
  | members hsetting hlocated hmissing hwanted =>
    obtain ⟨delegate, hdelegate, rfl⟩ := List.mem_map.1 hname
    obtain ⟨fragment, hmem, hcalls⟩ := h content hcontent _ hsetting delegate hdelegate
    exact ⟨fragment, hmem, hcalls.exports⟩

private theorem ClassDelegation.Serves.inserts (h : HasFunctions options unit fragments)
    (hcontent : content ∈ unit.classes) (hserves : result.Serves options unit module content)
    (hnames : result.names ⊆ names) {patch : Patch} (hpatch : patch ∈ result.patches) :
    names ≠ [] ∧ InsertsMembers options unit module fragments names patch := by
  cases hserves with
  | nothing => cases hpatch
  | @members setting located missing hsetting hlocated hmissing hwanted =>
    have hne : names ≠ [] :=
      fun hnil => hwanted (List.map_eq_nil_iff.1 (List.subset_nil.1 (hnil ▸ hnames)))
    refine ⟨hne, ?_⟩
    split at hpatch
    · cases hpatch
    · obtain rfl := List.mem_singleton.1 hpatch
      refine .intro hcontent hsetting hlocated hmissing fun delegate hdelegate => ?_
      have hmem := missingDelegates_subset hmissing hdelegate
      exact ⟨hnames (List.mem_map_of_mem hmem), h content hcontent _ hsetting delegate hmem⟩

private theorem exists_agreement_nil (fragments : List Fragment) : ∃ module names put members imports?,
    Agreement options unit ⟨fragments, []⟩ module names put members imports? :=
  ⟨⟨[], []⟩, [], [], [], none, by simp, rfl, by simp, .unchanged (by simp), by simp, by simp, by simp⟩

private theorem delegation_agrees (h : HasFunctions options unit fragments) :
    (delegation options unit).Yields fun patches => ∃ module names put members imports?,
      Agreement options unit ⟨fragments, patches⟩ module names put members imports? := by
  unfold delegation
  split
  · exact yields_pure (exists_agreement_nil fragments)
  refine yields_bind (yields_ofAttempt fun _ h => h) fun module hmodule => ?_
  refine yields_bind (yields_mapM fun content _ => classDelegation_serves options unit module content)
    fun classes hclasses => ?_
  dsimp only
  generalize hnames : distinct (classes.flatMap ClassDelegation.names) = names
  -- the names are those of all classes, each once
  have hmem : ∀ name, name ∈ names ↔ ∃ result ∈ classes, name ∈ result.names := by
    simp [← hnames, List.mem_flatMap]
  have hexported : ∀ name ∈ names, ∃ fragment ∈ fragments, ∃ parameters,
      fragment.Exports name parameters := by
    intro name hname
    obtain ⟨result, hresult, hname⟩ := (hmem name).1 hname
    obtain ⟨content, hcontent, hserves⟩ := exists_of_mem_right hclasses hresult
    exact hserves.exported h hcontent hname
  have hinserts : ∀ patch ∈ classes.flatMap ClassDelegation.patches,
      names ≠ [] ∧ InsertsMembers options unit module fragments names patch := by
    intro patch hpatch
    obtain ⟨result, hresult, hpatch⟩ := List.mem_flatMap.1 hpatch
    obtain ⟨content, hcontent, hserves⟩ := exists_of_mem_right hclasses hresult
    exact hserves.inserts h hcontent (fun name hname => (hmem name).2 ⟨result, hresult, hname⟩) hpatch
  have htext : names ≠ [] → Composition.text ⟨fragments, []⟩ ≠ [] := by
    intro hne
    obtain ⟨name, hname⟩ := List.exists_mem_of_ne_nil names hne
    obtain ⟨fragment, hfragment, -⟩ := hexported name hname
    exact Composition.text_ne_nil hfragment
  split
  · rename_i hempty
    have hnil : names = [] := List.isEmpty_iff.1 hempty
    refine yields_pure
      ⟨module, names, [], classes.flatMap ClassDelegation.patches, none, fun _ => hmodule, by simp,
        fun patch hpatch => (hinserts patch hpatch).2,
        .unchanged (by simp [hnil]), by simp, hexported, fun hne => ?_⟩
    obtain ⟨patch, hpatch⟩ := List.exists_mem_of_ne_nil _ hne
    exact htext (hinserts patch hpatch).1
  · rename_i hempty
    obtain ⟨put, hput, hputs⟩ :=
      importPatch?_puts unit.path unit.source module.imports options.companionSpecifier names
    exact yields_pure
      ⟨module, names, put, classes.flatMap ClassDelegation.patches, _, fun _ => hmodule, rfl,
        fun patch hpatch => (hinserts patch hpatch).2, hputs, hput, hexported, fun _ =>
        htext (by simpa using hempty)⟩

private theorem contribute_hasFunctions (options : GenerationOptions) (unit : SourceUnit) :
    (contribute options unit).Yields fun fragments =>
      HasFunctions options unit (distinctFragments fragments) := by
  unfold contribute
  refine yields_bind (yields_true _) fun tables _ => ?_
  refine yields_bind (yields_mapM fun content _ => classFragments_yields options unit content)
    fun classes hclasses => yields_pure ?_
  intro content hcontent setting hsetting delegate hdelegate
  obtain ⟨own, hown, hcalls⟩ := exists_of_mem_left hclasses hcontent
  obtain ⟨fragment, hfragment, hcall⟩ := hcalls setting hsetting delegate hdelegate
  obtain ⟨kept, hkept, htext⟩ := exists_mem_distinctFragments
    (List.mem_append_right tables (List.mem_flatten.2 ⟨own, hown, hfragment⟩))
  exact ⟨kept, hkept, hcall.of_text htext⟩

private theorem unitPatches_agree (h : HasFunctions options unit fragments) :
    (unitPatches options unit).Yields fun patches => ∃ module names put members imports?,
      Agreement options unit ⟨fragments, patches⟩ module names put members imports? := by
  unfold unitPatches
  split
  · exact delegation_agrees h
  · exact yields_pure (exists_agreement_nil fragments)

private theorem compose_yields_agreement (options : GenerationOptions) (unit : SourceUnit) :
    (compose options unit).Yields fun composed => ∃ module names put members imports?,
      Agreement options unit composed module names put members imports? := by
  unfold compose
  refine yields_bind (contribute_hasFunctions options unit) fun fragments hfunctions => ?_
  exact yields_bind (unitPatches_agree hfunctions) fun patches hpatches => yields_pure hpatches

/-- The patches of every composition agree with its fragments: the module imports the functions that
its new members call, the companion exports them, and the members pass what these functions declare.
-/
theorem compose_agrees {composed : Composition} {earlier diagnostics : List Diagnostic}
    (h : (compose options unit).outcome earlier = (.ok composed, diagnostics)) :
    ∃ module names put members imports?,
      Agreement options unit composed module names put members imports? :=
  compose_yields_agreement options unit earlier composed diagnostics h

/-- A generic class gets both members, which pass on its callbacks, and an import. -/
theorem compose_agrees_box :
    let options : GenerationOptions := ⟨.undefined, [], "./box.g.js", true⟩
    let source : Text := "/** @template T */\n" ++
      "export class Box \x7b static jsonSerializable = \x7b genericArgumentFactories: true \x7d; \x7d"
    let members : Text := "\n\n" ++
      "  static fromJson(json, fromJsonT) \x7b\n    return boxFromJson(json, fromJsonT);\n  \x7d\n\n" ++
      "  toJson(toJsonT) \x7b\n    return boxToJson(this, toJsonT);\n  \x7d\n"
    let imports : Text := "import \x7b boxFromJson, boxToJson \x7d from \"./box.g.js\";\n\n"
    ∃ unit composed diagnostics module names put members' imports?,
      SourceUnit.read "box.js" source = .ok unit ∧
      (compose options unit).outcome [] = (.ok composed, diagnostics) ∧
      composed.patches = [.inserting "box.js" 99 members, .inserting "box.js" 0 imports] ∧
      Agreement options unit composed module names put members' imports? := by
  intro options source members imports
  have hpatches : (SourceUnit.read "box.js" source).toOption.any fun unit =>
      ((compose options unit).outcome []).1.toOption.any fun composed =>
        decide (composed.patches = [.inserting "box.js" 99 members, .inserting "box.js" 0 imports]) := by
    decide +kernel
  obtain ⟨unit, hread, hpatches⟩ := Attempt.exists_of_any hpatches
  obtain ⟨composed, diagnostics, hrun, hpatches⟩ := exists_of_any hpatches
  obtain ⟨module, names, put, members', imports?, hagrees⟩ := compose_agrees hrun
  exact ⟨unit, composed, diagnostics, module, names, put, members', imports?, hread, hrun,
    of_decide_eq_true hpatches, hagrees⟩

end JsonCompanion
