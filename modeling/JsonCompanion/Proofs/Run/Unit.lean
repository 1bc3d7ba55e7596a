import JsonCompanion.Proofs.Collecting
import JsonCompanion.Proofs.Compose.Distinct
import JsonCompanion.Proofs.Emit.Fragment
import JsonCompanion.Proofs.Files.Interleaving
import JsonCompanion.Proofs.Run.Options

/-!
# A unit alone

* `generate_library`: what a run generates for a unit with the code of the library is its composition.
* `prepare_patches`: all patches of a unit are patches of its source file.
* `UnitSettings.newCompanion?` is the text that the companion of a unit is to have.
* `unitTask_keepsTo`: a unit reads its source and its companion, and it may write only its companion.
* `unitTask_alone`: what becomes of a unit that runs alone, by the status that it reports, if the
  logger never fails.
-/

namespace JsonCompanion

open Collecting

/-! ### Generation -/

private theorem keptTexts_fragments (fragments : List Emit.Fragment) :
    keptTexts (fragments.map Emit.Fragment.text) =
      (distinctFragments fragments).map Emit.Fragment.text := by
  have htrim : (fragments.map Emit.Fragment.text).map Text.trim = fragments.map Emit.Fragment.text := by
    simp only [List.map_map]
    exact List.map_congr_left fun fragment _ => fragment.trim_text
  have hkeep : (fragments.map Emit.Fragment.text).filter (fun text => !text.isEmpty) =
      fragments.map Emit.Fragment.text := by
    simp [Emit.Fragment.text_ne_nil]
  rw [keptTexts, htrim, hkeep, map_distinctFragments]

/-- What a run is to know of a composition. -/
def Composition.generation (composed : Composition) : Generation :=
  ⟨composed.fragments.map Emit.Fragment.text, composed.patches⟩

/-- With the code of the library, a run generates the composition of a unit. -/
theorem generate_library (options : GenerationOptions) (unit : SourceUnit) :
    generate .library options unit = Composition.generation <$> compose options unit := by
  simp only [generate, compose, Contributor.library, map_bind, bind_assoc, pure_bind, map_pure,
    Composition.generation, keptTexts_fragments]

/-! ### Patches of a unit -/

private theorem importPatch?_path {path source : Text} {imports : List Script.LocatedImport}
    {specifier : Text} {names : List Text} {patch : Patch}
    (h : importPatch? path source imports specifier names = some patch) :
    patch.path = path := by
  unfold importPatch? at h
  dsimp only at h
  repeat' split at h
  all_goals first
    | exact Option.some.inj h ▸ rfl
    | cases h

private theorem classDelegation_yields (options : GenerationOptions) (unit : SourceUnit)
    (module : Script.Module) (content : AnnotatedClass) :
    (classDelegation options unit module content).Yields fun result =>
      ∀ patch ∈ result.patches, patch.path = unit.path := by
  unfold classDelegation
  refine yields_bind (yields_true _) fun setting _ => ?_
  dsimp only
  split
  · exact yields_pure (by simp)
  · split
    · exact yields_bind (yields_true _) fun _ _ => yields_pure (by simp)
    · refine yields_bind (yields_true _) fun missing _ => yields_pure ?_
      split
      · simp
      · simp [memberPatch, Patch.inserting, Patch.replacing]

private theorem delegation_yields (options : GenerationOptions) (unit : SourceUnit) :
    (delegation options unit).Yields fun patches => ∀ patch ∈ patches, patch.path = unit.path := by
  unfold delegation
  split
  · exact yields_pure (by simp)
  refine yields_bind (yields_true _) fun module _ => ?_
  refine yields_bind (yields_mapM fun content _ => classDelegation_yields options unit module content)
    fun classes hclasses => ?_
  have hmembers : ∀ patch ∈ classes.flatMap ClassDelegation.patches, patch.path = unit.path := by
    intro patch hpatch
    obtain ⟨result, hresult, hpatch⟩ := List.mem_flatMap.1 hpatch
    obtain ⟨content, -, hcontent⟩ := exists_of_mem_right hclasses hresult
    exact hcontent patch hpatch
  dsimp only
  split
  · exact yields_pure hmembers
  · refine yields_pure fun patch hpatch => ?_
    rcases List.mem_append.1 hpatch with hpatch | hpatch
    · exact hmembers patch hpatch
    · exact importPatch?_path (Option.mem_toList.1 hpatch)

private theorem unitPatches_yields (options : GenerationOptions) (unit : SourceUnit) :
    (unitPatches options unit).Yields fun patches => ∀ patch ∈ patches, patch.path = unit.path := by
  unfold unitPatches
  split
  · exact delegation_yields options unit
  · exact yields_pure (by simp)

/-- The units that a reader gives have the path that they are read from. -/
def NamesPath (reader : (path source : Text) → Attempt SourceUnit) : Prop :=
  ∀ path source unit, reader path source = .ok unit → unit.path = path

theorem namesPath_read : NamesPath SourceUnit.read := by
  intro path source unit h
  unfold SourceUnit.read at h
  rcases hmodule : parseModule path source with failure | module
  · simp [hmodule, bind, Except.bind] at h
  · simp only [hmodule, bind, Except.bind] at h
    split at h
    · cases h
    · exact (Except.ok.inj h) ▸ rfl

variable {settings : UnitSettings} {path : Text}

/-- What holds of all patches of a unit holds of those that are prepared for it. -/
theorem prepare_yields {P : List Patch → Prop}
    (h : ∀ source unit, settings.reader path source = .ok unit →
      (unitPatches (settings.options path) unit).Yields P)
    (content : Except Text Text) : (prepare settings path content).Yields fun prepared =>
      ∀ generation companion, prepared = some (generation, companion) → P generation.patches := by
  unfold prepare
  cases content with
  | error reason => exact yields_bind yields_throw fun _ h => False.elim h
  | ok source =>
  refine yields_bind (yields_true _) fun source _ => ?_
  refine yields_bind (yields_ofAttempt fun unit => h source unit) fun unit hunit => ?_
  split
  · exact yields_pure (by simp)
  · have hgenerate : (generate settings.contributor (settings.options path) unit).Yields
        fun generation =>
        P generation.patches :=
      yields_bind (yields_true _) fun _ _ => yields_bind hunit fun patches hpatches =>
        yields_pure hpatches
    refine yields_bind hgenerate fun generation hpatches => yields_pure ?_
    rintro _ _ heq
    obtain ⟨rfl, -⟩ := Prod.mk.inj (Option.some.inj heq)
    exact hpatches

/-- All patches of a unit are patches of its source file. -/
theorem prepare_patches (hreader : NamesPath settings.reader) (path : Text)
    (content : Except Text Text) :
    (prepare settings path content).Yields fun prepared => ∀ generation companion,
      prepared = some (generation, companion) → ∀ patch ∈ generation.patches, patch.path = path :=
  prepare_yields
    (fun source unit hread => hreader path source unit hread ▸ unitPatches_yields _ unit) content

/-! ### Logging -/

theorem Logger.NeverFails.failure?_eq {logger : Logger} (h : logger.NeverFails)
    (entries : List LogEntry) :
    logger.failure? entries = none := List.findSome?_eq_none_iff.2 fun entry _ => h entry

namespace UnitOutcome

variable (hlogger : settings.logger.NeverFails)

include hlogger

/-- The outcome for a unit does not depend on its own entries if the logger takes them all. -/
theorem logging_eq (path : Text) (accesses : Nat) (status : UnitStatus) (isWritten : Bool)
    (diagnostics : List Diagnostic) (patches : List Patch) (entries : List LogEntry) :
    logging settings path accesses status isWritten diagnostics patches entries =
      .of settings path accesses status isWritten diagnostics patches entries := by
  rw [logging, hlogger.failure?_eq]

theorem skipped_eq (path : Text) (diagnostics : List Diagnostic) : skipped settings path diagnostics =
    .of settings path 1 .skipped false diagnostics [] [pathEntry .debug "No annotated elements" path] :=
  logging_eq hlogger ..

theorem generated_eq (path : Text) (accesses : Nat) (diagnostics : List Diagnostic)
    (generation : Generation) (isWritten : Bool) (entries : List LogEntry) :
    generated settings path accesses diagnostics generation isWritten entries =
      .of settings path accesses .generated isWritten diagnostics generation.patches
        (entries ++ [generatedEntry path generation]) :=
  logging_eq hlogger ..

end UnitOutcome

/-! ### The task of a unit -/

namespace UnitSettings

/-- The files that a unit touches: its source and its companion, of which it may write the companion. -/
def footprint (settings : UnitSettings) (path : Text) : Footprint :=
  ⟨[path, settings.companion path], [settings.companion path], by simp⟩

/-- The text that the companion of a unit is to have, if the unit needs one and can be generated. -/
def newCompanion? (settings : UnitSettings) (path : Text) (files : Files) : Option Text :=
  match ((prepare settings path (files.read path)).outcome []).1 with
  | .ok (some (_, companion)) => companion
  | _ => none

end UnitSettings

theorem unitTask_keepsTo (settings : UnitSettings) (path : Text) :
    (unitTask settings path).KeepsTo (settings.footprint path).paths
    (settings.footprint path).writable := by
  refine ⟨by simp [UnitSettings.footprint], fun content => ?_⟩
  dsimp only
  split
  · trivial
  · trivial
  · trivial
  · refine ⟨by simp [UnitSettings.footprint], fun existing => ?_⟩
    dsimp only
    split
    · trivial
    · refine ⟨by simp [UnitSettings.footprint], fun outcome => ?_⟩
      dsimp only
      split <;> trivial

/-- If the logger never fails, it does not fail at the diagnostics of a unit. -/
theorem unitTask_failure? (hlogger : settings.logger.NeverFails) (path : Text) (files : Files) :
    ((unitTask settings path).run files).1.failure? = none := by
  have hskipped := UnitOutcome.skipped_eq hlogger
  have hgenerated := UnitOutcome.generated_eq hlogger
  have hof (accesses : Nat) (status : UnitStatus) (isWritten : Bool) (diagnostics : List Diagnostic)
      (patches : List Patch) (entries : List LogEntry) :
      (UnitOutcome.of settings path accesses status isWritten diagnostics patches
        entries).failure? = none :=
    hlogger.failure?_eq _
  simp only [unitTask, FileTask.run]
  split
  · exact hof ..
  · rw [hskipped]; exact hof ..
  · rw [hgenerated]; exact hof ..
  · simp only [writeCompanion, FileTask.run]
    split
    · rw [hgenerated]; exact hof ..
    · simp only [FileTask.run]
      split
      · rw [hgenerated]; exact hof ..
      · exact hof ..

/-- What an outcome says of the unit that it is the outcome of, which has written some paths. -/
structure UnitOutcome.Tells (settings : UnitSettings) (path : Text) (files : Files)
    (outcome : UnitOutcome) (writes : List Text) : Prop where
  path_eq : outcome.report.path = path
  companion_eq : outcome.report.companion = settings.companion path
  writes_eq : writes = if outcome.report.isWritten then [settings.companion path] else []
  patches_path : ∀ patch ∈ outcome.patches, patch.path = path
  not_generated : outcome.report.status ≠ .generated → outcome.report.isWritten = false ∧
    outcome.patches = []
  isWritten_iff : outcome.report.status = .generated →
    (outcome.report.isWritten = true ↔
      ∃ text, settings.newCompanion? path files = some text ∧
      files.read (settings.companion path) ≠ .ok text)

/-- Units that are read have the paths that they are read from, and the logger never fails. -/
structure UnitSettings.IsReliable (settings : UnitSettings) : Prop where
  reader : NamesPath settings.reader
  logger : settings.logger.NeverFails

/-- What a unit that runs alone reports is what it has done. -/
theorem unitTask_alone (h : settings.IsReliable) (path : Text) (files : Files) :
    UnitOutcome.Tells settings path files ((unitTask settings path).run files).1
      ((unitTask settings path).writes files) := by
  have hpatches := prepare_patches h.reader path (files.read path) []
  have hskipped := UnitOutcome.skipped_eq h.logger
  have hgenerated := UnitOutcome.generated_eq h.logger
  -- a failure, no annotated elements, no companion, or a companion
  rcases hprepared : (prepare settings path (files.read path)).outcome [] with
    ⟨failure | _ | ⟨generation, _ | text⟩, diagnostics⟩
  · simp only [unitTask, FileTask.run, FileTask.writes, hprepared]
    constructor <;> simp [UnitOutcome.failed, UnitOutcome.of]
  · simp only [unitTask, FileTask.run, FileTask.writes, hprepared, hskipped]
    constructor <;> simp [UnitOutcome.of]
  · have hnew :
        settings.newCompanion? path files = none := by simp [UnitSettings.newCompanion?, hprepared]
    simp only [unitTask, FileTask.run, FileTask.writes, hprepared, hgenerated]
    constructor <;> simp [UnitOutcome.of, hnew]
    exact hpatches _ _ hprepared generation none rfl
  · have hnew :
        settings.newCompanion? path files = some text := by simp [UnitSettings.newCompanion?, hprepared]
    have hown := hpatches _ _ hprepared generation (some text) rfl
    simp only [unitTask, writeCompanion, FileTask.run, FileTask.writes, hprepared, hgenerated]
    by_cases hsame : files.read (settings.companion path) = .ok text
    · have htest : ((files.read (settings.companion path)).toOption == some text) =
          true := by simp [hsame, Except.toOption]
      simp only [if_pos htest, FileTask.run, FileTask.writes]
      constructor <;> simp [UnitOutcome.of, hnew, hsame]
      exact hown
    · have htest : ¬ ((files.read (settings.companion path)).toOption == some text) = true := by
        rcases hread : files.read (settings.companion path) with reason | found
        · simp [Except.toOption]
        · simpa [hread, Except.toOption] using hsame
      simp only [if_neg htest, FileTask.run, FileTask.writes, FileTask.attemptWrite, Files.write_eq]
      -- the text is new: it is written, or writing it fails
      rcases files.denial? (settings.companion path) .write with _ | reason
      · constructor <;> simp [UnitOutcome.of, FileTask.run, hnew, hsame]
        exact hown
      · constructor <;> simp [UnitOutcome.failed, UnitOutcome.of, FileTask.run]

end JsonCompanion
