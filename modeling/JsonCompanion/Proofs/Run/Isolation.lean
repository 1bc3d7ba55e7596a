import Mathlib.Data.List.Nodup
import JsonCompanion.Proofs.Companion.Path
import JsonCompanion.Proofs.Patch.Task
import JsonCompanion.Proofs.Run.Unit

/-!
# Isolation of units

Units that are generated side by side do not notice each other, in whatever order they access their
files.

* `RunOptions.NamesSources`: the paths of a run name files, and none names the companion of another one.
* `Run.SameOutcome` compares two runs: their reports, results of patching, diagnostics and files.
* `Run.Isolated` says what a run may have written: companions and sources of generated units, each once.
* `Run.executeBy_isolated`: a run under any schedulers is isolated, and it has the outcome of the
  run that takes one unit after another.
-/

namespace JsonCompanion

open FileTask

/-- The paths of a run name files, and none names the companion of another one. -/
structure RunOptions.NamesSources (options : RunOptions) : Prop where
  file : ∀ path ∈ options.paths, NamesFile path
  not_companion : ∀ p ∈ options.paths, ∀ q ∈ options.paths, p ≠ q → companionPath q options.suffix ≠ p

namespace Run

/-- Two runs come to the same outcome. -/
structure SameOutcome (a b : RunResult × Files) : Prop where
  units_eq : a.1.units = b.1.units
  patches_eq : a.1.patches = b.1.patches
  diagnostics_eq : a.1.diagnostics = b.1.diagnostics
  text?_eq : ∀ path, a.2.text? path = b.2.text? path
  failing_eq : a.2.failing = b.2.failing

/-- A run has written some paths: companions and sources of generated units, each once, and nothing
of a unit that was not generated. -/
structure Wrote (settings : UnitSettings) (files : Files) (run : RunResult × Files)
    (new : List Text) : Prop where
  written_eq : run.2.written = files.written ++ new
  nodup : new.Nodup
  mem_iff : ∀ path, path ∈ new ↔
    (∃ unit ∈ run.1.units, unit.status = .generated ∧ unit.isWritten = true ∧ unit.companion = path) ∨
      ∃ result ∈ run.1.patches, result.status = .written ∧ result.path = path
  text?_eq : ∀ path, path ∉ new → run.2.text? path = files.text? path
  not_generated : ∀ unit ∈ run.1.units, unit.status ≠ .generated →
    (unitTask settings unit.path).writes files = [] ∧ unit.path ∉ new ∧ unit.companion ∉ new

/-- A run reports on its units in order, it writes the companion of a generated unit exactly if its
text is new, and it patches only sources of generated units. -/
structure Isolated (options : RunOptions) (settings : UnitSettings) (files : Files)
    (run : RunResult × Files) : Prop where
  units_path : run.1.units.map UnitReport.path = options.paths
  units_companion : ∀ unit ∈ run.1.units, unit.companion = settings.companion unit.path
  diagnostics_eq : run.1.diagnostics =
    run.1.units.flatMap UnitReport.diagnostics ++ run.1.patches.filterMap patchDiagnostic?
  isWritten_iff : ∀ unit ∈ run.1.units, unit.status = .generated →
    (unit.isWritten = true ↔
      ∃ text, settings.newCompanion? unit.path files = some text ∧ files.read unit.companion ≠ .ok text)
  patches_path : ∀ result ∈ run.1.patches, ∃ unit ∈ run.1.units, unit.status = .generated ∧
    unit.path = result.path
  wrote : ∃ new, Wrote settings files run new

variable {options : RunOptions} {settings : UnitSettings} {files : Files}

/-- The outcome for a unit that runs alone. -/
def outcomeOf (settings : UnitSettings) (files : Files) (path : Text) : UnitOutcome :=
  ((unitTask settings path).run files).1

/-- All patches of units that run alone. -/
def patchesOf (options : RunOptions) (settings : UnitSettings) (files : Files) : List Patch :=
  (options.paths.map (outcomeOf settings files)).flatMap UnitOutcome.patches

/-- The task that patches a file with its part of the patches. -/
def patchTask (patches : List Patch) (path : Text) : FileTask PatchStatus :=
  Patch.fileTask path (Patch.ofFile patches path)

/-- Both halves of a run: units that are generated alone, then files that are patched alone. -/
structure Halves (options : RunOptions) (settings : UnitSettings) (files between : Files)
    (run : RunResult × Files) : Prop where
  report_eq : run.1 = report (options.paths.map (outcomeOf settings files)) run.1.patches
  generated : DoneAlone settings.footprint (unitTask settings) options.paths files
    (options.paths.map (outcomeOf settings files)) between
  patched : DoneAlone Patch.footprint (patchTask (patchesOf options settings files))
    (Patch.pathsOf (patchesOf options settings files)) between
      (run.1.patches.map PatchResult.status) run.2
  patches_eq : run.1.patches = (Patch.pathsOf (patchesOf options settings files)).map fun path =>
    ⟨path, ((patchTask (patchesOf options settings files) path).run between).1,
      (Patch.ofFile (patchesOf options settings files) path).length⟩

/-! ### Companions of listed files -/

/-- The companion of a listed file is no listed file. -/
theorem companion_ne (hvalid : options.IsValid) (hsources : options.NamesSources) {p q : Text}
    (hp : p ∈ options.paths) (hq : q ∈ options.paths) : companionPath q options.suffix ≠ p := by
  by_cases hne : p = q
  · subst hne
    intro heq
    have hlength := companionPath_length options.suffix (hsources.file p hp)
    rw [heq] at hlength
    exact hvalid.suffix_ne_nil (List.length_eq_zero_iff.1 (by omega))
  · exact hsources.not_companion p hp q hq hne

/-- Different listed files have different companions. -/
private theorem companion_injective (hvalid : options.IsValid) (hsources : options.NamesSources)
    {p q : Text} (hp : p ∈ options.paths) (hq : q ∈ options.paths)
    (h : companionPath p options.suffix = companionPath q options.suffix) : p = q :=
  companionPath_injective hvalid.suffix_slash (hsources.file p hp) (hsources.file q hq) h

/-! ### Both halves -/

/-- Under every scheduler each unit is generated as if it were the only one. -/
private theorem units_alone (hvalid : options.IsValid) (hsources : options.NamesSources)
    (hsuffix : settings.suffix = options.suffix) (scheduler : Scheduler) (files : Files) :
    DoneAlone settings.footprint (unitTask settings) options.paths files
      (runBy scheduler (options.paths.map (unitTask settings)) files).1
      (runBy scheduler (options.paths.map (unitTask settings)) files).2 := by
  refine doneAlone_runBy hvalid.paths_nodup (fun path _ => unitTask_keepsTo _ path) ?_ scheduler files
  intro p hp q hq hne path hwritable hpath
  simp only [UnitSettings.footprint, UnitSettings.companion, hsuffix, List.mem_cons,
    List.not_mem_nil, or_false]
    at hwritable hpath
  rcases hpath with heq | heq
  · exact companion_ne hvalid hsources hq hp (hwritable.symm.trans heq)
  · exact hne (companion_injective hvalid hsources hp hq (hwritable.symm.trans heq))

theorem exists_halves (hvalid : options.IsValid) (hsources : options.NamesSources) {services : Services}
    (hlogger : services.logger.NeverFails) (unitScheduler patchScheduler : Scheduler) (files : Files) :
    ∃ (run : RunResult × Files) (between : Files),
      executeBy unitScheduler patchScheduler options services files = (.ok run.1, run.2) ∧
        Halves options (unitSettings options services) files between run := by
  have hsuffix : (unitSettings options services).suffix = options.suffix := rfl
  have hlogger' : (unitSettings options services).logger.NeverFails := hlogger
  have hunits := units_alone hvalid hsources hsuffix unitScheduler files
  unfold executeBy
  generalize unitSettings options services = settings at hunits hlogger' ⊢
  rcases hboth : runBy unitScheduler (options.paths.map (unitTask settings)) files with
    ⟨results, between⟩
  rw [hboth] at hunits
  obtain rfl : results = options.paths.map (outcomeOf settings files) := hunits.results_eq
  -- the logger takes the diagnostics of all units, so that their sources are patched
  have hnone :
      (byEnd (options.paths.map (outcomeOf settings files))).findSome? UnitOutcome.failure? = none := by
    refine List.findSome?_eq_none_iff.2 fun outcome houtcome => ?_
    obtain ⟨round, -, hmem⟩ := List.mem_flatMap.1 houtcome
    obtain ⟨path, -, rfl⟩ := List.mem_map.1 (List.mem_of_mem_filter hmem)
    exact unitTask_failure? hlogger' path files
  obtain ⟨hdone, hpatched⟩ :=
    Patch.applyBy_alone patchScheduler (patchesOf options settings files) between
  simp only [hboth, hnone, settle, hlogger.failure?_eq]
  exact ⟨(_, _), between, rfl, rfl, hunits, hdone, hpatched⟩

/-- Two runs with the same options on the same files come to the same outcome. -/
private theorem Halves.sameOutcome {between between' : Files} {run run' : RunResult × Files}
    (h : Halves options settings files between run) (h' : Halves options settings files between' run') :
    SameOutcome run run' := by
  have hagree : ∀ paths, between.Agree paths between' :=
    (h.generated.unique (fun path _ => unitTask_keepsTo _ path) (fun paths => .refl paths files)
      h'.generated).2
  have hpatches : run.1.patches = run'.1.patches := by
    rw [h.patches_eq, h'.patches_eq]
    refine List.map_congr_left fun path _ => ?_
    rw [patchTask, (run_agree (Patch.fileTask_keepsTo path _) (hagree _)).1]
  have hresult : run.1 = run'.1 := by
    rw [h.report_eq, h'.report_eq, hpatches]
  have hfiles := (h.patched.unique (fun path _ => Patch.fileTask_keepsTo path _) hagree h'.patched).2
  constructor
  case units_eq => rw [hresult]
  case patches_eq => exact hpatches
  case diagnostics_eq => rw [hresult]
  case text?_eq => exact fun path => (hfiles [path]).text? path (by simp)
  case failing_eq => exact (hfiles []).failing

/-! ### What the units say -/

private theorem tells (hreliable : settings.IsReliable) (path : Text) :
    UnitOutcome.Tells settings path files (outcomeOf settings files path)
      ((unitTask settings path).writes files) :=
  unitTask_alone hreliable path files

/-- A unit says that it has written its companion only if it was generated. -/
private theorem generated_of_isWritten (hreliable : settings.IsReliable) {path : Text}
    (h : (outcomeOf settings files path).report.isWritten = true) :
    (outcomeOf settings files path).report.status = .generated := by
  refine Decidable.not_not.1 fun hnot => ?_
  rw [((tells hreliable path).not_generated hnot).1] at h
  cases h

/-- A file has patches only if it is the source of a generated unit. -/
private theorem generated_of_mem_pathsOf (hreliable : settings.IsReliable) {path : Text}
    (h : path ∈ Patch.pathsOf (patchesOf options settings files)) :
    path ∈ options.paths ∧ (outcomeOf settings files path).report.status = .generated := by
  obtain ⟨patch, hpatch, rfl⟩ := Patch.mem_pathsOf.1 h
  obtain ⟨outcome, houtcome, hmem⟩ := List.mem_flatMap.1 hpatch
  obtain ⟨path, hpath, rfl⟩ := List.mem_map.1 houtcome
  obtain rfl : patch.path = path := (tells hreliable path).patches_path patch hmem
  refine ⟨hpath, Decidable.not_not.1 fun hnot => ?_⟩
  rw [((tells hreliable patch.path).not_generated hnot).2] at hmem
  cases hmem

/-- The paths that the units write are the companions of those that say so. -/
private theorem mem_unitWrites (hreliable : settings.IsReliable) {place : Text} :
    (place ∈ options.paths.flatMap fun path => (unitTask settings path).writes files) ↔
      ∃ path ∈ options.paths, (outcomeOf settings files path).report.isWritten = true ∧
        settings.companion path = place := by
  rw [List.mem_flatMap]
  refine exists_congr fun path => and_congr_right fun _ => ?_
  rw [(tells hreliable path).writes_eq]
  by_cases hwritten : (outcomeOf settings files path).report.isWritten = true
  · simp [hwritten, eq_comm]
  · simp [hwritten]

namespace Halves

variable {between : Files} {run : RunResult × Files}

private theorem mem_units (h : Halves options settings files between run) {unit : UnitReport} :
    unit ∈ run.1.units ↔ ∃ path ∈ options.paths, (outcomeOf settings files path).report = unit := by
  rw [h.report_eq]
  simp [report]

/-- The files that are written by patching are those that the results say. -/
private theorem mem_patchWrites (h : Halves options settings files between run) {place : Text} :
    (place ∈ (Patch.pathsOf (patchesOf options settings files)).flatMap fun path =>
        (patchTask (patchesOf options settings files) path).writes between) ↔
      ∃ result ∈ run.1.patches, result.status = .written ∧ result.path = place := by
  rw [h.patches_eq]
  simp [patchTask, Patch.fileTask_writes]

/-! ### What is written -/

/-- A list of lists of at most one element, which are all different, has no duplicates. -/
private theorem nodup_flatMap_single {β : Type} {items : List β} {f : β → List Text} {g : β → Text}
    (hnodup : items.Nodup) (hsingle : ∀ b ∈ items, f b = [] ∨ f b = [g b])
    (hinjective : ∀ a ∈ items, ∀ b ∈ items, g a = g b → a = b) : (items.flatMap f).Nodup := by
  refine List.nodup_flatMap.2 ⟨fun b hb => ?_, hnodup.imp_of_mem fun ha hb hne path hpa hpb => ?_⟩
  · rcases hsingle b hb with h | h <;> simp [h]
  · rename_i a b
    have hmem : ∀ c ∈ items, path ∈ f c → path = g c := fun c hc hpath => by
      rcases hsingle c hc with h | h <;> simp_all
    exact hne (hinjective a ha b hb ((hmem a ha hpa).symm.trans (hmem b hb hpb)))

private theorem unitWrites_nodup (hvalid : options.IsValid) (hsources : options.NamesSources)
    (hsuffix : settings.suffix = options.suffix) (hreliable : settings.IsReliable) :
    (options.paths.flatMap fun path => (unitTask settings path).writes files).Nodup := by
  refine nodup_flatMap_single hvalid.paths_nodup (fun path _ => ?_)
    (g := settings.companion) fun p hp q hq heq => ?_
  · rw [(tells hreliable path).writes_eq]
    split <;> simp
  · simp only [UnitSettings.companion, hsuffix] at heq
    exact companion_injective hvalid hsources hp hq heq

private theorem wrote (h : Halves options settings files between run) (hvalid : options.IsValid)
    (hsources : options.NamesSources) (hsuffix : settings.suffix = options.suffix)
    (hreliable : settings.IsReliable) : ∃ new, Wrote settings files run new := by
  obtain ⟨new, hnew, hperm⟩ := h.generated.written_eq
  obtain ⟨new', hnew', hperm'⟩ := h.patched.written_eq
  -- companions of listed files on the one side, listed files on the other
  have hunit : ∀ {place}, place ∈ new → ∃ path ∈ options.paths,
      (outcomeOf settings files path).report.isWritten = true ∧
        companionPath path options.suffix = place := by
    intro place hplace
    rw [← hsuffix]
    exact (mem_unitWrites hreliable).1 (hperm.mem_iff.1 hplace)
  have hpatch : ∀ {place}, place ∈ new' → place ∈ options.paths ∧
      (outcomeOf settings files place).report.status = .generated := by
    intro place hplace
    obtain ⟨path, hpath, hmem⟩ := List.mem_flatMap.1 (hperm'.mem_iff.1 hplace)
    rw [patchTask, Patch.fileTask_writes, PatchStatus.mem_writes] at hmem
    exact hmem.2 ▸ generated_of_mem_pathsOf hreliable hpath
  refine ⟨new ++ new', ?_, ?_, ?_, ?_, ?_⟩
  case refine_1 => rw [hnew', hnew, List.append_assoc]
  case refine_2 =>
    refine List.nodup_append.2 ⟨hperm.nodup_iff.2 (unitWrites_nodup hvalid hsources hsuffix hreliable),
      hperm'.nodup_iff.2 (Patch.flatMap_writes_nodup _ _), fun place hplace _ hplace' heq => ?_⟩
    obtain ⟨path, hpath, -, hcompanion⟩ := hunit hplace
    exact companion_ne hvalid hsources (hpatch hplace').1 hpath (hcompanion.trans heq)
  case refine_3 =>
    intro place
    rw [List.mem_append, hperm.mem_iff, hperm'.mem_iff, mem_unitWrites hreliable, h.mem_patchWrites]
    refine or_congr_left ⟨?_, ?_⟩
    · rintro ⟨path, hpath, hwritten, rfl⟩
      exact ⟨_, h.mem_units.2 ⟨path, hpath, rfl⟩, generated_of_isWritten hreliable hwritten, hwritten,
        (tells hreliable path).companion_eq⟩
    · rintro ⟨unit, hmem, -, hwritten, rfl⟩
      obtain ⟨path, hpath, rfl⟩ := h.mem_units.1 hmem
      exact ⟨path, hpath, hwritten, (tells hreliable path).companion_eq.symm⟩
  case refine_4 =>
    intro place hplace
    rw [List.mem_append, not_or] at hplace
    rw [h.patched.text?_of_not_mem fun hmem => hplace.2 (hperm'.mem_iff.2 hmem)]
    exact h.generated.text?_of_not_mem fun hmem => hplace.1 (hperm.mem_iff.2 hmem)
  case refine_5 =>
    intro unit hmem hstatus
    obtain ⟨path, hpath, rfl⟩ := h.mem_units.1 hmem
    have htells : UnitOutcome.Tells settings path files _ _ := tells hreliable path
    have hcompanion : settings.companion path = companionPath path options.suffix := by
      rw [UnitSettings.companion, hsuffix]
    rw [htells.path_eq, htells.companion_eq, htells.writes_eq, (htells.not_generated hstatus).1,
      hcompanion]
    refine ⟨rfl, fun hplace => ?_, fun hplace => ?_⟩
    · rcases List.mem_append.1 hplace with hplace | hplace
      · obtain ⟨source, hsource, -, heq⟩ := hunit hplace
        exact companion_ne hvalid hsources hpath hsource heq
      · exact hstatus (hpatch hplace).2
    · rcases List.mem_append.1 hplace with hplace | hplace
      · obtain ⟨source, hsource, hwritten, heq⟩ := hunit hplace
        obtain rfl := companion_injective hvalid hsources hsource hpath heq
        exact hstatus (generated_of_isWritten hreliable hwritten)
      · exact companion_ne hvalid hsources (hpatch hplace).1 hpath rfl

private theorem isolated (h : Halves options settings files between run) (hvalid : options.IsValid)
    (hsources : options.NamesSources) (hsuffix : settings.suffix = options.suffix)
    (hreliable : settings.IsReliable) : Isolated options settings files run := by
  constructor
  case units_path =>
    rw [h.report_eq]
    simp only [report, List.map_map]
    exact (List.map_congr_left fun path _ => (tells hreliable path).path_eq).trans (List.map_id _)
  case units_companion =>
    intro unit hunit
    obtain ⟨path, -, rfl⟩ := h.mem_units.1 hunit
    rw [(tells hreliable path).companion_eq, (tells hreliable path).path_eq]
  case diagnostics_eq =>
    rw [h.report_eq]
    rfl
  case isWritten_iff =>
    intro unit hunit hstatus
    obtain ⟨path, -, rfl⟩ := h.mem_units.1 hunit
    rw [(tells hreliable path).path_eq, (tells hreliable path).companion_eq]
    exact (tells hreliable path).isWritten_iff hstatus
  case patches_path =>
    intro result hresult
    rw [h.patches_eq] at hresult
    obtain ⟨path, hpath, rfl⟩ := List.mem_map.1 hresult
    obtain ⟨hlisted, hstatus⟩ := generated_of_mem_pathsOf hreliable hpath
    exact ⟨_, h.mem_units.2 ⟨path, hlisted, rfl⟩, hstatus, (tells hreliable path).path_eq⟩
  case wrote => exact h.wrote hvalid hsources hsuffix hreliable

end Halves

/-! ### Runs with checked options -/

/-- A run under any schedulers is isolated, and it has the outcome of the run that takes one unit
after another. -/
theorem executeBy_isolated {record : Record} {options : RunOptions}
    (hread : RunOptions.read record = .ok options) (hsources : options.NamesSources)
    {services : Services} (hreader : services.reader = SourceUnit.read)
    (hlogger : services.logger.NeverFails) (units patching : Scheduler) (files : Files) :
    ∃ run sequential : RunResult × Files,
      executeBy units patching options services files = (.ok run.1, run.2) ∧
      executeBy inOrder inOrder options services files = (.ok sequential.1, sequential.2) ∧
      SameOutcome run sequential ∧ Isolated options (unitSettings options services) files run := by
  have hvalid := RunOptions.isValid_of_read hread
  have hreliable : (unitSettings options services).IsReliable := ⟨hreader ▸ namesPath_read, hlogger⟩
  obtain ⟨run, _, hrun, h⟩ := exists_halves hvalid hsources hlogger units patching files
  obtain ⟨sequential, _, hsequential, h'⟩ := exists_halves hvalid hsources hlogger inOrder inOrder files
  exact ⟨run, sequential, hrun, hsequential, h.sameOutcome h', h.isolated hvalid hsources rfl hreliable⟩

/-- A run has a result, and something holds of it and of the files that it leaves behind. -/
def endsIn (check : RunResult → Files → Bool) : Attempt RunResult × Files → Bool
  | (.ok result, files) => check result files
  | (.error _, _) => false

theorem exists_of_endsIn {check : RunResult → Files → Bool} {ended : Attempt RunResult × Files}
    (h : endsIn check ended = true) :
    ∃ run : RunResult × Files, ended = (.ok run.1, run.2) ∧ check run.1 run.2 = true := by
  obtain ⟨failure | result, files⟩ := ended
  · cases h
  · exact ⟨(result, files), rfl, h⟩

/-- Secrets are read but never written. -/
def secretConverter : Emit.CustomConverter where
  applies _ type := pure (type.name == ("Secret" : Text))
  converter context direction _ _ := fun e =>
    match direction with
    | .decode => pure e
    | .encode => throw (.derived "SecretError" "Secrets stay here." (some context.element))

/-- A file with a class that the converter of the caller refuses, one that is generated and a
missing one, in turns. -/
theorem executeBy_isolated_turns :
    let options : RunOptions := ⟨["a.js", "b.js", "c.js"], .undefined, ".g", true, none⟩
    let files := (Files.empty.put "a.js"
      "export class A \x7b static jsonSerializable = true; /** @type \x7bSecret\x7d */ x = 1; \x7d").put
      "b.js" "export class B \x7b static jsonSerializable = true; x = 1; \x7d"
    let services := Services.library [secretConverter]
    ∃ run sequential : RunResult × Files,
      execute options services files = (.ok run.1, run.2) ∧
      executeBy inOrder inOrder options services files = (.ok sequential.1, sequential.2) ∧
      run.1.units.map UnitReport.status = [.failed, .generated, .failed] ∧
        run.2.written = ["b.g.js", "b.js"] ∧
      SameOutcome run sequential ∧ Isolated options (unitSettings options services) files run := by
  intro options files services
  have hread : RunOptions.read
      [("files", .array [.string "a.js", .string "b.js", .string "a.js", .string "c.js"])] =
    .ok options := rfl
  have hsources : options.NamesSources := ⟨by decide, by decide⟩
  have hlogger : services.logger.NeverFails := fun _ => rfl
  have hends : endsIn
      (fun result files => result.units.map UnitReport.status == [.failed, .generated, .failed] &&
        files.written == (["b.g.js", "b.js"] : List Text)) (execute options services files) =
      true := by decide +kernel
  obtain ⟨run, sequential, hrun, hsequential, hsame, hisolated⟩ :=
    executeBy_isolated hread hsources rfl hlogger (turns unitAccesses) (turns Patch.accesses) files
  have hresult : execute options services files = (.ok run.1, run.2) := hrun
  rw [hresult] at hends
  obtain ⟨hstatus, hwritten⟩ := Bool.and_eq_true_iff.1 hends
  exact ⟨run, sequential, hresult, hsequential, beq_iff_eq.1 hstatus, beq_iff_eq.1 hwritten, hsame,
    hisolated⟩

end Run

end JsonCompanion
