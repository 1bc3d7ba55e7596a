import JsonCompanion.Proofs.Run.Isolation

/-!
# Runs that are repeated

A run that leaves the sources alone has nothing left to do when it is repeated.

* `unitTask_patches`: a unit whose classes do not delegate to the companion has no patches.
* `unitTask_again`: a unit that runs a second time writes nothing and reports the same.
* `Run.FindsDone` compares a run with the one before it.
* `Run.executeBy_again`: a repeated run writes nothing and reports the same, under any schedulers,
  if its services are the same functions and its logger never fails.
-/

namespace JsonCompanion

open Collecting FileTask

variable {settings : UnitSettings} {path : Text} {files : Files}

/-! ### Units that leave their sources alone -/

private theorem prepare_no_patches (hdelegates : settings.delegates = false) (path : Text)
    (content : Except Text Text) :
    (prepare settings path content).Yields fun prepared => ∀ generation companion,
      prepared = some (generation, companion) → generation.patches = [] := by
  refine prepare_yields (P := fun patches => patches = []) (fun _ unit _ => ?_) content
  rw [unitPatches, if_neg (by simp [UnitSettings.options, hdelegates])]
  exact yields_pure rfl

/-- A unit whose classes do not delegate to the companion has no patches. -/
theorem unitTask_patches (hdelegates : settings.delegates = false) (hlogger : settings.logger.NeverFails)
    (path : Text) (files : Files) : ((unitTask settings path).run files).1.patches = [] := by
  have hpatches := prepare_no_patches hdelegates path (files.read path) []
  have hskipped := UnitOutcome.skipped_eq hlogger
  have hgenerated := UnitOutcome.generated_eq hlogger
  rcases hprepared : (prepare settings path (files.read path)).outcome [] with
    ⟨failure | _ | ⟨generation, _ | text⟩, diagnostics⟩
  · simp [unitTask, run, hprepared, UnitOutcome.failed, UnitOutcome.of]
  · simp [unitTask, run, hprepared, hskipped, UnitOutcome.of]
  · simpa [unitTask, run, hprepared, hgenerated, UnitOutcome.of] using
      hpatches _ _ hprepared generation none rfl
  · have hnone := hpatches _ _ hprepared generation (some text) rfl
    simp only [unitTask, writeCompanion, run, hprepared]
    split
    · simpa [run, hgenerated, UnitOutcome.of] using hnone
    · simp only [run]
      split <;> simp [hgenerated, UnitOutcome.failed, UnitOutcome.of, run, hnone]

/-! ### Units that run again -/

private theorem read_of_failing (hfailing : files.failing = []) (path : Text) :
    files.read path = match files.text? path with
      | some text => .ok text
      | none => .error ("ENOENT: no such file or directory, open '" ++ path ++ "'") := by
  simp only [Files.read, Files.denial?, hfailing, Files.lookup?]
  cases files.text? path <;> rfl

section

variable {text : Text} (generation : Generation) (diagnostics : List Diagnostic)

/-- A companion that has the text already is left alone. -/
private theorem writeCompanion_of_read (h : files.read (settings.companion path) = .ok text) :
    (writeCompanion settings path text generation diagnostics).run files =
        (.generated settings path 2 diagnostics generation false
          [pathEntry .debug "Companion unchanged" (settings.companion path)], files) ∧
      (writeCompanion settings path text generation diagnostics).writes files = [] := by
  have htest :
      ((files.read (settings.companion path)).toOption == some text) =
      true := by simp [h, Except.toOption]
  simp only [writeCompanion, run, writes, if_pos htest, and_self]

/-- Without failing accesses a companion has the text in the end, and no other file has changed. -/
private theorem writeCompanion_run (settings : UnitSettings) (path text : Text)
    (hfailing : files.failing = []) :
    let ended := (writeCompanion settings path text generation diagnostics).run files
    (∃ accesses isWritten entries,
        ended.1 = .generated settings path accesses diagnostics generation isWritten entries) ∧
      ended.2.read (settings.companion path) = .ok text ∧
      ∀ other ≠ settings.companion path, ended.2.read other = files.read other := by
  intro ended
  -- the file has the text already, or it gets it now
  by_cases hsame : files.read (settings.companion path) = .ok text
  · rw [show ended = _ from (writeCompanion_of_read generation diagnostics hsame).1]
    exact ⟨⟨_, _, _, rfl⟩, hsame, fun _ _ => rfl⟩
  · have htest : ¬ ((files.read (settings.companion path)).toOption == some text) = true := by
      rcases hread : files.read (settings.companion path) with reason | found
      · simp [Except.toOption]
      · simpa [hread, Except.toOption] using hsame
    have hdenial : files.denial? (settings.companion path) .write = none := by
      simp [Files.denial?, hfailing, Files.lookup?]
    have hended : ended = (.generated settings path 3 diagnostics generation true
          [pathEntry .info "Companion written" (settings.companion path)],
        { files.put (settings.companion path) text with
          written := files.written ++ [settings.companion path] }) := by
      simp only [ended, writeCompanion, run, if_neg htest, attemptWrite, Files.write_eq, hdenial]
    have htext? (other : Text) : ended.2.text? other =
        if settings.companion path = other then some text else files.text? other := by
      rw [hended]
      exact Files.text?_put
    have hnone : ended.2.failing = [] := by
      rw [hended]
      exact hfailing
    refine ⟨⟨_, _, _, congrArg Prod.fst hended⟩, ?_, fun other hne => ?_⟩
    · rw [read_of_failing hnone, htext?, if_pos rfl]
    · rw [read_of_failing hnone, htext?, if_neg hne.symm, read_of_failing hfailing]

end

/-- A unit that runs a second time writes nothing and reports the same. -/
theorem unitTask_again (hlogger : settings.logger.NeverFails) (hfailing : files.failing = [])
    (hne : path ≠ settings.companion path) :
    let ended := (unitTask settings path).run files
    ((unitTask settings path).run ended.2).1.report = { ended.1.report with isWritten := false } ∧
      (unitTask settings path).writes ended.2 = [] := by
  rcases hprepared : (prepare settings path (files.read path)).outcome [] with
    ⟨failure | _ | ⟨generation, _ | text⟩, diagnostics⟩
  · simp [unitTask, run, writes, hprepared, UnitOutcome.failed, UnitOutcome.of]
  · simp [unitTask, run, writes, hprepared, UnitOutcome.skipped_eq hlogger, UnitOutcome.of]
  · simp [unitTask, run, writes, hprepared, UnitOutcome.generated_eq hlogger, UnitOutcome.of]
  · have hfirst : (unitTask settings path).run files =
        (writeCompanion settings path text generation diagnostics).run files := by
      simp only [unitTask, run, hprepared]
    obtain ⟨⟨accesses, isWritten, entries, houtcome⟩, hcompanion, hothers⟩ :=
      writeCompanion_run generation diagnostics settings path text hfailing
    rw [hfirst]
    generalize (writeCompanion settings path text generation diagnostics).run files = ended at *
    have hsecond : (prepare settings path (ended.2.read path)).outcome [] =
        (.ok (some (generation, some text)), diagnostics) := by rw [hothers path hne, hprepared]
    obtain ⟨hrun, hwrites⟩ := writeCompanion_of_read generation diagnostics hcompanion
    simp only [unitTask, run, writes, hsecond, hrun, hwrites, houtcome,
      UnitOutcome.generated_eq hlogger, and_true]
    rfl

namespace Run

/-! ### Runs after each other -/

/-- A run finds everything done by the run before: it writes nothing and reports the same. -/
structure FindsDone (first second : RunResult × Files) : Prop where
  written_eq : second.2.written = first.2.written
  text?_eq : ∀ path, second.2.text? path = first.2.text? path
  units_eq : second.1.units = first.1.units.map fun unit => { unit with isWritten := false }
  patches_eq : second.1.patches = first.1.patches
  diagnostics_eq : second.1.diagnostics = first.1.diagnostics

theorem FindsDone.map_status {first second : RunResult × Files} (h : FindsDone first second) :
    second.1.units.map UnitReport.status = first.1.units.map UnitReport.status := by
  rw [h.units_eq, List.map_map]
  rfl

variable {options : RunOptions} {between between' : Files} {first second : RunResult × Files}

private theorem patchesOf_eq_nil (hdelegates : settings.delegates = false)
    (hlogger : settings.logger.NeverFails) (files : Files) : patchesOf options settings files = [] := by
  rw [patchesOf, List.flatMap_map, List.flatMap_eq_nil_iff]
  exact fun path _ => unitTask_patches hdelegates hlogger path files

namespace Halves

/-- A run of units without patches has no results of patching, and it ends with the last unit. -/
private theorem ends_between (h : Halves options settings files between first)
    (hdelegates : settings.delegates = false) (hlogger : settings.logger.NeverFails) :
    first.1.patches = [] ∧ first.2.written = between.written ∧ ∀ paths, first.2.Agree paths between := by
  have hnone : Patch.pathsOf (patchesOf options settings files) = [] := by
    rw [patchesOf_eq_nil hdelegates hlogger, Patch.pathsOf, List.foldl_nil]
  have hpatched := h.patched
  rw [hnone] at hpatched
  obtain ⟨new, hwritten, hnew⟩ := hpatched.written_eq
  obtain rfl : new = [] := hnew.eq_nil
  refine ⟨by rw [h.patches_eq, hnone, List.map_nil], by rw [hwritten, List.append_nil], fun paths => ?_⟩
  exact ⟨hpatched.failing_eq, fun path _ => hpatched.text?_rest path (by simp)⟩

/-- A unit finds its files as it has left them. -/
private theorem agree_own (h : Halves options settings files between first) (hvalid : options.IsValid)
    (hsources : options.NamesSources) (hsuffix : settings.suffix = options.suffix)
    (hpath : path ∈ options.paths) :
    between.Agree (settings.footprint path).paths ((unitTask settings path).run files).2 := by
  refine ⟨h.generated.failing_eq.trans (failing_run _ files).symm, fun place hplace => ?_⟩
  simp only [UnitSettings.footprint, List.mem_cons, List.not_mem_nil, or_false] at hplace
  rcases hplace with rfl | rfl
  · have hother : ∀ other ∈ options.paths, place ∉ (settings.footprint other).writable := by
      intro other hother
      simpa [UnitSettings.footprint, UnitSettings.companion, hsuffix] using
        (companion_ne hvalid hsources hpath hother).symm
    rw [h.generated.text?_rest place hother,
      text?_run (unitTask_keepsTo settings place) files (hother place hpath)]
  · exact h.generated.text?_own path hpath _ (by simp [UnitSettings.footprint])

/-- A run behind another one with the same options finds everything done. -/
private theorem findsDone (h : Halves options settings files between first)
    (h' : Halves options settings first.2 between' second) (hvalid : options.IsValid)
    (hsources : options.NamesSources) (hsuffix : settings.suffix = options.suffix)
    (hdelegates : settings.delegates = false) (hlogger : settings.logger.NeverFails)
    (hfailing : files.failing = []) :
    FindsDone first second := by
  obtain ⟨hpatches, -, hagree⟩ := h.ends_between hdelegates hlogger
  obtain ⟨hpatches', hwritten', hagree'⟩ := h'.ends_between hdelegates hlogger
  -- each unit runs on the files that it has left behind, as far as it can tell
  have hunit : ∀ path ∈ options.paths,
      (outcomeOf settings first.2 path).report =
        { (outcomeOf settings files path).report with isWritten := false } ∧
        (unitTask settings path).writes first.2 = [] := by
    intro path hpath
    have hne : path ≠ settings.companion path := by
      rw [UnitSettings.companion, hsuffix]
      exact (companion_ne hvalid hsources hpath hpath).symm
    have hown : first.2.Agree (settings.footprint path).paths
        ((unitTask settings path).run files).2 := by
      have hleft := h.agree_own hvalid hsources hsuffix hpath
      have hsame := hagree (settings.footprint path).paths
      exact ⟨hsame.failing.trans hleft.failing, fun place hplace =>
        (hsame.text? place hplace).trans (hleft.text? place hplace)⟩
    obtain ⟨hresult, hwrites, -⟩ := run_agree (unitTask_keepsTo settings path) hown
    rw [outcomeOf, outcomeOf, hresult, hwrites]
    exact unitTask_again hlogger hfailing hne
  have hnone : (options.paths.flatMap fun path => (unitTask settings path).writes first.2) = [] :=
    List.flatMap_eq_nil_iff.2 fun path hpath => (hunit path hpath).2
  obtain ⟨new, hnew, hperm⟩ := h'.generated.written_eq
  obtain rfl : new = [] := (hnone ▸ hperm).eq_nil
  have hunits : second.1.units = first.1.units.map fun unit => { unit with isWritten := false } := by
    rw [h'.report_eq, h.report_eq]
    simp only [report, List.map_map]
    exact List.map_congr_left fun path hpath => (hunit path hpath).1
  constructor
  case written_eq => rw [hwritten', hnew, List.append_nil]
  case text?_eq =>
    intro path
    rw [(hagree' [path]).text? path (by simp)]
    exact h'.generated.text?_of_not_mem (by simp [hnone])
  case units_eq => exact hunits
  case patches_eq => rw [hpatches', hpatches]
  case diagnostics_eq =>
    have hdiagnostics : second.1.diagnostics = second.1.units.flatMap UnitReport.diagnostics ++
        second.1.patches.filterMap patchDiagnostic? := by rw [h'.report_eq]; rfl
    have hdiagnostics' : first.1.diagnostics = first.1.units.flatMap UnitReport.diagnostics ++
        first.1.patches.filterMap patchDiagnostic? := by rw [h.report_eq]; rfl
    rw [hdiagnostics, hdiagnostics', hunits, hpatches, hpatches', List.flatMap_map]

end Halves

/-- A run that leaves the sources alone finds everything done when it is repeated, under any
schedulers. -/
theorem executeBy_again {record : Record} {options : RunOptions}
    (hread : RunOptions.read record = .ok options) (hpatches : options.patchesSources = false)
    (hsources : options.NamesSources) {services : Services} (hlogger : services.logger.NeverFails)
    (units patching units' patching' : Scheduler) {files : Files} (hfailing : files.failing = []) :
    ∃ first second : RunResult × Files,
      executeBy units patching options services files = (.ok first.1, first.2) ∧
      executeBy units' patching' options services first.2 = (.ok second.1, second.2) ∧
        FindsDone first second := by
  have hvalid := RunOptions.isValid_of_read hread
  obtain ⟨first, _, hfirst, h⟩ := exists_halves hvalid hsources hlogger units patching files
  obtain ⟨second, _, hsecond, h'⟩ := exists_halves hvalid hsources hlogger units' patching' first.2
  exact ⟨first, second, hfirst, hsecond, h.findsDone h' hvalid hsources rfl hpatches hlogger hfailing⟩

/-- A generated unit, one without annotated elements and a missing one. -/
theorem executeBy_again_turns :
    let options : RunOptions := ⟨["a.js", "b.js", "c.js"], .undefined, ".g", false, none⟩
    let files :=
      (Files.empty.put "a.js" "export class A \x7b static jsonSerializable = true; x = 1; \x7d").put
      "b.js" "const b = 2;"
    let services := Services.library []
    ∃ first second : RunResult × Files,
      execute options services files = (.ok first.1, first.2) ∧
      execute options services first.2 = (.ok second.1, second.2) ∧
      first.2.written = ["a.g.js"] ∧ FindsDone first second := by
  intro options files services
  have hread : RunOptions.read [("files", .array [.string "a.js", .string "b.js", .string "c.js"]),
      ("patchSources", .bool false)] = .ok options := rfl
  have hsources : options.NamesSources := ⟨by decide, by decide⟩
  have hwritten : (execute options services files).2.written = ["a.g.js"] := by decide +kernel
  have hlogger : services.logger.NeverFails := fun _ => rfl
  have hfailing : files.failing = [] := rfl
  obtain ⟨first, second, hfirst, hsecond, hdone⟩ :=
    executeBy_again hread rfl hsources hlogger (turns unitAccesses)
    (turns Patch.accesses) (turns unitAccesses) (turns Patch.accesses) hfailing
  have hrun : execute options services files = (.ok first.1, first.2) := hfirst
  rw [hrun] at hwritten
  exact ⟨first, second, hrun, hsecond, hwritten, hdone⟩

/-- Two runs have results, and something holds of each of them. -/
private theorem exists_of_endsIn_twice {check check' : RunResult → Files → Bool}
    {ended : Attempt RunResult × Files} {again : Files → Attempt RunResult × Files}
    (h : endsIn (fun result left => check result left && endsIn check' (again left)) ended = true) :
    ∃ first second : RunResult × Files, ended = (.ok first.1, first.2) ∧
      again first.2 = (.ok second.1, second.2) ∧
      check first.1 first.2 = true ∧ check' second.1 second.2 = true := by
  obtain ⟨first, hfirst, hboth⟩ := exists_of_endsIn h
  obtain ⟨hcheck, hends⟩ := Bool.and_eq_true_iff.1 hboth
  obtain ⟨second, hsecond, hcheck'⟩ := exists_of_endsIn hends
  exact ⟨first, second, hfirst, hsecond, hcheck, hcheck'⟩

/-- Stamps count the runs. -/
def stampConverter (runs : Nat) : Emit.CustomConverter where
  applies _ type := pure (type.name == ("Stamp" : Text))
  converter _ _ _ _ := fun e => pure (e ++ " + " ++ Text.ofNat runs)

/-- A logger that fails when a companion is written. -/
def jealousLogger : Logger := fun entry =>
  if entry.message == ("Companion written" : Text) then some (.foreign "Error" "not mine") else none

/-- The second run does not find everything done if a converter has changed with the runs, and
neither if the logger has failed in the first one: the unit has failed there although its companion
is written. -/
theorem executeBy_again_unlike :
    let options : RunOptions := ⟨["a.js"], .undefined, ".g", false, none⟩
    let files := Files.empty.put "a.js"
      "export class A \x7b static jsonSerializable = true; /** @type \x7bStamp\x7d */ x = 1; \x7d"
    let jealous : Services := { Services.library [stampConverter 1] with logger := jealousLogger }
    options.NamesSources ∧
    (∃ first second : RunResult × Files,
      execute options (.library [stampConverter 1]) files = (.ok first.1, first.2) ∧
      execute options (.library [stampConverter 2]) first.2 = (.ok second.1, second.2) ∧
      first.2.written = ["a.g.js"] ∧ second.2.written = ["a.g.js", "a.g.js"] ∧
      ¬ FindsDone first second) ∧
    ∃ first second : RunResult × Files,
      execute options jealous files = (.ok first.1, first.2) ∧
      execute options jealous first.2 = (.ok second.1, second.2) ∧
      first.1.units.map UnitReport.status = [.failed] ∧
        second.1.units.map UnitReport.status = [.generated] ∧
      ¬ FindsDone first second := by
  intro options files jealous
  refine ⟨⟨by decide, by decide⟩, ?_, ?_⟩
  · have hends : endsIn (fun _ left => left.written == (["a.g.js"] : List Text) &&
        endsIn (fun _ left => left.written == (["a.g.js", "a.g.js"] : List Text))
          (execute options (.library [stampConverter 2]) left))
        (execute options (.library [stampConverter 1]) files) = true := by decide +kernel
    obtain ⟨first, second, hfirst, hsecond, hwritten, hagain⟩ := exists_of_endsIn_twice hends
    rw [beq_iff_eq] at hwritten hagain
    refine ⟨first, second, hfirst, hsecond, hwritten, hagain, fun hdone => ?_⟩
    have hsame := hdone.written_eq
    rw [hagain, hwritten] at hsame
    cases hsame
  · have hends : endsIn (fun result left => result.units.map UnitReport.status == [.failed] &&
        endsIn (fun result _ => result.units.map UnitReport.status == [.generated])
        (execute options jealous left))
        (execute options jealous files) = true := by decide +kernel
    obtain ⟨first, second, hfirst, hsecond, hstatus, hstatus'⟩ := exists_of_endsIn_twice hends
    rw [beq_iff_eq] at hstatus hstatus'
    refine ⟨first, second, hfirst, hsecond, hstatus, hstatus', fun hdone => ?_⟩
    have hsame := hdone.map_status
    rw [hstatus, hstatus'] at hsame
    cases hsame

end Run

end JsonCompanion
