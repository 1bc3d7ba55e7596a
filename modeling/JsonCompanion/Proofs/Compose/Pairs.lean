import JsonCompanion.Compose.ClassOutput
import JsonCompanion.Proofs.Emit.Decoding
import JsonCompanion.Proofs.Emit.Objects

/-!
# Factories and encoders that belong together

* `ClassOutput.Pairs` says what the factory and the encoder of one class have to do with each other.
* `ReadsBack` says what a reading finds in an object that an encoder has written.
* `generate_readsBack`: a reading finds what was written, and nothing where nothing was, unless the
  key is one that every object inherits.
-/

namespace JsonCompanion

open Emit Collecting Running

namespace ClassOutput

/-- A factory and an encoder are those of one class: the lines of the factory pass and assign its
readings, and those of the encoder write the fields that the factory consumes, as far as they are
not left out, and those that are asked for. -/
structure Pairs (setting : ClassSetting) (factory : Factory) (encoder : Encoder) (plan : Factory.Plan)
    (fields : List Field) (literal statements : List KeyWrite) : Prop where
  factory_eq : plan.factory = factory
  plans : ∃ all, Factory.Plans setting (Selection.ofModel setting.model setting.config).usable all plan
  body_eq : factory.body = Factory.checkLines setting plan.consumed ++
    Factory.constructionLines setting.model.name (factory.arguments.map Factory.argumentCode)
      (factory.assignments.map Factory.assignmentLine)
  encodeFields_eq : encodeFields setting.model setting.config (some plan.consumed) = .ok fields
  writes : WritesInOrder setting fields encoder.body literal statements

variable {setting : ClassSetting} {factory : Factory} {encoder : Encoder}

private theorem parts_yields (setting : ClassSetting) :
    (parts setting).Yields fun (factory?, encoder?, _) =>
    ∀ factory ∈ factory?, ∀ encoder ∈ encoder?, ∃ plan fields literal statements,
      Pairs setting factory encoder plan fields literal statements := by
  have hfactory : (factory? setting (Selection.ofModel setting.model setting.config)).Yields fun plan? =>
      ∀ plan ∈ plan?, ∃ all,
        Factory.Plans setting (Selection.ofModel setting.model setting.config).usable all plan := by
    unfold factory?
    split
    · exact yields_map (Factory.plan_yields setting _ _) fun plan hplan => by simpa using hplan
    · exact yields_pure (by simp)
  have hencoder (fields : List Field) : (encoder? setting fields).Yields fun encoder? =>
    ∀ encoder ∈ encoder?,
      ∃ literal statements, WritesInOrder setting fields encoder.body literal statements := by
    unfold encoder?
    split
    · exact yields_map (Encoder.plan_yields setting fields)
        fun encoder hencoder => by simpa using hencoder.2.2
    · exact yields_pure (by simp)
  unfold parts
  refine yields_bind hfactory fun plan? hplan => ?_
  refine yields_bind (yields_ofAttempt fun fields hfields => hfields) fun fields hfields => ?_
  refine yields_bind (hencoder fields) fun encoder? hencoder => ?_
  refine yields_bind (yields_true _) fun tables _ => yields_pure ?_
  rintro factory hfactory encoder hmem
  obtain ⟨plan, rfl, rfl⟩ := Option.map_eq_some_iff.1 hfactory
  obtain ⟨literal, statements, hwrites⟩ := hencoder encoder hmem
  obtain ⟨all, hplans⟩ := hplan plan rfl
  exact ⟨plan, fields, literal, statements, rfl, ⟨all, hplans⟩, hplans.body_eq, hfields, hwrites⟩

/-- The factory and the encoder that are generated for a class belong together. -/
theorem exists_pairs {output : ClassOutput} (h : generate setting = .ok output)
    (hfactory : output.factory = some factory) (hencoder : output.encoder = some encoder) :
    ∃ plan fields literal statements, Pairs setting factory encoder plan fields literal statements := by
  unfold generate at h
  split at h
  · next hparts =>
    obtain rfl := Except.ok.inj h
    exact parts_yields setting _ _ _ hparts factory hfactory encoder hencoder
  · cases h

namespace Pairs

variable {plan : Factory.Plan} {fields : List Field} {literal statements : List KeyWrite}

/-- All that a factory reads are usable fields. -/
theorem isReading (h : Pairs setting factory encoder plan fields literal statements) :
    ∀ reading ∈ factory.readings,
      IsReading setting (Selection.ofModel setting.model setting.config).usable reading := by
  obtain ⟨all, hplans⟩ := h.plans
  exact h.factory_eq ▸ hplans.isReading_readings

theorem nodup_keys (h : Pairs setting factory encoder plan fields literal statements) :
    ((literal ++ statements).map KeyWrite.key).Nodup := by
  rw [h.writes.keys_eq]
  exact nodup_outputKeys h.encodeFields_eq

/-- What holds of each field with its write and each reading of it holds of the fields and their
writes one by one. -/
theorem forall_readings (h : Pairs setting factory encoder plan fields literal statements)
    {P : Field → KeyWrite → Reading → Prop}
    (hP : ∀ (field : Field) (write : KeyWrite) (reading : Reading), WritesField setting field write →
      write ∈ literal ++ statements → reading ∈ factory.readings → reading.field.name = field.name →
      P field write reading) :
    List.Forall₂ (fun field write => ∀ reading ∈ factory.readings, reading.field.name = field.name →
      P field write reading) fields (literal ++ statements) := by
  obtain ⟨hlength, hzip⟩ := List.forall₂_iff_zip.1 h.writes.byField
  refine List.forall₂_iff_zip.2 ⟨hlength, fun {field write} hmem reading hreading hname => ?_⟩
  exact hP field write reading (hzip hmem) (List.of_mem_zip hmem).2 hreading hname

/-- A reading looks up the key under which its field is written. -/
theorem decodes (h : Pairs setting factory encoder plan fields literal statements) {field : Field}
    {write : KeyWrite} {reading : Reading} (hwrite : WritesField setting field write)
    (hreading : reading ∈ factory.readings) (hname : reading.field.name = field.name) :
    IsDecoding setting reading.field (jsonAccess write.key) reading.code := by
  have hisReading := h.isReading reading hreading
  have hkey : reading.key = write.key := by
    rw [hisReading.key_eq, hwrite.key_eq, Config.outputKey, Config.outputKey, hname]
  exact hkey ▸ hisReading.decodes

end Pairs

/-! ### Reading back -/

/-- What a reading finds in an object after writes, one of which is for its field: the value that
was written, or else what every object inherits under the key.  So it finds nothing where nothing
was written only if there is no condition under which that can be, or if nothing is inherited. -/
structure ReadsBack (setting : ClassSetting) (writes : List KeyWrite) (write : KeyWrite)
    (reading : Reading) : Prop where
  decodes : IsDecoding setting reading.field (jsonAccess write.key) reading.code
  get_eq : ∀ (Ref : Type) (around : Surroundings Ref) (evaluation : Evaluation Ref),
    (Object.empty.run around evaluation writes).get around write.key =
      if evaluation.makes write = true then evaluation.value write else inheritedMember write.key
  undefined_iff : (∀ (Ref : Type) (around : Surroundings Ref) (evaluation : Evaluation Ref),
      evaluation.makes write = false →
      (Object.empty.run around evaluation writes).get around write.key = .undefined) ↔
    write.condition = none ∨ ¬ IsInherited write.key

/-- For a write with a condition there is an instance for which it is not made. -/
private theorem exists_not_made {write : KeyWrite} (h : write.condition ≠ none) :
    ∃ evaluation : Evaluation Empty, evaluation.makes write = false := by
  obtain ⟨condition, hcondition⟩ := Option.ne_none_iff_exists'.1 h
  refine ⟨⟨fun _ => .undefined, fun _ => false⟩, ?_⟩
  rw [Evaluation.makes, hcondition]
  rfl

private theorem readsBack_of_pairs {plan : Factory.Plan} {fields : List Field}
    {literal statements : List KeyWrite}
    (h : Pairs setting factory encoder plan fields literal statements) {field : Field} {write : KeyWrite}
    (hwrites : WritesField setting field write) (hwrite : write ∈ literal ++ statements)
    {reading : Reading} (hreading : reading ∈ factory.readings)
    (hname : reading.field.name = field.name) :
    ReadsBack setting (literal ++ statements) write reading := by
  have hforms : ∀ write ∈ literal ++ statements,
      write.form = .computed ∨ write.form = .defined ↔ write.key = prototypeKey := by
    intro write hwrite
    obtain ⟨field, -, hfield⟩ := exists_of_mem_right h.writes.byField hwrite
    exact hfield.form_iff
  have hget (Ref : Type) (around : Surroundings Ref) (evaluation : Evaluation Ref) :=
    Object.get_run around evaluation hforms h.nodup_keys hwrite
  refine ⟨h.decodes hwrites hreading hname, hget, fun hundefined =>
    ?_, fun hsafe Ref around evaluation hskipped => ?_⟩
  · by_cases hcondition : write.condition = none
    · exact .inl hcondition
    · -- an instance for which the write is skipped tells what the look-up finds then
      obtain ⟨evaluation, hskipped⟩ := exists_not_made hcondition
      let around : Surroundings Empty := ⟨fun _ _ => .undefined, fun object _ _ => object⟩
      have hmember :=
        (hget Empty around evaluation).symm.trans (hundefined Empty around evaluation hskipped)
      rw [hskipped, if_neg Bool.false_ne_true] at hmember
      exact .inr (inheritedMember_eq_undefined_iff.1 hmember)
  · rcases hsafe with hcondition | hinherited
    · rw [Evaluation.makes, hcondition] at hskipped
      cases hskipped
    · rw [hget, hskipped, if_neg Bool.false_ne_true]
      exact inheritedMember_eq_undefined_iff.2 hinherited

/-- Whatever the instance, each field that is both written and read is read back: where its write
was made, the look-up of its key finds the value, and where it was not, the look-up finds what every
object inherits under the key. -/
theorem generate_readsBack {output : ClassOutput} (h : generate setting = .ok output)
    (hfactory : output.factory = some factory) (hencoder : output.encoder = some encoder) :
    ∃ plan fields literal statements, Pairs setting factory encoder plan fields literal statements ∧
      List.Forall₂ (fun field write => ∀ reading ∈ factory.readings, reading.field.name = field.name →
        ReadsBack setting (literal ++ statements) write reading) fields (literal ++ statements) := by
  obtain ⟨plan, fields, literal, statements, hpairs⟩ := exists_pairs h hfactory hencoder
  refine ⟨plan, fields, literal, statements, hpairs,
    hpairs.forall_readings fun field write reading hfield hwrite => ?_⟩
  exact readsBack_of_pairs hpairs hfield hwrite

/-- A default that is not written under the key `constructor`. -/
theorem generate_readsBack_point :
    let fields : List Field :=
      [⟨"kind", "string", false, false, true, true⟩, ⟨"x", "number", false, false, true, true⟩]
    let kind : Record :=
      [("name", .string "constructor"), ("defaultValue", .string "plain"), ("omitIfDefault", .bool true)]
    let setting : ClassSetting := ⟨⟨"Point", fields, [], [], none⟩,
      ⟨true, true, false, false, false, false, true, false, .none, [("kind", ⟨kind⟩)]⟩, [], []⟩
    let factoryLines : List Text := [
      "  const instance = new Point();",
      "  instance.kind = json[\"constructor\"] == null ? \"plain\" : String(json[\"constructor\"]);",
      "  instance.x = Number(json[\"x\"]);",
      "  return instance;"]
    let encoderLines : List Text := [
      "  const json = \x7b\x7d;",
      "  if (instance.kind !== \"plain\") \x7b\n    json[\"constructor\"] = instance.kind;\n  \x7d",
      "  json[\"x\"] = instance.x;",
      "  return json;"]
    ∃ output factory encoder, generate setting = .ok output ∧ output.factory = some factory ∧
      output.encoder = some encoder ∧ factory.body = factoryLines ∧ encoder.body = encoderLines ∧
      IsInherited "constructor" ∧
      ∃ plan fields literal statements, Pairs setting factory encoder plan fields literal statements ∧
        List.Forall₂ (fun field write => ∀ reading ∈ factory.readings, reading.field.name = field.name →
          ReadsBack setting (literal ++ statements) write reading) fields (literal ++ statements) := by
  intro fields kind setting factoryLines encoderLines
  have hbody : ((generate setting).toOption.any fun output =>
      output.factory.any (fun factory => factory.body == factoryLines) &&
        output.encoder.any fun encoder => encoder.body == encoderLines) = true := by decide +kernel
  obtain ⟨output, houtput, hparts⟩ := Attempt.exists_of_any hbody
  rw [Bool.and_eq_true] at hparts
  obtain ⟨factory, hfactory, hreads⟩ := (Option.any_eq_true _ _).1 hparts.1
  obtain ⟨encoder, hencoder, hwrites⟩ := (Option.any_eq_true _ _).1 hparts.2
  exact ⟨output, factory, encoder, houtput, hfactory, hencoder, beq_iff_eq.1 hreads,
    beq_iff_eq.1 hwrites,
    .inr (by decide), generate_readsBack houtput hfactory hencoder⟩

end ClassOutput

end JsonCompanion
