import JsonCompanion.Proofs.Emit.Decoding
import JsonCompanion.Proofs.Emit.Literal
import JsonCompanion.Proofs.Emit.LookUps

/-!
# Keys that factories admit

* `Reading.looksUp_iff`: the code of a reading looks up its key, and no other one.
* `plan_admits`: a factory that checks the keys of its argument admits those that its arguments and
  assignments look up.
-/

namespace JsonCompanion.Emit

open Script Collecting

variable {setting : ClassSetting} {usable : List Field}

/-! ### Readings -/

private theorem isNamed_nullable {type : TypeRef} (h : type.IsNamed) (nullable : Bool) :
    TypeRef.IsNamed { type with nullable } := by
  rw [TypeRef.isNamed_iff] at h ⊢
  exact h

/-- The code that decodes a field is code around the look-up. -/
private theorem encloses_decoding {field : Field} {access code : Text} {inner : List Token}
    (hcustoms : ∀ custom ∈ setting.customs, custom.IsEnclosing) (haccess : Consists access inner)
    (h : IsDecoding setting field access code) :
    Encloses inner code := by
  have hconverts (type : TypeRef) (htype : type.IsNamed) :
      (convert (setting.conversion field.name) .decode type access).Yields (Encloses inner) :=
    convert_isEnclosing hcustoms type htype _ _ haccess
  cases h with
  | plain _ htype hcode => exact hconverts _ (TypeRef.parse_isNamed htype) _ _ _ hcode
  | withDefault _ htype hfallback hconverted =>
    have hnamed := isNamed_nullable (TypeRef.parse_isNamed htype) false
    obtain ⟨d, rfl⟩ := Value.exists_datum _ hfallback
    exact (hconverts _ hnamed _ _ _ hconverted).guarded haccess d.isData

/-- The code of a reading looks up its key, and no other one. -/
theorem IsReading.looksUp_iff {reading : Reading} (h : IsReading setting usable reading)
    (hcustoms : ∀ custom ∈ setting.customs, custom.IsEnclosing) {key : Text} :
    LooksUp reading.code key ↔ key = reading.key :=
  (encloses_decoding hcustoms (consists_access reading.key) h.decodes).looksUp_iff

private theorem encloses_leftOut : Encloses [] "undefined" :=
  ⟨[.ofName "undefined"], [], fun hrest hends => hrest.word "undefined" rfl hends, fun _ _ =>
    .word .nil "undefined" rfl⟩

/-! ### Factories -/

namespace Factory

variable {all : List (Option Reading)} {plan : Plan}

/-- The codes of arguments and assignments. -/
def codes (factory : Factory) : List Text :=
  factory.arguments.map argumentCode ++ factory.assignments.map Reading.code

/-- What the arguments and assignments of a factory look up is looked up by its readings. -/
private theorem exists_code_iff (factory : Factory) (key : Text) :
    (∃ code ∈ factory.codes, LooksUp code key) ↔
    ∃ reading ∈ factory.readings, LooksUp reading.code key := by
  constructor
  · rintro ⟨code, hcode, hlooksUp⟩
    rcases List.mem_append.1 hcode with hcode | hcode
    · obtain ⟨argument, hargument, rfl⟩ := List.mem_map.1 hcode
      cases argument with
      | none => exact absurd hlooksUp encloses_leftOut.not_looksUp
      | some reading =>
        have hreading : reading ∈ factory.arguments.filterMap id :=
          List.mem_filterMap.2 ⟨_, hargument, rfl⟩
        exact ⟨reading, List.mem_append_left _ hreading, hlooksUp⟩
    · obtain ⟨reading, hreading, rfl⟩ := List.mem_map.1 hcode
      exact ⟨reading, List.mem_append_right _ hreading, hlooksUp⟩
  · rintro ⟨reading, hreading, hlooksUp⟩
    refine ⟨reading.code, ?_, hlooksUp⟩
    rcases List.mem_append.1 hreading with hreading | hreading
    · obtain ⟨argument, hargument, hsome⟩ := List.mem_filterMap.1 hreading
      obtain rfl : argument = some reading := hsome
      exact List.mem_append_left _ (List.mem_map.2 ⟨_, hargument, rfl⟩)
    · exact List.mem_append_right _ (List.mem_map_of_mem hreading)

private theorem Plans.readings_eq (h : Plans setting usable all plan)
    (hcustoms : ∀ custom ∈ setting.customs, custom.IsEnclosing) :
    plan.factory.readings = all.filterMap id ++ plan.factory.assignments := by
  -- what is left out at the end are arguments without a reading, for the code of a reading looks its key up
  have hcodes : ∀ reading ∈ all.filterMap id, reading.code ≠ "undefined" := by
    intro reading hreading hcode
    have hisReading := h.isReading reading (List.mem_append_left _ hreading)
    have hlooksUp := (hisReading.looksUp_iff hcustoms).2 rfl
    rw [hcode] at hlooksUp
    exact encloses_leftOut.not_looksUp hlooksUp
  rw [readings, h.arguments_eq, readings_dropLeftOut hcodes]

/-- The admitted keys are those of the readings. -/
private theorem Plans.mem_admitted_iff (h : Plans setting usable all plan)
    (hcustoms : ∀ custom ∈ setting.customs, custom.IsEnclosing)
    (husable : usable ⊆ setting.model.fields) {key : Text} :
    key ∈ admittedKeys setting plan.consumed ↔ ∃ reading ∈ plan.factory.readings, key = reading.key := by
  rw [h.readings_eq hcustoms, h.consumed_eq]
  unfold admittedKeys
  constructor
  · intro hkey
    obtain ⟨field, hfield, rfl⟩ := List.mem_map.1 hkey
    obtain ⟨reading, hreading, hname⟩ :=
      mem_consumed_iff.1 (List.contains_iff_mem.1 (List.mem_filter.1 hfield).2)
    refine ⟨reading, hreading, ?_⟩
    rw [(h.isReading reading hreading).key_eq, Config.outputKey, hname]
  · rintro ⟨reading, hreading, rfl⟩
    have hisReading := h.isReading reading hreading
    have hconsumed : reading.field.name ∈ consumed all plan.factory.assignments :=
      mem_consumed_iff.2 ⟨reading, hreading, rfl⟩
    have hfield : reading.field ∈ setting.model.fields := husable hisReading.mem_usable
    rw [hisReading.key_eq]
    exact List.mem_map.2
      ⟨reading.field, List.mem_filter.2 ⟨hfield, List.contains_iff_mem.2 hconsumed⟩, rfl⟩

/-- A factory that checks the keys of its argument does so first, and admits just those that its
arguments and assignments look up. -/
theorem plan_admits {reason? : Text → Option Text} {items left : List Fragment}
    (hcustoms : ∀ custom ∈ setting.customs, custom.IsEnclosing)
    (hchecks : setting.config.disallowUnrecognizedKeys = true)
    (husable : usable ⊆ setting.model.fields)
    (h : (Factory.plan setting usable reason?).outcome items = (.ok plan, left)) :
    ∃ keys : List Text, plan.factory.body =
        ("  " ++ checkKeysName ++ "(json, [" ++ Text.join ", " (keys.map Text.quote) ++ "]);" : Text) ::
          constructionLines setting.model.name (plan.factory.arguments.map argumentCode)
            (plan.factory.assignments.map assignmentLine) ∧
      ∀ key, key ∈ keys ↔ ∃ code ∈ plan.factory.codes, LooksUp code key := by
  obtain ⟨all, hplans⟩ := plan_yields setting usable reason? items plan left h
  refine ⟨admittedKeys setting plan.consumed, ?_, fun key => ?_⟩
  · rw [hplans.body_eq, checkLines, if_pos hchecks]
    rfl
  · rw [exists_code_iff, hplans.mem_admitted_iff hcustoms husable]
    refine exists_congr fun reading => and_congr_right fun hreading => ?_
    exact ((hplans.isReading_readings reading hreading).looksUp_iff hcustoms).symm

/-- Amounts of money are texts in JSON. -/
def moneyConverter : CustomConverter where
  applies _ type := pure (type.name == ("Money" : Text))
  converter _ direction _ _ := fun e => pure (match direction with
    | .decode => "Money.parse(" ++ e ++ ")"
    | .encode => e ++ ".format()")

private theorem isEnclosing_money : moneyConverter.IsEnclosing := by
  intro _ _ _ _ e tokens he
  have hcall : IsLead "Money.parse(" := isLead_call (show Text.isDotted "Money.parse" by decide)
  exact yields_pure (((Encloses.refl he).behind hcall).before isTail_close)

/-- Two fields with the same key, a type with a converter of its own, a parameter that is left out,
a field that cannot be assigned, and a default that looks like a look-up. -/
theorem plan_admits_user :
    let fields : List Field := [⟨"userName", "string", false, false, true, true⟩,
      ⟨"pattern", "unknown", false, false, true, true⟩,
      ⟨"nick", "Array<Money>", false, false, true, true⟩,
      ⟨"id", "number", false, true, true, true⟩]
    let parameters : List Parameter :=
      [⟨"nick", false⟩, ⟨"legacy", true⟩, ⟨"userName", false⟩, ⟨"extra", true⟩]
    let config : Config := ⟨true, true, false, false, false, true, true, false, .kebab,
      [("pattern", ⟨[("defaultValue", .string "json[\"x\"]")]⟩),
      ("nick", ⟨[("name", .string "user-name")]⟩)]⟩
    let setting : ClassSetting := ⟨⟨"User", fields, parameters, [], none⟩, config, [], [moneyConverter]⟩
    let lines : List Text := [
      "  $checkKeys(json, [\"user-name\", \"pattern\", \"user-name\"]);",
      "  const instance = new User(json[\"user-name\"].map((e) => Money.parse(e)), undefined, " ++
        "String(json[\"user-name\"]));",
      "  instance.pattern = json[\"pattern\"] == null ? \"json[\\\"x\\\"]\" : json[\"pattern\"];",
      "  return instance;"]
    ∃ plan left, (∀ custom ∈ setting.customs, custom.IsEnclosing) ∧
      (Factory.plan setting fields fun _ => none).outcome [] = (.ok plan, left) ∧
        plan.factory.body = lines ∧
      ∃ keys : List Text, plan.factory.body =
          ("  " ++ checkKeysName ++ "(json, [" ++ Text.join ", " (keys.map Text.quote) ++
            "]);" : Text) ::
            constructionLines setting.model.name (plan.factory.arguments.map argumentCode)
              (plan.factory.assignments.map assignmentLine) ∧
        ∀ key, key ∈ keys ↔ ∃ code ∈ plan.factory.codes, LooksUp code key := by
  intro fields parameters config setting lines
  have hcustoms : ∀ custom ∈ setting.customs, custom.IsEnclosing := by
    simpa only [setting, List.forall_mem_singleton] using isEnclosing_money
  have hbody : ((Factory.plan setting fields fun _ => none).outcome []).1.toOption.any
      fun plan => plan.factory.body == lines := by decide +kernel
  obtain ⟨plan, left, hplan, hbody⟩ := exists_of_any hbody
  exact ⟨plan, left, hcustoms, hplan, beq_iff_eq.1 hbody,
    plan_admits hcustoms rfl (List.Subset.refl fields) hplan⟩

end Factory

end JsonCompanion.Emit
