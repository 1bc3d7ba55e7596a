import JsonCompanion.Proofs.Emit.Construction
import JsonCompanion.Proofs.Emit.Factory
import JsonCompanion.Proofs.Model.Selection

/-!
# What factories read

* `IsDecoding` says how the code that decodes a field comes from the look-up of its key, with or
  without a default.
* `IsReading` says that a reading decodes the look-up of the key of a usable field.
* `Factory.Plans` says what a plan consists of, `plan_yields` that every plan does: all that is read
  is a reading of a usable field, and the consumed names and the admitted keys are made of what is
  read.
* `Plans.body_eq`: the lines of a factory hold its readings and nothing else, but for the check of keys.
-/

namespace JsonCompanion.Emit

open Collecting

/-- Code decodes a field from a look-up: it converts what is found, unless that is nothing and the
field has a default. -/
inductive IsDecoding (setting : ClassSetting) (field : Field) (access : Text) : Text → Prop
  | plain {type : TypeRef} {before left : List Fragment} {code : Text}
    (hdefault : (setting.config.key field.name).hasDefault = false)
      (htype : setting.fieldType field = .ok type)
    (hcode : (convert (setting.conversion field.name) .decode type access).outcome before =
      (.ok code, left)) :
    IsDecoding setting field access code
  | withDefault {type : TypeRef} {before left : List Fragment} {fallback converted : Text}
    (hdefault : (setting.config.key field.name).hasDefault = true)
      (htype : setting.fieldType field = .ok type)
    (hfallback : literal (setting.element field.name) (setting.config.key field.name).defaultValue =
      .ok fallback)
    (hconverted : (convert (setting.conversion field.name) .decode { type with nullable := false }
      access).outcome before = (.ok converted, left)) :
    IsDecoding setting field access (access ++ " == null ? " ++ fallback ++ " : " ++ converted)

/-- A reading decodes the look-up of the key of a usable field. -/
structure IsReading (setting : ClassSetting) (usable : List Field) (reading : Reading) : Prop where
  mem_usable : reading.field ∈ usable
  key_eq : reading.key = setting.config.outputKey reading.field
  decodes : IsDecoding setting reading.field (jsonAccess reading.key) reading.code

namespace Factory

variable {setting : ClassSetting} {usable : List Field}

/-- What a plan consists of, given the arguments for all parameters. -/
structure Plans (setting : ClassSetting) (usable : List Field) (all : List (Option Reading))
    (plan : Plan) : Prop where
  className_eq : plan.factory.className = setting.model.name
  arguments_eq : plan.factory.arguments = dropLeftOut all
  isReading : ∀ reading ∈ all.filterMap id ++ plan.factory.assignments, IsReading setting usable reading
  consumed_eq : plan.consumed = consumed all plan.factory.assignments
  admitted_eq : plan.factory.admitted =
    if setting.config.disallowUnrecognizedKeys then some (admittedKeys setting plan.consumed) else none

private theorem dropLeftOut_sublist (all : List (Option Reading)) : (dropLeftOut all).Sublist all := by
  unfold dropLeftOut
  have hdropped :
      (all.reverse.dropWhile fun a => argumentCode a == ("undefined" : Text)).Sublist all.reverse :=
    List.dropWhile_sublist _
  simpa using hdropped.reverse

/-- All that a factory reads are usable fields. -/
theorem Plans.isReading_readings {all : List (Option Reading)} {plan : Plan}
    (h : Plans setting usable all plan) :
    ∀ reading ∈ plan.factory.readings, IsReading setting usable reading := by
  intro reading hmem
  have hsublist := ((dropLeftOut_sublist all).filterMap id).append_right plan.factory.assignments
  unfold readings at hmem
  rw [h.arguments_eq] at hmem
  exact h.isReading reading (hsublist.subset hmem)

/-- The lines of a factory are its check of keys, the construction with the arguments, and the
assignments. -/
theorem Plans.body_eq {all : List (Option Reading)} {plan : Plan} (h : Plans setting usable all plan) :
    plan.factory.body = checkLines setting plan.consumed ++
      constructionLines setting.model.name (plan.factory.arguments.map argumentCode)
        (plan.factory.assignments.map assignmentLine) := by
  unfold body checkLines constructionLines
  rw [h.admitted_eq, h.className_eq, List.isEmpty_map]
  split <;> rfl

private theorem read_yields {field : Field} (hfield : field ∈ usable) :
    (read setting field).Yields (IsReading setting usable) := by
  unfold read
  dsimp only
  refine yields_bind (yields_ofAttempt fun type htype => htype) fun type htype => ?_
  cases hdefault : (setting.config.key field.name).hasDefault with
  | true =>
    rw [if_pos rfl]
    refine yields_bind (yields_ofAttempt fun fallback hfallback => hfallback)
      fun fallback hfallback => ?_
    refine yields_bind (yields_outcome _) fun converted hconverted => ?_
    obtain ⟨before, left, hconverted⟩ := hconverted
    exact yields_pure ⟨hfield, rfl, .withDefault hdefault htype hfallback hconverted⟩
  | false =>
    rw [if_neg Bool.false_ne_true]
    refine yields_bind (yields_outcome _) fun code hcode => ?_
    obtain ⟨before, left, hcode⟩ := hcode
    exact yields_pure ⟨hfield, rfl, .plain hdefault htype hcode⟩

private theorem argument_yields (reason? : Text → Option Text) (parameter : Parameter) :
    (argument setting usable reason? parameter).Yields fun argument => ∀ reading ∈ argument,
      IsReading setting usable reading := by
  unfold argument
  split
  · next field hfind =>
    -- the last field of a name counts, so that the fields are searched from behind
    have hfield : field ∈ usable := List.mem_reverse.1 (List.mem_of_find?_eq_some hfind)
    refine yields_map (read_yields hfield) fun reading hreading => ?_
    simpa using hreading
  · split
    · exact yields_pure (by simp)
    · exact yields_throw

private theorem readArguments_yields (reason? : Text → Option Text) (parameters : List Parameter) :
    (readArguments setting usable reason? parameters).Yields fun all =>
      ∀ reading ∈ all.filterMap id, IsReading setting usable reading := by
  induction parameters with
  | nil => exact yields_pure (by simp)
  | cons parameter parameters ih =>
    refine yields_bind (argument_yields reason? parameter) fun first hfirst =>
      yields_bind ih fun all hall => yields_pure ?_
    cases first with
    | none => exact hall
    | some reading => exact List.forall_mem_cons.2 ⟨hfirst reading rfl, hall⟩

private theorem readAssignments_yields (used : List Text) {fields : List Field}
    (hfields : fields ⊆ usable) :
    (readAssignments setting used fields).Yields fun assigned => ∀ reading ∈ assigned,
      IsReading setting usable reading := by
  induction fields generalizing used with
  | nil => exact yields_pure (by simp)
  | cons field fields ih =>
    obtain ⟨hfield, hfields⟩ := List.cons_subset.1 hfields
    unfold readAssignments
    split
    · exact ih used hfields
    · exact yields_bind (read_yields hfield) fun first hfirst =>
        yields_bind (ih _ hfields) fun assigned hassigned =>
        yields_pure (List.forall_mem_cons.2 ⟨hfirst, hassigned⟩)

theorem plan_yields (setting : ClassSetting) (usable : List Field) (reason? : Text → Option Text) :
    (plan setting usable reason?).Yields fun plan => ∃ all, Plans setting usable all plan := by
  unfold plan
  refine yields_bind (readArguments_yields reason? setting.model.parameters) fun all hall => ?_
  refine yields_bind (readAssignments_yields _ (List.Subset.refl usable)) fun assigned hassigned => ?_
  have hreadings : ∀ reading ∈ all.filterMap id ++ assigned, IsReading setting usable reading :=
    List.forall_mem_append.2 ⟨hall, hassigned⟩
  dsimp only
  split
  · next hchecks =>
    refine yields_bind (yields_true _) fun _ _ => yields_pure ⟨all, rfl, rfl, hreadings, rfl, ?_⟩
    rw [hchecks, if_pos rfl]
  · next hchecks =>
    exact yields_pure ⟨all, rfl, rfl, hreadings, rfl, by rw [if_neg hchecks]⟩

end Factory

end JsonCompanion.Emit
