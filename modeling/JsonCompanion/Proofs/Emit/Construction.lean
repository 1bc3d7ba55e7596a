import Mathlib.Data.List.TakeWhile
import JsonCompanion.Proofs.Compose.Distinct
import JsonCompanion.Proofs.Emit.Keeping

/-!
# What factories pass and assign

* `Factory.decoding` is the code that decodes a field.
* `IsMissing` holds of the parameters that keep a class from having a factory.
* `Passes` says what is passed to the constructor, and `IsAssigned` which fields are assigned after it.
* `Constructs` says what a factory does, and `plan_settles` that every factory does so, unless a
  parameter is missing.
-/

namespace JsonCompanion.Emit.Factory

open Collecting

/-! ### Parameters and fields -/

/-- The code that decodes a field. -/
def decoding (setting : ClassSetting) (field : Field) : Attempt Text :=
  ((read setting field).outcome []).1.map Reading.code

/-- A parameter has a usable field of its name. -/
def HasField (usable : List Field) (parameter : Parameter) : Prop :=
  ∃ field ∈ usable, field.name = parameter.name

/-- A required parameter has no usable field of its name. -/
def IsMissing (usable : List Field) (parameter : Parameter) : Prop :=
  parameter.isOptional = false ∧ ¬ HasField usable parameter

/-- What is passed for a parameter: the decoding of its field, or nothing if it is optional. -/
inductive IsPassed (usable : List Field) (code : Field → Text) (parameter : Parameter) : Text → Prop
  | decoded {field : Field} (hfield : field ∈ usable) (hname : field.name = parameter.name) :
    IsPassed usable code parameter (code field)
  | leftOut (hoptional : parameter.isOptional = true) (hnone : ¬ HasField usable parameter) :
    IsPassed usable code parameter "undefined"

/-- The arguments for parameters: one for each parameter up to the last one that has a usable field. -/
def Passes (parameters : List Parameter) (usable : List Field) (code : Field → Text)
    (arguments : List Text) : Prop :=
  ∃ taken left, parameters = taken ++ left ∧ List.Forall₂ (IsPassed usable code) taken arguments ∧
    (∀ parameter ∈ left, ¬ HasField usable parameter) ∧ ∀ parameter ∈ taken.getLast?,
      HasField usable parameter

/-- A field is one that the constructor takes. -/
def IsTaken (model : ClassModel) (field : Field) : Prop :=
  ∃ parameter ∈ model.parameters, parameter.name = field.name

/-- A field is to be assigned after construction. -/
def IsAssigned (model : ClassModel) (field : Field) : Prop :=
  ¬ IsTaken model field ∧ field.isFinal = false ∧ field.hasSetter = true

instance (usable : List Field) (parameter : Parameter) : Decidable (HasField usable parameter) :=
  inferInstanceAs (Decidable (∃ _ ∈ _, _))

instance (usable : List Field) (parameter : Parameter) : Decidable (IsMissing usable parameter) :=
  inferInstanceAs (Decidable (_ ∧ _))

instance (model : ClassModel) (field : Field) : Decidable (IsTaken model field) :=
  inferInstanceAs (Decidable (∃ _ ∈ _, _))

instance (model : ClassModel) (field : Field) : Decidable (IsAssigned model field) :=
  inferInstanceAs (Decidable (_ ∧ _))

/-! ### The lines of a factory -/

/-- The line that checks the keys of the argument, if the options ask for it. -/
def checkLines (setting : ClassSetting) (names : List Text) : List Text :=
  if setting.config.disallowUnrecognizedKeys then
    ["  " ++ checkKeysName ++ "(json, [" ++
      Text.join ", " ((admittedKeys setting names).map Text.quote) ++ "]);"]
  else []

/-- The line that assigns a field. -/
def assignedLine (code : Field → Text) (field : Field) : Text :=
  "  " ++ memberAccess "instance" field.name ++ " = " ++ code field ++ ";"

/-- The lines that construct an instance with some arguments and assign to it. -/
def constructionLines (className : Text) (arguments assignments : List Text) : List Text :=
  let call : Text := "new " ++ className ++ "(" ++ Text.join ", " arguments ++ ")"
  if assignments.isEmpty then ["  return " ++ call ++ ";"]
  else ("  const instance = " ++ call ++ ";" : Text) :: assignments ++ [("  return instance;" : Text)]

/-- What a factory does: it passes the decodings of the fields that the constructor takes, and
assigns those that can be assigned, in order of declaration. -/
structure Constructs (setting : ClassSetting) (usable : List Field) (code : Field → Text)
    (plan : Plan) : Prop where
  render_eq : ∃ arguments, Passes setting.model.parameters usable code arguments ∧
    plan.factory.render = .function true (factoryName setting.model.name)
      ("json" :: setting.callbacks .decode)
      (checkLines setting plan.consumed ++ constructionLines setting.model.name arguments
        ((usable.filter fun field => decide (IsAssigned setting.model field)).map (assignedLine code)))
  consumed_nodup : plan.consumed.Nodup
  mem_consumed_iff : ∀ name, name ∈ plan.consumed ↔
    ∃ field ∈ usable, field.name = name ∧ (IsTaken setting.model field ∨ IsAssigned setting.model field)
  not_consumed : ∀ field ∈ usable, field.name ∉ plan.consumed →
    ¬ IsTaken setting.model field ∧ (field.isFinal = true ∨ field.hasSetter = false)

/-- What becomes of the factory of a class: it fails for the first parameter that is missing, if
there is one. -/
structure Settles (setting : ClassSetting) (usable : List Field) (code : Field → Text)
    (reason? : Text → Option Text) (result : Attempt Plan) : Prop where
  error_iff : (∃ failure, result = .error failure) ↔ ∃ parameter ∈ setting.model.parameters,
    IsMissing usable parameter
  of_error : ∀ failure, result = .error failure → ∃ before parameter behind,
    setting.model.parameters = before ++ parameter :: behind ∧ IsMissing usable parameter ∧
      (∀ other ∈ before, ¬ IsMissing usable other) ∧
        failure = missing setting parameter.name (reason? parameter.name)
  of_ok : ∀ plan, result = .ok plan → Constructs setting usable code plan

variable {setting : ClassSetting} {usable : List Field} {code : Field → Text}
  {reason? : Text → Option Text}

/-! ### Readings -/

/-- The reading of a field with its decoding. -/
private def readingOf (setting : ClassSetting) (code : Field → Text) (field : Field) : Reading :=
  ⟨field, (setting.config.key field.name).outputKey, code field⟩

private theorem read_gives (hcustoms : setting.customs = []) (field : Field) :
    (read setting field).Gives fun reading =>
    reading.field = field ∧ reading.key = (setting.config.key field.name).outputKey ∧
      0x5B ∈ reading.code := by
  have hkeeps : ∀ type, Keeps (convert (setting.conversion field.name) .decode type) :=
    convert_keeps hcustoms
  unfold read
  refine gives_bind (gives_ofAttempt fun _ _ => trivial) fun type _ => ?_
  split
  · refine gives_bind (gives_ofAttempt fun _ _ => trivial) fun fallback _ => ?_
    refine gives_bind (hkeeps _ _) fun converted _ => gives_pure ⟨rfl, rfl, ?_⟩
    simp only [List.mem_append]
    exact .inl (.inl (.inl (.inl (mem_jsonAccess _))))
  · exact gives_bind (hkeeps _ _) fun converted hconverted =>
      gives_pure ⟨rfl, rfl, hconverted (mem_jsonAccess _)⟩

/-- A field with a decoding is read, whatever was requested before, and its decoding is an access. -/
private theorem read_hasResult (hcustoms : setting.customs = []) {field : Field}
    (h : decoding setting field = .ok (code field)) :
    (read setting field).HasResult (.ok (readingOf setting code field)) ∧ code field ≠ "undefined" := by
  obtain ⟨failure | reading, hresult, hfacts⟩ := read_gives hcustoms field
  · rw [decoding, hresult] at h
    cases h
  · obtain ⟨hfield, hkey, haccess⟩ := hfacts reading rfl
    rw [decoding, hresult] at h
    have hcode : reading.code = code field := Except.ok.inj h
    have hreading : reading = readingOf setting code field := by
      rw [readingOf, ← hkey, ← hcode]
      exact hfield ▸ rfl
    refine ⟨hreading ▸ hresult, fun hnothing => ?_⟩
    rw [hcode, hnothing] at haccess
    exact absurd haccess (by decide)

/-! ### Arguments -/

/-- The usable field of a parameter. -/
private def field? (usable : List Field) (parameter : Parameter) : Option Field :=
  usable.find? fun field => field.name == parameter.name

private theorem isSome_field?_iff {parameter : Parameter} :
    (field? usable parameter).isSome = true ↔ HasField usable parameter := by
  simp [field?, HasField]

private theorem mem_of_field? {parameter : Parameter} {field : Field}
    (h : field? usable parameter = some field) :
    field ∈ usable ∧ field.name = parameter.name :=
  ⟨List.mem_of_find?_eq_some h, by simpa using List.find?_some h⟩

/-- The last field of a name is the only one. -/
private theorem find?_reverse (hnames : (usable.map Field.name).Nodup) (parameter : Parameter) :
    usable.reverse.find? (fun field => field.name == parameter.name) = field? usable parameter := by
  cases hlast : usable.reverse.find? fun field => field.name == parameter.name with
  | none =>
    rw [List.find?_eq_none] at hlast
    exact (List.find?_eq_none.2 fun field hfield => hlast field (List.mem_reverse.2 hfield)).symm
  | some last =>
    have hmem : last ∈ usable := List.mem_reverse.1 (List.mem_of_find?_eq_some hlast)
    have hname : last.name = parameter.name := by simpa using List.find?_some hlast
    obtain ⟨first, hfirst⟩ := Option.isSome_iff_exists.1 (isSome_field?_iff.2 ⟨last, hmem, hname⟩)
    obtain ⟨hmem', hname'⟩ := mem_of_field? hfirst
    rw [hfirst, List.inj_on_of_nodup_map hnames hmem hmem' (hname.trans hname'.symm)]

section

variable (hnames : (usable.map Field.name).Nodup)
  (hread : ∀ field ∈ usable, (read setting field).HasResult (.ok (readingOf setting code field)))

include hnames hread

private theorem argument_hasResult {parameter : Parameter} (h : ¬ IsMissing usable parameter) :
    (argument setting usable reason? parameter).HasResult
      (.ok ((field? usable parameter).map (readingOf setting code))) := by
  unfold argument
  rw [find?_reverse hnames]
  cases hfield : field? usable parameter with
  | some field => exact hasResult_map (hread field (mem_of_field? hfield).1)
  | none =>
    have hoptional : parameter.isOptional = true := by
      refine eq_true_of_ne_false fun hrequired => h ⟨hrequired, fun hhas => ?_⟩
      have hsome := isSome_field?_iff.2 hhas
      rw [hfield] at hsome
      cases hsome
    simp only [hoptional, if_true]
    exact hasResult_pure none

omit hread in
private theorem argument_of_isMissing {parameter : Parameter} (h : IsMissing usable parameter) :
    (argument setting usable reason? parameter).HasResult
      (.error (missing setting parameter.name (reason? parameter.name))) := by
  have hnone : field? usable parameter = none :=
    Option.not_isSome_iff_eq_none.1 (mt isSome_field?_iff.1 h.2)
  unfold argument
  rw [find?_reverse hnames, hnone]
  simp only [h.1, Bool.false_eq_true, if_false]
  exact hasResult_throw _

private theorem readArguments_hasResult {parameters : List Parameter}
    (h : ∀ parameter ∈ parameters, ¬ IsMissing usable parameter) :
    (readArguments setting usable reason? parameters).HasResult
      (.ok (parameters.map fun parameter =>
        (field? usable parameter).map (readingOf setting code))) := by
  induction parameters with
  | nil => exact hasResult_pure []
  | cons parameter parameters ih =>
    rw [List.forall_mem_cons] at h
    exact hasResult_bind (argument_hasResult hnames hread h.1)
      (hasResult_bind (ih h.2) (hasResult_pure _))

private theorem readArguments_of_isMissing {before behind : List Parameter} {parameter : Parameter}
    (hbefore : ∀ other ∈ before, ¬ IsMissing usable other) (h : IsMissing usable parameter) :
    (readArguments setting usable reason? (before ++ parameter :: behind)).HasResult
      (.error (missing setting parameter.name (reason? parameter.name))) := by
  induction before with
  | nil => exact hasResult_bind_error (argument_of_isMissing hnames h)
  | cons first before ih =>
    rw [List.forall_mem_cons] at hbefore
    exact hasResult_bind (argument_hasResult hnames hread hbefore.1)
      (hasResult_bind_error (ih hbefore.2))

/-! ### Assignments -/

/-- Fields that can be assigned and are not used yet are read in order. -/
private theorem readAssignments_hasResult (used : List Text) :
    (readAssignments setting used usable).HasResult
      (.ok ((usable.filter fun field =>
        !used.contains field.name && !field.isFinal && field.hasSetter).map
        (readingOf setting code))) := by
  induction usable generalizing used with
  | nil => exact hasResult_pure []
  | cons field fields ih =>
    rw [List.map_cons, List.nodup_cons] at hnames
    rw [List.forall_mem_cons] at hread
    rw [readAssignments]
    by_cases hskip : (used.contains field.name || field.isFinal || !field.hasSetter) = true
    · have hout : (!used.contains field.name && !field.isFinal && field.hasSetter) = false := by
        rw [← Bool.not_eq_true', ← hskip]
        simp [Bool.not_and, Bool.not_not]
      rw [if_pos hskip, List.filter_cons, hout]
      exact ih hnames.2 hread.2 used
    · have hin : (!used.contains field.name && !field.isFinal && field.hasSetter) = true := by
        rw [Bool.not_eq_true] at hskip
        rw [← Bool.not_eq_false', ← hskip]
        simp [Bool.not_and, Bool.not_not]
      -- the fields behind have other names, so the name that is used now makes no difference to them
      have hrest : (fields.filter fun other =>
            !(field.name :: used).contains other.name && !other.isFinal && other.hasSetter) =
          fields.filter fun other => !used.contains other.name && !other.isFinal && other.hasSetter := by
        refine List.filter_congr fun other hother => ?_
        have hne : other.name ≠ field.name := fun heq => hnames.1 (heq ▸ List.mem_map_of_mem hother)
        simp [hne]
      rw [if_neg hskip, List.filter_cons, hin, if_pos rfl, List.map_cons, ← hrest]
      exact hasResult_bind hread.1 (hasResult_bind (ih hnames.2 hread.2 _) (hasResult_pure _))

end

/-! ### Plans -/

/-- The arguments for parameters, with nothing for those without a usable field. -/
private def argumentsOf (setting : ClassSetting) (usable : List Field) (code : Field → Text)
    (parameters : List Parameter) : List (Option Reading) :=
  parameters.map fun parameter => (field? usable parameter).map (readingOf setting code)

/-- The fields that the constructor takes are read for its arguments. -/
private theorem exists_argument_iff (setting : ClassSetting) (usable : List Field)
    (code : Field → Text) {name : Text} :
    (∃ reading ∈ (argumentsOf setting usable code setting.model.parameters).filterMap id,
      reading.field.name = name) ↔
      ∃ field ∈ usable, field.name = name ∧ IsTaken setting.model field := by
  constructor
  · rintro ⟨reading, hreading, rfl⟩
    obtain ⟨_, hargument, rfl⟩ := List.mem_filterMap.1 hreading
    obtain ⟨parameter, hparameter, hsome⟩ := List.mem_map.1 hargument
    obtain ⟨field, hfield, rfl⟩ := Option.map_eq_some_iff.1 hsome
    obtain ⟨husable, hname⟩ := mem_of_field? hfield
    exact ⟨field, husable, rfl, parameter, hparameter, hname.symm⟩
  · rintro ⟨field, husable, rfl, parameter, hparameter, hname⟩
    obtain ⟨first, hfirst⟩ :=
      Option.isSome_iff_exists.1 (isSome_field?_iff.2 ⟨field, husable, hname.symm⟩)
    refine ⟨readingOf setting code first,
      List.mem_filterMap.2 ⟨_, List.mem_map.2 ⟨parameter, hparameter, ?_⟩, rfl⟩,
      (mem_of_field? hfirst).2.trans hname⟩
    rw [hfirst, Option.map_some]

/-- Arguments are dropped behind the last parameter that has a usable field. -/
private theorem exists_taken (setting : ClassSetting)
    (hcode : ∀ field ∈ usable, code field ≠ "undefined") (parameters : List Parameter) :
    ∃ taken left, parameters = taken ++ left ∧
      dropLeftOut (argumentsOf setting usable code parameters) = argumentsOf setting usable code taken ∧
      (∀ parameter ∈ left, ¬ HasField usable parameter) ∧ ∀ parameter ∈ taken.getLast?,
        HasField usable parameter := by
  -- an argument is dropped if its code is that of a missing one, and no decoding has that code
  have hdropped : (fun argument => argumentCode argument == ("undefined" : Text)) ∘
      (fun parameter => (field? usable parameter).map (readingOf setting code)) =
        fun parameter => !decide (HasField usable parameter) := by
    funext parameter
    cases hfield : field? usable parameter with
    | none =>
      have hnone : ¬ HasField usable parameter := mt isSome_field?_iff.2 (by simp [hfield])
      simp [hfield, argumentCode, hnone]
    | some field =>
      have hhas : HasField usable parameter := isSome_field?_iff.1 (by simp [hfield])
      have hne : code field ≠ "undefined" := hcode field (mem_of_field? hfield).1
      simp [hfield, argumentCode, readingOf, hhas, hne]
  let taken :=
    (parameters.reverse.dropWhile fun parameter => !decide (HasField usable parameter)).reverse
  let left := (parameters.reverse.takeWhile fun parameter => !decide (HasField usable parameter)).reverse
  refine ⟨taken, left, ?_, ?_, fun parameter hmem => ?_, fun parameter hmem => ?_⟩
  · rw [← List.reverse_append, List.takeWhile_append_dropWhile, List.reverse_reverse]
  · rw [dropLeftOut, argumentsOf, argumentsOf, ← List.map_reverse, List.dropWhile_map, hdropped,
      List.map_reverse]
  · simpa using List.mem_takeWhile_imp (List.mem_reverse.1 hmem)
  · rw [List.getLast?_reverse] at hmem
    have hhead :=
      List.head?_dropWhile_not (fun parameter => !decide (HasField usable parameter)) parameters.reverse
    rw [Option.mem_def.1 hmem] at hhead
    simpa using hhead

/-- The fields that a factory consumes are those that it reads, each once. -/
private theorem consumed_eq (arguments : List (Option Reading)) (assignments : List Reading) :
    consumed arguments assignments =
      distinct ((arguments.filterMap id ++ assignments).map fun reading => reading.field.name) := rfl

theorem mem_consumed_iff {arguments : List (Option Reading)} {assignments : List Reading} {name : Text} :
    name ∈ consumed arguments assignments ↔
      ∃ reading ∈ arguments.filterMap id ++ assignments, reading.field.name = name := by
  rw [consumed_eq, mem_distinct, List.mem_map]

private theorem mem_consumedBy_iff {fields : List Field} {name : Text} :
    name ∈ consumed (argumentsOf setting usable code setting.model.parameters)
      (fields.map (readingOf setting code)) ↔
      (∃ field ∈ usable, field.name = name ∧ IsTaken setting.model field) ∨ ∃ field ∈ fields,
        field.name = name := by
  have hassigned : (∃ reading ∈ fields.map (readingOf setting code), reading.field.name = name) ↔
      ∃ field ∈ fields, field.name = name := by
    simp [readingOf]
  rw [mem_consumed_iff, ← hassigned, ← exists_argument_iff setting usable code]
  simp only [List.mem_append, or_and_right, exists_or]

/-- What is decided for a factory without missing parameters. -/
private def planned (setting : ClassSetting) (usable : List Field) (code : Field → Text) : Plan :=
  let all := argumentsOf setting usable code setting.model.parameters
  let assigned :=
    (usable.filter fun field => decide (IsAssigned setting.model field)).map (readingOf setting code)
  let names := consumed all assigned
  { factory := {
      className := setting.model.name
      callbacks := setting.callbacks .decode
      admitted := if setting.config.disallowUnrecognizedKeys then some (admittedKeys setting
        names) else none
      arguments := dropLeftOut all
      assignments := assigned }
    consumed := names }

private theorem plan_hasResult (hnames : (usable.map Field.name).Nodup)
    (hread : ∀ field ∈ usable, (read setting field).HasResult (.ok (readingOf setting code field)))
    (h : ∀ parameter ∈ setting.model.parameters, ¬ IsMissing usable parameter) :
    (plan setting usable reason?).HasResult (.ok (planned setting usable code)) := by
  -- a field is used already exactly if the constructor takes it
  have hused :
      (usable.filter fun field => !(consumed (argumentsOf setting usable code setting.model.parameters)
        []).contains field.name && !field.isFinal && field.hasSetter) =
        usable.filter fun field => decide (IsAssigned setting.model field) := by
    refine List.filter_congr fun field hfield => ?_
    have hmem : field.name ∈ consumed (argumentsOf setting usable code setting.model.parameters) [] ↔
        IsTaken setting.model field := by
      rw [← List.map_nil, mem_consumedBy_iff]
      constructor
      · rintro (⟨other, _, hname, parameter, hparameter, hother⟩ | ⟨_, hnone, _⟩)
        · exact ⟨parameter, hparameter, hother.trans hname⟩
        · cases hnone
      · exact fun htaken => .inl ⟨field, hfield, rfl, htaken⟩
    rw [Bool.eq_iff_iff, decide_eq_true_iff]
    simp [IsAssigned, hmem, and_assoc]
  have hassignments := readAssignments_hasResult hnames hread
    (consumed (argumentsOf setting usable code setting.model.parameters) [])
  rw [hused] at hassignments
  unfold plan
  refine hasResult_bind (readArguments_hasResult hnames hread h) (hasResult_bind hassignments ?_)
  dsimp only
  split
  · rename_i hchecks
    refine hasResult_bind (hasResult_add _) ?_
    simp only [planned, hchecks, if_true]
    exact hasResult_pure _
  · rename_i hchecks
    simp only [planned, hchecks]
    exact hasResult_pure _

private theorem isPassed_argument {parameter : Parameter} (h : ¬ IsMissing usable parameter) :
    IsPassed usable code parameter
      (argumentCode ((field? usable parameter).map (readingOf setting code))) := by
  cases hfield : field? usable parameter with
  | some field =>
    obtain ⟨husable, hname⟩ := mem_of_field? hfield
    exact .decoded husable hname
  | none =>
    have hnone : ¬ HasField usable parameter := mt isSome_field?_iff.2 (by simp [hfield])
    exact .leftOut (eq_true_of_ne_false fun hrequired => h ⟨hrequired, hnone⟩) hnone

/-- What is decided does what a factory is to do. -/
private theorem constructs_planned (hcode : ∀ field ∈ usable, code field ≠ "undefined")
    (h : ∀ parameter ∈ setting.model.parameters, ¬ IsMissing usable parameter) :
    Constructs setting usable code (planned setting usable code) := by
  have hmem (name : Text) : name ∈ (planned setting usable code).consumed ↔
      ∃ field ∈ usable, field.name = name ∧
        (IsTaken setting.model field ∨ IsAssigned setting.model field) := by
    simp only [planned, mem_consumedBy_iff, List.mem_filter, decide_eq_true_eq, and_or_left,
      exists_or, and_assoc]
    simp only [and_comm (a := IsAssigned _ _)]
  constructor
  case render_eq =>
    obtain ⟨taken, left, hparameters, hdropped, hleft, hlast⟩ :=
      exists_taken setting hcode setting.model.parameters
    have hpassed : List.Forall₂ (IsPassed usable code) taken
        ((argumentsOf setting usable code taken).map argumentCode) := by
      rw [argumentsOf, List.map_map, List.forall₂_map_right_iff, List.forall₂_same]
      intro parameter hparameter
      rw [Function.comp_apply]
      exact isPassed_argument (h parameter (hparameters ▸ List.mem_append_left left hparameter))
    refine ⟨_, ⟨taken, left, hparameters, hpassed, hleft, hlast⟩, ?_⟩
    -- the line that checks the keys, if the class asks for it
    have hchecks : (planned setting usable code).factory.admitted.toList.map (fun keys =>
        ("  " : Text) ++ checkKeysName ++ "(json, [" ++ Text.join ", " (keys.map Text.quote) ++ "]);") =
          checkLines setting (planned setting usable code).consumed := by
      simp only [planned, checkLines]
      split <;> rfl
    simp only [render, Factory.body, constructionLines, hchecks]
    simp only [planned, hdropped, List.isEmpty_map, List.map_map]
    rfl
  case consumed_nodup => exact distinct_nodup _
  case mem_consumed_iff => exact hmem
  case not_consumed =>
    intro field hfield hnot
    have hneither : ¬ (IsTaken setting.model field ∨ IsAssigned setting.model field) :=
      fun hused => hnot ((hmem field.name).2 ⟨field, hfield, rfl, hused⟩)
    rw [not_or] at hneither
    refine ⟨hneither.1, ?_⟩
    by_cases hfinal : field.isFinal = true
    · exact .inl hfinal
    · exact .inr (by simpa [IsAssigned, hneither.1, hfinal] using hneither.2)

/-- A factory passes the decodings of the fields that the constructor takes and assigns the others
that can be, unless a required parameter has no usable field. -/
theorem plan_settles (hcustoms : setting.customs = [])
    (hnames : (setting.model.fields.map Field.name).Nodup)
    (husable : usable.Sublist setting.model.fields)
    (hdecoding : ∀ field ∈ usable, decoding setting field = .ok (code field))
    (reason? : Text → Option Text) (items : List Fragment) :
    Settles setting usable code reason? ((plan setting usable reason?).outcome items).1 := by
  have hunique : (usable.map Field.name).Nodup := hnames.sublist (husable.map Field.name)
  have hread : ∀ field ∈ usable, (read setting field).HasResult (.ok (readingOf setting code field)) :=
    fun field hfield => (read_hasResult hcustoms (hdecoding field hfield)).1
  have hcode : ∀ field ∈ usable, code field ≠ "undefined" :=
    fun field hfield => (read_hasResult hcustoms (hdecoding field hfield)).2
  cases hfirst : setting.model.parameters.find? fun parameter => decide (IsMissing usable parameter) with
  | some parameter =>
    -- the first missing parameter ends the plan, whatever comes behind it
    obtain ⟨hmissing, before, behind, hparameters, hbefore⟩ := List.find?_eq_some_iff_append.1 hfirst
    have hmissing : IsMissing usable parameter := of_decide_eq_true hmissing
    have hbefore : ∀ other ∈ before, ¬ IsMissing usable other := by simpa using hbefore
    have hresult : (readArguments setting usable reason? setting.model.parameters).HasResult
        (.error (missing setting parameter.name (reason? parameter.name))) :=
      hparameters ▸ readArguments_of_isMissing hunique hread hbefore hmissing
    rw [plan, hasResult_bind_error hresult items]
    exact {
      error_iff := ⟨fun _ => ⟨parameter, hparameters ▸ by simp, hmissing⟩, fun _ => ⟨_, rfl⟩⟩
      of_error := by
        rintro _ ⟨⟩
        exact ⟨before, parameter, behind, hparameters, hmissing, hbefore, rfl⟩
      of_ok := by simp }
  | none =>
    have hnone : ∀ parameter ∈ setting.model.parameters, ¬ IsMissing usable parameter := by
      simpa using List.find?_eq_none.1 hfirst
    rw [plan_hasResult hunique hread hnone items]
    exact {
      error_iff :=
      ⟨fun ⟨_, herror⟩ => (nomatch herror), fun ⟨parameter, hmem, h⟩ => absurd h (hnone parameter hmem)⟩
      of_error := by simp
      of_ok := by
        rintro _ ⟨⟩
        exact constructs_planned hcode hnone }

/-- A skipped optional parameter in the middle, one at the end, and a field that is assigned. -/
theorem plan_settles_box :
    let fields : List Field := [⟨"a", "number", false, false, true, true⟩,
      ⟨"b", "Date | null", false, true, true, true⟩, ⟨"c", "string[]", false, false, true, true⟩]
    let model : ClassModel :=
      ⟨"Box", fields, [⟨"a", false⟩, ⟨"x", true⟩, ⟨"b", true⟩, ⟨"y", true⟩], [], none⟩
    let config : Config := ⟨true, true, false, false, false, false, true, false, .none, []⟩
    let setting : ClassSetting := ⟨model, config, [], []⟩
    let code (field : Field) : Text := (decoding setting field).toOption.getD []
    (fields.map Field.name).Nodup ∧ (∀ field ∈ fields, decoding setting field = .ok (code field)) ∧
      Settles setting fields code (fun _ => none) ((plan setting fields fun _ => none).outcome []).1 ∧
      (((plan setting fields fun _ => none).outcome []).1.toOption.map fun plan =>
        plan.factory.body) = some ([ "  const instance = new Box(Number(json[\"a\"]), undefined, " ++
          "json[\"b\"] == null ? null : new Date(json[\"b\"]));",
        "  instance.c = json[\"c\"].map((e) => String(e));",
        "  return instance;"] : List Text) := by
  intro fields model config setting code
  have hnames : (fields.map Field.name).Nodup := by decide
  have hdecodes : ∀ field ∈ fields, (decoding setting field).toOption.isSome = true := by decide +kernel
  have hdecoding : ∀ field ∈ fields, decoding setting field = .ok (code field) := by
    intro field hfield
    have hsome := hdecodes field hfield
    cases hresult : decoding setting field with
    | error failure => simp [hresult, Except.toOption] at hsome
    | ok written => simp [code, hresult, Except.toOption]
  exact ⟨hnames, hdecoding,
    plan_settles rfl hnames (List.Sublist.refl fields) hdecoding _ [], by decide +kernel⟩

end JsonCompanion.Emit.Factory
