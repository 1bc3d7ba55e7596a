import JsonCompanion.Compose.ClassOutput
import JsonCompanion.Proofs.Emit.Factory

/-!
# The code of a class

* `Role` lists the kinds of declarations in companions, `Role.nameFor` gives their names, and
  `Config.roles` lists those that the options of a class ask for.
* `ClassOutput.IsFor` says what the code of a class consists of: its own declarations, named for the
  roles that the options ask for, and the supporting code that its factory requests.
* `generate_isFor`: the code that is generated for a class is of that kind.
-/

namespace JsonCompanion

open Emit Collecting

/-! ### Roles -/

/-- What a declaration of a companion is for. -/
inductive Emit.Role
  | factory
  | encoder
  | keyTable
  | encoderTable
  | valueTable
  deriving DecidableEq

/-- What the name of a declaration ends with. -/
def Emit.Role.suffix : Role → Text
  | .factory => "FromJson"
  | .encoder => "ToJson"
  | .keyTable => "FieldMap"
  | .encoderTable => "PerFieldToJson"
  | .valueTable => "EnumValues"

/-- The name of a declaration for a class or an enumeration. -/
def Emit.Role.nameFor (role : Role) (element : Text) : Text := element.lowerFirst ++ role.suffix

/-- The roles of the declarations that the options of a class ask for, in order. -/
def Config.roles (config : Config) : List Role :=
  (if config.createFactory then [.factory] else []) ++
    (if config.createToJson then [.encoder] else []) ++
    ((if config.createFieldMap then [.keyTable] else []) ++
      if config.createPerFieldToJson then [.encoderTable] else [])

/-! ### Parts -/

namespace ClassOutput

/-- The declarations of a class without the supporting code. -/
def own (output : ClassOutput) : List Fragment :=
  output.factory.toList.map Factory.render ++ output.encoder.toList.map Encoder.render ++ output.tables

theorem fragments_eq (output : ClassOutput) : output.fragments = output.own ++ output.requested := rfl

/-- A fragment is a function that other modules can import, or a table of entries. -/
def IsOwn : Fragment → Prop
  | .function isExported _ _ _ => isExported = true
  | .constant name value => ∃ entries, Fragment.constant name value = constantTable name entries

/-- What the code of a class consists of. -/
structure IsFor (setting : ClassSetting) (output : ClassOutput) : Prop where
  names : output.own.map Fragment.name = setting.config.roles.map (Role.nameFor · setting.model.name)
  forms : ∀ fragment ∈ output.own, IsOwn fragment
  factory_isSome : output.factory.isSome = setting.config.createFactory
  requested_iff : ∀ fragment, fragment ∈ output.requested ↔ ∃ factory ∈ output.factory,
    (∃ reading ∈ factory.readings, reading.Asks setting fragment) ∨
      setting.config.disallowUnrecognizedKeys = true ∧ fragment = checkKeys

variable {setting : ClassSetting}

section

variable (hcustoms : setting.customs = []) (hunique : (setting.enums.map EnumModel.name).Nodup)

include hcustoms hunique

private theorem factory?_leaves (selection : Selection) :
    (factory? setting selection).Leaves fun plan? left =>
    plan?.isSome = setting.config.createFactory ∧
      (∀ plan ∈ plan?, plan.factory.className = setting.model.name) ∧
      ∀ fragment, fragment ∈ left ↔ ∃ plan ∈ plan?,
        (∃ reading ∈ plan.factory.readings, reading.Asks setting fragment) ∨
          setting.config.disallowUnrecognizedKeys = true ∧ fragment = checkKeys := by
  unfold factory?
  split
  · rename_i hcreate
    refine leaves_map (Factory.plan_leaves hcustoms hunique _ _) fun plan left hleft => ?_
    exact ⟨hcreate.symm, by simpa using hleft.1, by simpa using hleft.2⟩
  · rename_i hcreate
    exact leaves_pure ⟨by simpa using hcreate, by simp, by simp⟩

/-- Encoding requests nothing. -/
private theorem fieldCode_leaves (field : Field) (expression : Text) :
    (Encoder.fieldCode setting field expression).Leaves fun _ left => left = [] := by
  have hrequests : ∀ type, Requests (convert (setting.conversion field.name) .encode type)
      (Asks setting.enums .encode type) := convert_requests hcustoms hunique
  unfold Encoder.fieldCode
  refine leaves_ofAttempt_bind fun type _ => (hrequests type expression).imp fun written left hleft => ?_
  refine List.eq_nil_iff_forall_not_mem.2 fun fragment hmem => ?_
  obtain ⟨hdirection, -⟩ := (hleft.2 fragment).1 hmem
  cases hdirection

private theorem writesOf_leaves (fields : List Field) :
    (Encoder.writesOf setting fields).Leaves fun _ left => left = [] := by
  induction fields with
  | nil => exact leaves_pure rfl
  | cons field fields ih =>
    have hwrite : (Encoder.write setting field).Leaves fun _ left => left = [] := by
      unfold Encoder.write
      refine leaves_bind (fieldCode_leaves hcustoms hunique field _) ?_
      rintro value _ rfl
      exact leaves_ofAttempt_bind fun tests _ => leaves_pure rfl
    unfold Encoder.writesOf
    refine leaves_bind hwrite ?_
    rintro first _ rfl
    refine leaves_bind ih ?_
    rintro writes _ rfl
    exact leaves_pure rfl

private theorem encoder?_leaves (fields : List Field) :
    (encoder? setting fields).Leaves fun encoder? left =>
    left = [] ∧ encoder?.isSome = setting.config.createToJson ∧
      ∀ encoder ∈ encoder?, encoder.className = setting.model.name := by
  unfold encoder?
  split
  · rename_i hcreate
    have hplan : (Encoder.plan setting fields).Leaves fun encoder left =>
        left = [] ∧ encoder.className = setting.model.name := by
      unfold Encoder.plan
      refine leaves_bind (writesOf_leaves hcustoms hunique fields) ?_
      rintro writes _ rfl
      exact leaves_pure ⟨rfl, rfl⟩
    refine leaves_map hplan fun encoder left hleft => ?_
    exact ⟨hleft.1, hcreate.symm, by simpa using hleft.2⟩
  · rename_i hcreate
    exact leaves_pure ⟨rfl, by simpa using hcreate, by simp⟩

private theorem encoderEntries_leaves (parameters : Text) (fields : List Field) :
    (encoderEntries setting parameters fields).Leaves fun _ left => left = [] := by
  induction fields with
  | nil => exact leaves_pure rfl
  | cons field fields ih =>
    unfold encoderEntries
    refine leaves_bind (fieldCode_leaves hcustoms hunique field _) ?_
    rintro code _ rfl
    refine leaves_bind ih ?_
    rintro entries _ rfl
    exact leaves_pure rfl

private theorem tablesOf_leaves (fields : List Field) :
    (tablesOf setting fields).Leaves fun tables left =>
    left = [] ∧ (∀ table ∈ tables, IsOwn table) ∧
      tables.map Fragment.name = ((if setting.config.createFieldMap then [Role.keyTable] else []) ++
        if setting.config.createPerFieldToJson then [Role.encoderTable] else []).map
          (Role.nameFor · setting.model.name) := by
  have hkeys : ∀ table ∈ (if setting.config.createFieldMap then [fieldMap setting fields] else []),
      IsOwn table := by
    intro table htable
    split at htable
    · obtain rfl := List.mem_singleton.1 htable
      exact ⟨_, rfl⟩
    · cases htable
  unfold tablesOf
  dsimp only
  split
  · unfold perFieldToJson
    refine leaves_bind (P := fun table left => left = [] ∧ ∃ entries, table = constantTable
      (perFieldToJsonName setting.model.name) entries) ?_ ?_
    · refine leaves_bind (encoderEntries_leaves hcustoms hunique _ fields) ?_
      rintro entries _ rfl
      exact leaves_pure ⟨rfl, entries, rfl⟩
    · rintro _ _ ⟨rfl, entries, rfl⟩
      refine leaves_pure ⟨rfl, ?_, ?_⟩
      · exact List.forall_mem_append.2 ⟨hkeys, by simpa using ⟨entries, rfl⟩⟩
      · cases setting.config.createFieldMap <;> rfl
  · refine leaves_pure ⟨rfl, hkeys, ?_⟩
    cases setting.config.createFieldMap <;> rfl

private theorem parts_leaves : (parts setting).Leaves fun (factory, encoder, tables) left =>
    IsFor setting ⟨factory, encoder, tables, left⟩ := by
  unfold parts
  -- only the factory requests something, what follows it leaves nothing behind
  refine leaves_bind (factory?_leaves hcustoms hunique _) ?_
  rintro plan? requested ⟨hcreate, hname, hrequested⟩
  refine leaves_ofAttempt_bind fun fields _ => ?_
  refine leaves_bind (encoder?_leaves hcustoms hunique fields) ?_
  rintro encoder? _ ⟨rfl, hencoder, hencoderName⟩
  refine leaves_bind (tablesOf_leaves hcustoms hunique fields) ?_
  rintro tables _ ⟨rfl, htables, htableNames⟩
  have hfactoryNames : ((plan?.map Factory.Plan.factory).toList.map Factory.render).map Fragment.name =
      (if setting.config.createFactory then [Role.factory] else []).map
        (Role.nameFor · setting.model.name) := by
    rw [← hcreate]
    cases plan? with
    | none => rfl
    | some plan => exact congrArg (fun name => [Role.nameFor .factory name]) (hname plan rfl)
  have hencoderNames : (encoder?.toList.map Encoder.render).map Fragment.name =
      (if setting.config.createToJson then [Role.encoder] else []).map
        (Role.nameFor · setting.model.name) := by
    rw [← hencoder]
    cases encoder? with
    | none => rfl
    | some encoder =>
        exact congrArg (fun name => [Role.nameFor .encoder name]) (hencoderName encoder rfl)
  refine leaves_pure ⟨?_, ?_, ?_, ?_⟩
  · simp only [own, Config.roles, List.map_append, hfactoryNames, hencoderNames, htableNames]
  · intro fragment hmem
    rcases List.mem_append.1 hmem with hmem | hmem
    · rcases List.mem_append.1 hmem with hmem | hmem
      · obtain ⟨factory, -, rfl⟩ := List.mem_map.1 hmem
        exact rfl
      · obtain ⟨encoder, -, rfl⟩ := List.mem_map.1 hmem
        exact rfl
    · exact htables fragment hmem
  · rw [Option.isSome_map, hcreate]
  · intro fragment
    simp [hrequested]

/-- The code that is generated for a class consists of its own declarations and of what its factory
requests. -/
theorem generate_isFor {output : ClassOutput} (h : generate setting = .ok output) :
    IsFor setting output := by
  unfold generate at h
  split at h
  · rename_i factory encoder tables requested hparts
    obtain rfl := Except.ok.inj h
    obtain ⟨left, hleft, hisFor⟩ := parts_leaves hcustoms hunique _ _ _ hparts
    rw [List.nil_append] at hleft
    exact hleft ▸ hisFor
  · cases h

end

end ClassOutput

end JsonCompanion
