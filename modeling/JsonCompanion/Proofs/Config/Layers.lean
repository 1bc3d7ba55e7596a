import JsonCompanion.Config.Merge
import JsonCompanion.Proofs.Config.Schema

/-!
# Layers of options

Which payloads are merged, which fault of the others is told, and what a merged configuration holds.

* `switches` lists the switches of a configuration with the values that they can be set to and their
  built-in ones.
* `IsDefaults`, `IsClassOptions` and `AreOverrides` say what may be given for all classes, for a
  class and for its fields; `FirstFault` names the element of the first fault otherwise.
* `overlaid` is one layer that sets what two layers set together.
* `Config.merge_settles`: payloads are merged exactly if there is no fault, and every switch then
  has the value of the closest layer that sets it.
-/

namespace JsonCompanion

/-! ### Switches -/

/-- A switch of a configuration: its name, the values that it can be set to, the value that it has
if it is not set, and the one that it has in a configuration. -/
structure Switch where
  name : Text
  IsSetting : Value → Prop
  builtIn : Value
  setting : Config → Value

namespace Switch

/-- A switch that is on or off. -/
def flag (name : Text) (builtIn : Bool) (setting : Config → Bool) : Switch where
  name := name
  IsSetting := Value.IsFlag
  builtIn := .bool builtIn
  setting config := .bool (setting config)

/-- The switch for the names of keys. -/
def rename : Switch where
  name := "fieldRename"
  IsSetting value := ∃ strategy : RenameStrategy, value = .string strategy.name
  builtIn := .string RenameStrategy.none.name
  setting config := .string config.fieldRename.name

end Switch

/-- All switches of a configuration. -/
def switches : List Switch := [
  .flag "createFactory" true Config.createFactory,
  .flag "createToJson" true Config.createToJson,
  .flag "createFieldMap" false Config.createFieldMap,
  .flag "createPerFieldToJson" false Config.createPerFieldToJson,
  .flag "genericArgumentFactories" false Config.genericArgumentFactories,
  .flag "disallowUnrecognizedKeys" false Config.disallowUnrecognizedKeys,
  .flag "includeIfNull" true Config.includeIfNull,
  .flag "ignoreUnannotated" false Config.ignoreUnannotated,
  .rename]

/-! ### Payloads -/

/-- Options of a class, or of all classes: an object of switches. -/
def IsLayer (payload : Value) : Prop :=
  Matches (switches.map fun switch => (switch.name, switch.IsSetting)) payload

/-- What may be given for all classes; nothing stands for no options. -/
def IsDefaults (payload : Value) : Prop := payload = .undefined ∨ payload = .null ∨ IsLayer payload

/-- What may be given for a class; `true` and nothing stand for no options. -/
def IsClassOptions (payload : Value) : Prop :=
  payload = .bool true ∨ payload = .undefined ∨ payload = .null ∨ IsLayer payload

/-- The options of a field. -/
def overrideKinds : List Kind := [
  ("name", fun value => ∃ t, value = .string t ∧ t ≠ []),
  ("includeFromJson", Value.IsFlag),
  ("includeToJson", Value.IsFlag),
  ("includeIfNull", Value.IsFlag),
  ("defaultValue", fun _ => True),
  ("omitIfDefault", Value.IsFlag)]

/-- What may be given for a field of a name. -/
structure IsOverride (target : MergeTarget) (name : Text) (payload : Value) : Prop where
  declared : ∀ known ∈ target.fieldNames, name ∈ known
  isOptions : Matches overrideKinds payload
  /-- A default that is to be left out is set, and no object. -/
  comparable : payload.property "omitIfDefault" = .bool true →
    payload.property "defaultValue" ≠ .undefined ∧ (payload.property "defaultValue").isRecord = false

/-- What may be given for the fields of a class. -/
def AreOverrides (target : MergeTarget) (payload : Value) : Prop :=
  payload = .undefined ∨ payload = .null ∨
    ∃ properties, payload = .object properties ∧ ∀ entry ∈ properties, IsOverride target entry.1 entry.2

/-- The element of the first fault: that of all classes comes first, then that of the class, then
those of the fields in the order of their names. -/
inductive FirstFault (target : MergeTarget) (defaults options fields : Value) : Text → Prop
  | defaults (h : ¬ IsDefaults defaults) : FirstFault target defaults options fields "defaults"
  | options (hdefaults : IsDefaults defaults) (h : ¬ IsClassOptions options) :
    FirstFault target defaults options fields target.className
  | fields (hdefaults : IsDefaults defaults) (hoptions : IsClassOptions options)
      (hundefined : fields ≠ .undefined)
    (hnull : fields ≠ .null) (hobject : fields.isPlainObject = false) :
    FirstFault target defaults options fields target.className
  | field (hdefaults : IsDefaults defaults) (hoptions : IsClassOptions options)
      {before behind : Record} {name : Text}
    {payload : Value} (hfields : fields = .object (before ++ (name, payload) :: behind))
    (hbefore : ∀ entry ∈ before, IsOverride target entry.1 entry.2)
      (h : ¬ IsOverride target name payload) :
    FirstFault target defaults options fields (target.className ++ "." ++ name)

/-- The first value that is set. -/
def firstSet (values : List Value) : Value :=
  (values.find? fun value => !value.isUndefined).getD .undefined

/-- One layer for two: what the own one sets, and otherwise what the shared one does. -/
def overlaid (shared own : Value) : Value :=
  .object (switches.filterMap fun switch =>
    let setting := firstSet [own.property switch.name, shared.property switch.name]
    if setting.isUndefined then none else some (switch.name, setting))

namespace Config

variable {target : MergeTarget} {defaults options fields payload : Value} {config : Config}

/-! ### One layer -/

private theorem describe_switches : Schema.Describe
    ((switchNames.map fun name => (name, Schema.optional .bool)) ++ [renameProperty])
    (switches.map fun switch => (switch.name, switch.IsSetting)) := by
  have hrename : Schema.Describes (.optional renameSchema) Switch.rename.IsSetting := by
    have hnames (value : Value) : (∃ t ∈ RenameStrategy.all.map RenameStrategy.name, value = .string t) ↔
        Switch.rename.IsSetting value := by
      constructor
      · rintro ⟨t, ht, rfl⟩
        obtain ⟨strategy, -, rfl⟩ := List.mem_map.1 ht
        exact ⟨strategy, rfl⟩
      · rintro ⟨strategy, rfl⟩
        refine ⟨strategy.name, List.mem_map_of_mem ?_, rfl⟩
        cases strategy <;> decide
    have hchoice := Schema.describes_choice (RenameStrategy.all.map RenameStrategy.name)
    exact ⟨fun value h => hchoice.accepts value (h.imp_right (hnames value).2),
      fun value h => hchoice.refuses value (mt (Or.imp_right (hnames value).1) h)⟩
  have hflag (name : Text) (builtIn : Bool) (setting : Config → Bool) :
      (name, Schema.optional .bool).1 = (name, (Switch.flag name builtIn setting).IsSetting).1 ∧
        Schema.Describes (.optional .bool) (Switch.flag name builtIn setting).IsSetting :=
          ⟨rfl, Schema.describes_flag⟩
  exact .cons (hflag ..)
    (.cons (hflag ..) (.cons (hflag ..) (.cons (hflag ..) (.cons (hflag ..) (.cons (hflag ..)
    (.cons (hflag ..) (.cons (hflag ..) (.cons ⟨rfl, hrename⟩ .nil))))))))

private theorem readSwitches_decides (element : Text) (payload : Value) :
    Attempt.Decides (readSwitches element payload) (IsLayer payload) element fun layer =>
      ∀ name, layer.properties.get name = payload.property name := by
  have hthen : ∀ kind ∈ switches.map fun switch => (switch.name, switch.IsSetting),
      kind.1 ≠ ("then" : Text) := by
    rw [List.forall_mem_map]
    decide
  unfold readSwitches
  rcases Schema.validate_decides describe_switches (by decide) hthen element payload with
    ⟨hlayer, _, hvalid, accepted, rfl, hget⟩ | ⟨hlayer, message, hvalid⟩
  · rw [switchesSchema, hvalid]
    exact .inl ⟨hlayer, ⟨accepted⟩, rfl, hget⟩
  · rw [switchesSchema, hvalid]
    exact .inr ⟨hlayer, message, rfl⟩

private theorem isLayer_nil : IsLayer (.object []) := by
  refine ⟨trivial, fun key hkey => absurd hkey List.not_mem_nil, fun kind _ => .inl rfl⟩

/-- A layer that is left out is one without options. -/
private theorem decides_leftOut (element : Text)
    (hproperty : ∀ name, payload.property name = .undefined) :
    Attempt.Decides (readSwitches element (.object [])) True element fun layer =>
      ∀ name, layer.properties.get name = payload.property name := by
  rcases readSwitches_decides element (.object []) with ⟨-, layer, hread, hget⟩ | ⟨hno, -⟩
  · refine .inl ⟨trivial, layer, hread, fun name => ?_⟩
    rw [hget, hproperty]
    rfl
  · exact absurd isLayer_nil hno

private theorem globalLayer_decides (element : Text) (payload : Value) :
    Attempt.Decides (readSwitches element (globalLayer payload)) (IsDefaults payload) element
      fun layer =>
      ∀ name, layer.properties.get name = payload.property name := by
  by_cases hundefined : payload = .undefined
  · subst hundefined
    exact (decides_leftOut element fun _ => rfl).congr ⟨fun _ => .inl rfl, fun _ => trivial⟩
  · by_cases hnull : payload = .null
    · subst hnull
      exact (decides_leftOut element fun _ => rfl).congr ⟨fun _ => .inr (.inl rfl), fun _ => trivial⟩
    · have hlayer : globalLayer payload = payload := by
        cases payload with
        | undefined => exact absurd rfl hundefined
        | null => exact absurd rfl hnull
        | _ => rfl
      rw [hlayer]
      exact (readSwitches_decides element payload).congr
        (by simp only [IsDefaults, hundefined, hnull, false_or])

private theorem classLayer_decides (element : Text) (payload : Value) :
    Attempt.Decides (readSwitches element (classLayer payload)) (IsClassOptions payload) element
      fun layer =>
      ∀ name, layer.properties.get name = payload.property name := by
  by_cases htrue : payload = .bool true
  · subst htrue
    exact (decides_leftOut element fun _ => rfl).congr ⟨fun _ => .inl rfl, fun _ => trivial⟩
  · have hlayer : classLayer payload = globalLayer payload := by
      unfold classLayer
      split
      · exact absurd rfl htrue
      · rfl
    rw [hlayer]
    exact (globalLayer_decides element payload).congr
      (by simp only [IsDefaults, IsClassOptions, htrue, false_or])

private theorem IsLayer.typed (h : IsLayer payload) {switch : Switch} (hswitch : switch ∈ switches) :
    payload.property switch.name = .undefined ∨ switch.IsSetting (payload.property switch.name) :=
  h.typed (switch.name, switch.IsSetting) (List.mem_map_of_mem hswitch)

private theorem IsDefaults.typed (h : IsDefaults payload) {switch : Switch}
    (hswitch : switch ∈ switches) :
    payload.property switch.name = .undefined ∨ switch.IsSetting (payload.property switch.name) := by
  rcases h with rfl | rfl | h
  · exact .inl rfl
  · exact .inl rfl
  · exact IsLayer.typed h hswitch

private theorem IsClassOptions.typed (h : IsClassOptions payload) {switch : Switch}
    (hswitch : switch ∈ switches) :
    payload.property switch.name = .undefined ∨ switch.IsSetting (payload.property switch.name) := by
  rcases h with rfl | h
  · exact .inl rfl
  · exact IsDefaults.typed h hswitch

/-! ### Fields -/

private theorem describe_overrides : Schema.Describe [
    ("name", .optional (.text [.notEmpty])),
    ("includeFromJson", .optional .bool),
    ("includeToJson", .optional .bool),
    ("includeIfNull", .optional .bool),
    ("defaultValue", .optional .anything),
    ("omitIfDefault", .optional .bool)] overrideKinds :=
  .cons ⟨rfl, Schema.describes_name⟩
    (.cons ⟨rfl, Schema.describes_flag⟩ (.cons ⟨rfl, Schema.describes_flag⟩
    (.cons ⟨rfl, Schema.describes_flag⟩ (.cons ⟨rfl, Schema.describes_anything⟩
      (.cons ⟨rfl, Schema.describes_flag⟩ .nil)))))

private theorem checkOmission_decides (element : Text) (override : Override) :
    Attempt.Decides (checkOmission element override)
      (override.properties.get "omitIfDefault" = .bool true →
        override.defaultValue ≠ .undefined ∧ override.defaultValue.isRecord = false) element
      fun _ => True := by
  have homit : (override.flag? "omitIfDefault" == some true) = true ↔
      override.properties.get "omitIfDefault" = .bool true := by
    unfold Override.flag?
    cases override.properties.get "omitIfDefault" with
    | _ => simp
  unfold checkOmission
  by_cases hflag : (override.flag? "omitIfDefault" == some true) = true
  · have hset := homit.1 hflag
    rw [if_pos hflag]
    by_cases hundefined : override.defaultValue.isUndefined = true
    · rw [if_pos hundefined]
      refine .inr ⟨fun h => (h hset).1 ?_, _, rfl⟩
      cases hvalue : override.defaultValue with
      | undefined => rfl
      | _ => rw [hvalue] at hundefined; cases hundefined
    · rw [if_neg hundefined]
      by_cases hrecord : override.defaultValue.isRecord = true
      · rw [if_pos hrecord]
        exact .inr ⟨fun h => Bool.false_ne_true ((h hset).2.symm.trans hrecord), _, rfl⟩
      · rw [if_neg hrecord]
        refine .inl ⟨fun _ => ⟨fun heq => hundefined ?_, Bool.eq_false_iff.2 hrecord⟩, (), rfl, trivial⟩
        rw [heq]
        rfl
  · rw [if_neg hflag]
    exact .inl ⟨fun h => absurd (homit.2 h) hflag, (), rfl, trivial⟩

private theorem readOverride_decides (target : MergeTarget) (name : Text) (payload : Value) :
    Attempt.Decides (readOverride target name payload) (IsOverride target name payload)
      (target.className ++ "." ++ name)
      fun override => ∀ key, override.properties.get key = payload.property key := by
  unfold readOverride
  dsimp only
  generalize target.className ++ ("." : Text) ++ name = element
  -- in the order of the checks: the name of the field, the form of the payload, the omission
  by_cases hunknown : (target.fieldNames.any fun known => !known.contains name) = true
  · rw [if_pos hunknown]
    refine .inr ⟨fun h => ?_, _, rfl⟩
    obtain ⟨known, hknown, hno⟩ := (Option.any_eq_true _ _).1 hunknown
    simp [h.declared known hknown] at hno
  · rw [if_neg hunknown]
    have hdeclared : ∀ known ∈ target.fieldNames, name ∈ known := by
      intro known hknown
      by_contra hno
      exact hunknown ((Option.any_eq_true _ _).2 ⟨known, hknown, by simpa using hno⟩)
    have hthen : ∀ kind ∈ overrideKinds, kind.1 ≠ ("then" : Text) := by
      unfold overrideKinds
      simp only [List.forall_mem_cons]
      decide
    rcases Schema.validate_decides describe_overrides (by decide) hthen element payload with
      ⟨hoptions, _, hvalid, accepted, rfl, hget⟩ | ⟨hoptions, message, hvalid⟩
    · rw [overrideSchema, hvalid]
      have homission := checkOmission_decides element ⟨accepted⟩
      unfold Override.defaultValue at homission
      rw [hget, hget] at homission
      rcases homission with ⟨hcomparable, _, hcheck, -⟩ | ⟨hcomparable, message, hcheck⟩
      · refine .inl ⟨⟨hdeclared, hoptions, hcomparable⟩, ⟨accepted⟩, ?_, hget⟩
        show (checkOmission element ⟨accepted⟩ >>= fun _ => _) = _
        rw [hcheck]
        rfl
      · refine .inr ⟨fun h => hcomparable h.comparable, message, ?_⟩
        show (checkOmission element ⟨accepted⟩ >>= fun _ => _) = _
        rw [hcheck]
        rfl
    · rw [overrideSchema, hvalid]
      exact .inr ⟨fun h => hoptions h.isOptions, message, rfl⟩

/-- The name and the properties that are read of a field. -/
private abbrev IsRead (entry : Text × Value) (read : Text × Override) : Prop :=
  read.1 = entry.1 ∧ ∀ key, read.2.properties.get key = entry.2.property key

private theorem readOverrides_accepts {record : Record}
    (h : ∀ entry ∈ record, IsOverride target entry.1 entry.2) :
    ∃ list, readOverrides target record = .ok list ∧ List.Forall₂ IsRead record list := by
  induction record with
  | nil => exact ⟨[], rfl, .nil⟩
  | cons entry record ih =>
    obtain ⟨name, payload⟩ := entry
    obtain ⟨hfirst, hrest⟩ := List.forall_mem_cons.1 h
    obtain ⟨list, hlist, hreads⟩ := ih hrest
    rcases readOverride_decides target name payload with ⟨-, override, hoverride, hget⟩ | ⟨hno, -⟩
    · refine ⟨(name, override) :: list, ?_, .cons ⟨rfl, hget⟩ hreads⟩
      rw [readOverrides, hoverride, hlist]
      rfl
    · exact absurd hfirst hno

private theorem readOverrides_refuses {before behind : Record} {name : Text}
    (hbefore : ∀ entry ∈ before, IsOverride target entry.1 entry.2)
    (h : ¬ IsOverride target name payload) :
    ∃ message, readOverrides target (before ++ (name, payload) :: behind) =
      .error (.configuration message (some (target.className ++ "." ++ name))) := by
  induction before with
  | nil =>
    rcases readOverride_decides target name payload with ⟨hyes, -⟩ | ⟨-, message, hrefused⟩
    · exact absurd hyes h
    · refine ⟨message, ?_⟩
      rw [List.nil_append, readOverrides, hrefused]
      rfl
  | cons entry before ih =>
    obtain ⟨known, given⟩ := entry
    obtain ⟨hfirst, hrest⟩ := List.forall_mem_cons.1 hbefore
    obtain ⟨message, hrefused⟩ := ih hrest
    rcases readOverride_decides target known given with ⟨-, override, hoverride, -⟩ | ⟨hno, -⟩
    · refine ⟨message, ?_⟩
      rw [List.cons_append, readOverrides, hoverride, hrefused]
      rfl
    · exact absurd hfirst hno

private theorem readFields_accepts (h : AreOverrides target fields) :
    ∃ record list, readFields target fields = .ok list ∧ List.Forall₂ IsRead record list ∧
      (∀ entry ∈ record, IsOverride target entry.1 entry.2) ∧ ∀ name,
        fields.property name = Record.get record name := by
  rcases h with rfl | rfl | ⟨record, rfl, hrecord⟩
  · exact ⟨[], [], rfl, .nil, by simp, fun _ => rfl⟩
  · exact ⟨[], [], rfl, .nil, by simp, fun _ => rfl⟩
  · obtain ⟨list, hlist, hreads⟩ := readOverrides_accepts hrecord
    exact ⟨record, list, hlist, hreads, hrecord, fun _ => rfl⟩

/-! ### Values of switches -/

theorem firstSet_undefined (values : List Value) :
    firstSet (.undefined :: values) = firstSet values := rfl

theorem firstSet_set {value : Value} (h : value ≠ .undefined) (values : List Value) :
    firstSet (value :: values) = value := by
  cases value with
  | undefined => exact absurd rfl h
  | _ => rfl

/-- An option that is read of a value: none of what is not set. -/
private def IsReading {α : Type} (write : α → Value) (value : Value) (option : Option α) : Prop :=
  (value = .undefined ∧ option = none) ∨ ∃ a, value = write a ∧ write a ≠ .undefined ∧ option = some a

/-- An option overlays what the values behind it set. -/
private theorem IsReading.getD {α : Type} {write : α → Value} {value : Value} {option : Option α}
    (h : IsReading write value option) {a : α} {values : List Value}
    (hbehind : write a = firstSet values) :
    write (option.getD a) = firstSet (value :: values) := by
  rcases h with ⟨rfl, rfl⟩ | ⟨b, rfl, hset, rfl⟩
  · rw [firstSet_undefined]
    exact hbehind
  · rw [firstSet_set hset]
    rfl

private theorem IsReading.layered {α : Type} {write : α → Value} {first second : Value}
    {own shared : Option α} (hown : IsReading write first own)
    (hshared : IsReading write second shared) {builtIn : α} (hbuiltIn : write builtIn ≠ .undefined) :
    write (layered own shared builtIn) = firstSet [first, second, write builtIn] := by
  rw [Config.layered, Option.getD_or]
  exact hown.getD (hshared.getD (firstSet_set hbuiltIn []).symm)

private theorem isReading_flag (layer : Switches) {name : Text}
    (h : layer.properties.get name = .undefined ∨ (layer.properties.get name).IsFlag) :
    IsReading Value.bool (layer.properties.get name) (layer.flag? name) := by
  unfold Switches.flag?
  rcases h with hset | ⟨b, hset⟩
  · rw [hset]
    exact .inl ⟨rfl, rfl⟩
  · rw [hset]
    exact .inr ⟨b, rfl, Value.noConfusion, rfl⟩

private theorem isReading_rename {layer : Switches}
    (h : layer.properties.get Switch.rename.name = .undefined ∨
      Switch.rename.IsSetting (layer.properties.get Switch.rename.name)) :
    IsReading (fun strategy : RenameStrategy => .string strategy.name)
      (layer.properties.get Switch.rename.name)
      layer.rename? := by
  have hname : Switch.rename.name = ("fieldRename" : Text) := rfl
  unfold Switches.rename?
  rw [hname] at h ⊢
  rcases h with hset | ⟨strategy, hset⟩
  · rw [hset]
    exact .inl ⟨rfl, rfl⟩
  · rw [hset]
    refine .inr ⟨strategy, rfl, Value.noConfusion, ?_⟩
    cases strategy <;> decide

/-! ### All layers -/

private theorem exists_layers (target : MergeTarget) (hdefaults : IsDefaults defaults)
    (hoptions : IsClassOptions options) :
    ∃ shared own, readSwitches "defaults" (globalLayer defaults) = .ok shared ∧
      readSwitches target.className (classLayer options) = .ok own ∧
      ∀ name, shared.properties.get name = defaults.property name ∧
        own.properties.get name = options.property name := by
  rcases globalLayer_decides "defaults" defaults with ⟨-, shared, hshared, hsharedGet⟩ | ⟨hno, -⟩
  case inr => exact absurd hdefaults hno
  rcases classLayer_decides target.className options with ⟨-, own, hown, hownGet⟩ | ⟨hno, -⟩
  case inr => exact absurd hoptions hno
  exact ⟨shared, own, hshared, hown, fun name => ⟨hsharedGet name, hownGet name⟩⟩

private theorem merge_accepts (target : MergeTarget) (hdefaults : IsDefaults defaults)
    (hoptions : IsClassOptions options) (hfields : AreOverrides target fields) :
    ∃ config, merge target defaults options fields = .ok config ∧
      readFields target fields = .ok config.fields ∧
      ∀ switch ∈ switches, switch.setting config =
        firstSet [options.property switch.name, defaults.property switch.name, switch.builtIn] := by
  obtain ⟨shared, own, hshared, hown, hget⟩ := exists_layers target hdefaults hoptions
  obtain ⟨-, list, hlist, -⟩ := readFields_accepts hfields
  unfold merge
  rw [hshared, hown, hlist]
  refine ⟨_, rfl, rfl, fun switch hswitch => ?_⟩
  have hfirst := IsClassOptions.typed hoptions hswitch
  have hsecond := IsDefaults.typed hdefaults hswitch
  rw [← (hget switch.name).2] at hfirst ⊢
  rw [← (hget switch.name).1] at hsecond ⊢
  simp only [switches, List.mem_cons, List.not_mem_nil, or_false] at hswitch
  -- eight flags, and then the switch for names
  rcases hswitch with rfl | rfl | rfl | rfl | rfl | rfl | rfl | rfl | rfl
  case inr.inr.inr.inr.inr.inr.inr.inr =>
    exact (isReading_rename hfirst).layered (isReading_rename hsecond) Value.noConfusion
  all_goals exact (isReading_flag own hfirst).layered (isReading_flag shared hsecond) Value.noConfusion

private theorem merge_refuses {element : Text} (h : FirstFault target defaults options fields element) :
    ∃ message, merge target defaults options fields =
      .error (.configuration message (some element)) := by
  unfold merge
  cases h with
  | defaults h =>
    rcases globalLayer_decides "defaults" defaults with ⟨hyes, -⟩ | ⟨-, message, hrefused⟩
    · exact absurd hyes h
    · rw [hrefused]
      exact ⟨message, rfl⟩
  | options hdefaults h =>
    rcases globalLayer_decides "defaults" defaults with ⟨-, shared, hshared, -⟩ | ⟨hno, -⟩
    case inr => exact absurd hdefaults hno
    rcases classLayer_decides target.className options with ⟨hyes, -⟩ | ⟨-, message, hrefused⟩
    · exact absurd hyes h
    · rw [hshared, hrefused]
      exact ⟨message, rfl⟩
  | fields hdefaults hoptions hundefined hnull hobject =>
    obtain ⟨shared, own, hshared, hown, -⟩ := exists_layers target hdefaults hoptions
    rw [hshared, hown]
    cases fields with
    | undefined => exact absurd rfl hundefined
    | null => exact absurd rfl hnull
    | object properties => cases hobject
    | _ => exact ⟨_, rfl⟩
  | field hdefaults hoptions hfields hbefore h =>
    obtain ⟨shared, own, hshared, hown, -⟩ := exists_layers target hdefaults hoptions
    obtain ⟨message, hrefused⟩ := readOverrides_refuses hbefore h
    rw [hshared, hown, hfields, readFields, hrefused]
    exact ⟨message, rfl⟩

/-- Payloads have a fault, unless they are merged. -/
private theorem exists_fault
    (h : ¬ (IsDefaults defaults ∧ IsClassOptions options ∧ AreOverrides target fields)) :
    ∃ element, FirstFault target defaults options fields element := by
  by_cases hdefaults : IsDefaults defaults
  case neg => exact ⟨_, .defaults hdefaults⟩
  by_cases hoptions : IsClassOptions options
  case neg => exact ⟨_, .options hdefaults hoptions⟩
  have hfields : ¬ AreOverrides target fields := fun hfields => h ⟨hdefaults, hoptions, hfields⟩
  unfold AreOverrides at hfields
  obtain ⟨hundefined, hnull, hobject⟩ : fields ≠ .undefined ∧ fields ≠ .null ∧ _ := by
    simpa only [not_or] using hfields
  cases fields with
  | object record =>
    have hrecord : ¬ ∀ entry ∈ record, IsOverride target entry.1 entry.2 :=
      fun hrecord => hobject ⟨record, rfl, hrecord⟩
    obtain ⟨before, ⟨name, payload⟩, behind, rfl, hbefore, hno⟩ := exists_first hrecord
    exact ⟨_, .field hdefaults hoptions rfl hbefore hno⟩
  | _ => exact ⟨_, .fields hdefaults hoptions hundefined hnull rfl⟩

/-! ### Options of fields -/

/-- Whether a field is included if it is `null` is read of its own options. -/
private theorem isReading_includeIfNull {record : Record} {list : List (Text × Override)}
    (hreads : List.Forall₂ IsRead record list)
    (hrecord : ∀ entry ∈ record, IsOverride target entry.1 entry.2) (name : Text) :
    IsReading Value.bool ((Record.get record name).property "includeIfNull")
      (((list.find? fun (known, _) => known == name).map Prod.snd).bind
        (Override.flag? · "includeIfNull")) := by
  induction hreads with
  | nil => exact .inl ⟨rfl, rfl⟩
  | @cons entry read record list hfirst _ ih =>
    obtain ⟨given, payload⟩ := entry
    obtain ⟨known, override⟩ := read
    obtain ⟨hsame, hget⟩ := hfirst
    obtain rfl : known = given := hsame
    obtain ⟨hoverride, hrest⟩ := List.forall_mem_cons.1 hrecord
    rw [Record.get_cons]
    by_cases hname : known = name
    · rw [if_pos hname, List.find?_cons_of_pos (by simpa using hname)]
      have htyped := hoverride.isOptions.typed ("includeIfNull", Value.IsFlag) (by simp [overrideKinds])
      rw [← hget] at htyped ⊢
      exact isReading_flag ⟨override.properties⟩ htyped
    · rw [if_neg hname, List.find?_cons_of_neg (by simpa using hname)]
      exact ih hrest

private theorem includeIfNull_key (hfields : AreOverrides target fields) {config : Config}
    (hread : readFields target fields = .ok config.fields) {values : List Value}
    (hvalues : .bool config.includeIfNull = firstSet values) (name : Text) :
    .bool (config.key name).includeIfNull =
      firstSet ((fields.property name).property "includeIfNull" :: values) := by
  obtain ⟨record, list, hlist, hreads, hrecord, hproperty⟩ := readFields_accepts hfields
  obtain rfl := Except.ok.inj (hread.symm.trans hlist)
  rw [hproperty]
  exact (isReading_includeIfNull hreads hrecord name).getD hvalues

/-! ### Two layers as one -/

/-- A configuration is what its switches are set to and the options of its fields. -/
private theorem ext_of_switches {config other : Config} (hfields : config.fields = other.fields)
    (hswitches : ∀ switch ∈ switches, switch.setting config = switch.setting other) :
    config = other := by
  have hname : ∀ first second : RenameStrategy, first.name = second.name → first = second := by
    intro first second
    cases first <;> cases second <;> decide
  simp only [switches, List.forall_mem_cons, Switch.flag, Switch.rename, Value.bool.injEq,
    Value.string.injEq] at hswitches
  obtain ⟨hfactory, htoJson, hfieldMap, hperField, hgeneric, hunrecognized, hnull, hunannotated,
    hrename, -⟩ := hswitches
  have hstrategy := hname _ _ hrename
  cases config
  cases other
  simp only [Config.mk.injEq]
  exact ⟨hfactory, htoJson, hfieldMap, hperField, hgeneric, hunrecognized, hnull, hunannotated,
    hstrategy, hfields⟩

variable {settings : List Switch} {value : Switch → Value}

/-- An object that lists what some switches are set to. -/
private theorem keys_settings {key : Text}
    (h : key ∈ Record.keys (settings.filterMap fun switch =>
      if (value switch).isUndefined then none else some (switch.name, value switch))) :
    key ∈ settings.map Switch.name := by
  obtain ⟨⟨_, setting⟩, hentry, rfl⟩ := List.mem_map.1 h
  obtain ⟨switch, hswitch, hset⟩ := List.mem_filterMap.1 hentry
  split at hset
  · cases hset
  · obtain ⟨rfl, -⟩ := Prod.mk.inj (Option.some.inj hset)
    exact List.mem_map_of_mem hswitch

private theorem get_settings (hnames : (settings.map Switch.name).Nodup) {switch : Switch}
    (hswitch : switch ∈ settings) :
    Record.get (settings.filterMap fun switch =>
      if (value switch).isUndefined then none else some (switch.name, value switch)) switch.name =
        value switch := by
  induction settings with
  | nil => cases hswitch
  | cons first settings ih =>
    obtain ⟨hfirst, hrest⟩ := List.nodup_cons.1 hnames
    rw [List.filterMap_cons]
    rcases List.mem_cons.1 hswitch with rfl | hmem
    · split
      · next hnone =>
        -- what is not set is left out, and reads as `undefined` all the same
        rw [Record.get_of_not_mem (mt keys_settings hfirst)]
        cases hvalue : value switch with
        | undefined => rfl
        | _ => simp [hvalue, Value.isUndefined] at hnone
      · next entry hsome =>
        split at hsome
        · cases hsome
        · obtain rfl := Option.some.inj hsome
          rw [Record.get_cons, if_pos rfl]
    · have hne : first.name ≠ switch.name := fun heq => hfirst (heq ▸ List.mem_map_of_mem hmem)
      split
      · exact ih hrest hmem
      · next entry hsome =>
        split at hsome
        · cases hsome
        · obtain rfl := Option.some.inj hsome
          rw [Record.get_cons, if_neg hne]
          exact ih hrest hmem

/-- What two layers set together. -/
private theorem overlaid_property (shared own : Value) {switch : Switch} (hswitch : switch ∈ switches) :
    (overlaid shared own).property switch.name =
      firstSet [own.property switch.name, shared.property switch.name] :=
  get_settings (by decide) hswitch

private theorem isLayer_overlaid (hdefaults : IsDefaults defaults) (hoptions : IsClassOptions options) :
    IsLayer (overlaid defaults options) := by
  refine ⟨trivial, fun key hkey => ?_, List.forall_mem_map.2 fun switch hswitch => ?_⟩
  · obtain ⟨switch, hswitch, rfl⟩ := List.mem_map.1 (keys_settings hkey)
    exact ⟨_, List.mem_map_of_mem hswitch, rfl⟩
  · rw [overlaid_property defaults options hswitch]
    by_cases hset : options.property switch.name = .undefined
    · rw [hset, firstSet_undefined]
      by_cases hshared : defaults.property switch.name = .undefined
      · exact .inl (by rw [hshared]; rfl)
      · rw [firstSet_set hshared]
        exact IsDefaults.typed hdefaults hswitch
    · rw [firstSet_set hset]
      exact IsClassOptions.typed hoptions hswitch

private theorem firstSet_firstSet (first second : Value) (values : List Value) :
    firstSet (firstSet [first, second] :: values) = firstSet (first :: second :: values) := by
  by_cases hfirst : first = .undefined
  · subst hfirst
    rw [firstSet_undefined, firstSet_undefined]
    by_cases hsecond : second = .undefined
    · subst hsecond
      rfl
    · rw [firstSet_set hsecond [], firstSet_set hsecond]
  · rw [firstSet_set hfirst, firstSet_set hfirst, firstSet_set hfirst]

private theorem merge_overlaid (h : merge target defaults options fields = .ok config)
    (hdefaults : IsDefaults defaults) (hoptions : IsClassOptions options)
    (hfields : AreOverrides target fields) :
    merge target .undefined (overlaid defaults options) fields = .ok config := by
  -- both configurations have the same switches and the same fields
  obtain ⟨_, hmerge, hread, hswitches⟩ := merge_accepts target hdefaults hoptions hfields
  obtain rfl := Except.ok.inj (h.symm.trans hmerge)
  obtain ⟨other, hother, hotherRead, hotherSwitches⟩ :=
    merge_accepts target (.inl rfl) (.inr (.inr (.inr (isLayer_overlaid hdefaults hoptions)))) hfields
  rw [hother, ext_of_switches (Except.ok.inj (hotherRead.symm.trans hread)) fun switch hswitch => ?_]
  rw [hotherSwitches switch hswitch, hswitches switch hswitch,
    overlaid_property defaults options hswitch]
  exact firstSet_firstSet _ _ [.undefined, switch.builtIn]

/-! ### Merging -/

/-- What is said of merging the options of all classes, of a class and of its fields. -/
structure Settles (target : MergeTarget) (defaults options fields : Value) : Prop where
  /-- Payloads are merged if each one has its form. -/
  accepted_iff : (∃ config, merge target defaults options fields = .ok config) ↔
    IsDefaults defaults ∧ IsClassOptions options ∧ AreOverrides target fields
  /-- Others are refused for the element of their first fault. -/
  refused_iff (element : Text) :
    (∃ message, merge target defaults options fields = .error (.configuration message (some element))) ↔
      FirstFault target defaults options fields element
  settled : (∃ config, merge target defaults options fields = .ok config) ∨
    ∃ message element,
      merge target defaults options fields = .error (.configuration message (some element))
  /-- The class sets a switch, or else all classes do, or it keeps its built-in value. -/
  switch_eq : ∀ config, merge target defaults options fields = .ok config → ∀ switch ∈ switches,
    switch.setting config =
      firstSet [options.property switch.name, defaults.property switch.name, switch.builtIn]
  /-- A field that is `null` is included as the field, the class or all classes say. -/
  includeIfNull_eq : ∀ config, merge target defaults options fields = .ok config → ∀ name,
    .bool (config.key name).includeIfNull = firstSet [(fields.property name).property "includeIfNull",
      options.property "includeIfNull", defaults.property "includeIfNull", .bool true]
  /-- One layer does for both. -/
  overlaid_eq : ∀ config, merge target defaults options fields = .ok config →
    merge target .undefined (overlaid defaults options) fields = .ok config

/-- Payloads are merged exactly if each has its form, with the value of the closest layer for each
switch. -/
theorem merge_settles (target : MergeTarget) (defaults options fields : Value) :
    Settles target defaults options fields := by
  -- all layers are accepted, or one of them has the first fault
  by_cases h : IsDefaults defaults ∧ IsClassOptions options ∧ AreOverrides target fields
  · obtain ⟨hdefaults, hoptions, hfields⟩ := h
    obtain ⟨config, hmerge, hread, hswitches⟩ := merge_accepts target hdefaults hoptions hfields
    have hswitch := hswitches (.flag "includeIfNull" true Config.includeIfNull) (by simp [switches])
    have hnull := includeIfNull_key hfields hread hswitch
    constructor
    case accepted_iff => exact ⟨fun _ => ⟨hdefaults, hoptions, hfields⟩, fun _ => ⟨config, hmerge⟩⟩
    case refused_iff =>
      intro element
      constructor
      · rintro ⟨message, hrefused⟩
        cases hmerge.symm.trans hrefused
      · exact fun hfault => merge_refuses hfault
    case settled => exact .inl ⟨config, hmerge⟩
    all_goals
      intro other hother
      obtain rfl := Except.ok.inj (hmerge.symm.trans hother)
    case switch_eq => exact hswitches
    case includeIfNull_eq => exact hnull
    case overlaid_eq => exact merge_overlaid hmerge hdefaults hoptions hfields
  · obtain ⟨element, hfault⟩ := exists_fault h
    obtain ⟨message, hrefused⟩ := merge_refuses hfault
    have hno : ¬ ∃ config, merge target defaults options fields = .ok config := by
      rintro ⟨config, hmerge⟩
      cases hmerge.symm.trans hrefused
    constructor
    case accepted_iff => exact ⟨fun hyes => absurd hyes hno, fun hyes => absurd hyes h⟩
    case refused_iff =>
      intro other
      constructor
      · rintro ⟨told, hother⟩
        obtain ⟨-, heq⟩ := Failure.configuration.inj (Except.error.inj (hrefused.symm.trans hother))
        exact Option.some.inj heq ▸ hfault
      · exact fun hfault => merge_refuses hfault
    case settled => exact .inr ⟨message, element, hrefused⟩
    all_goals exact fun config hmerge => absurd ⟨config, hmerge⟩ hno

end Config

end JsonCompanion
