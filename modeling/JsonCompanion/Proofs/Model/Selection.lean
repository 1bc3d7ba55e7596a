import Mathlib.Data.List.Nodup
import JsonCompanion.Model.Selection

/-!
# Fields that are decoded and fields that are written

* `Exclusion.Fails` says when a field fails a check, and `Exclusion.IsFirst` that the check is the
  first such one.
* `Selection.Parts` says how the fields of a class are parted; `ofModel_parts` is that of every class.
* `IsToBeWritten` says which fields are to be written, and `RepeatsKey` which one of them is the
  first to repeat a key.
* `encodeFields_settles`: the fields that are to be written are written, unless one of them repeats
  a key.
-/

namespace JsonCompanion

/-! ### Checks -/

namespace Exclusion

/-- The checks in the order in which they are made. -/
def inOrder : List Exclusion := [.unannotated, .hidden, .setterOnly, .excludedFromDecode]

/-- A field fails a check. -/
def Fails (config : Config) (field : Field) : Exclusion → Prop
  | .unannotated => config.ignoreUnannotated = true ∧ (config.key field.name).isAnnotated = false
  | .hidden => field.isPrivate = true ∧ (config.key field.name).includeFromJson ≠ some true
  | .setterOnly => field.hasGetter = false
  | .excludedFromDecode => (config.key field.name).includeFromJson = some false

instance (config : Config) (field : Field) : DecidablePred (Fails config field)
  | .unannotated => inferInstanceAs (Decidable (_ ∧ _))
  | .hidden => inferInstanceAs (Decidable (_ ∧ _))
  | .setterOnly => inferInstanceAs (Decidable (_ = _))
  | .excludedFromDecode => inferInstanceAs (Decidable (_ = _))

/-- A check is the first one that a field fails. -/
def IsFirst (config : Config) (field : Field) (check : Exclusion) : Prop :=
  check.Fails config field ∧
    ∃ before behind, inOrder = before ++ check :: behind ∧ ∀ earlier ∈ before,
      ¬ earlier.Fails config field

variable {config : Config} {field : Field} {check : Exclusion}

private theorem mem_inOrder (check : Exclusion) : check ∈ inOrder := by
  cases check <;> decide

private theorem of?_eq_find? (config : Config) (field : Field) :
    of? config field = inOrder.find? fun check => decide (check.Fails config field) := by
  have hunannotated : (config.ignoreUnannotated && !(config.key field.name).isAnnotated) =
      decide (Fails config field .unannotated) := by
    rw [Bool.eq_iff_iff, decide_eq_true_iff]
    simp [Fails]
  have hhidden : (field.isPrivate && (config.key field.name).includeFromJson != some true) =
      decide (Fails config field .hidden) := by
    rw [Bool.eq_iff_iff, decide_eq_true_iff]
    simp [Fails]
  have hsetter : (!field.hasGetter) = decide (Fails config field .setterOnly) := by
    rw [Bool.eq_iff_iff, decide_eq_true_iff]
    simp [Fails]
  have hexcluded : ((config.key field.name).includeFromJson == some false) =
      decide (Fails config field .excludedFromDecode) := by
    rw [Bool.eq_iff_iff, decide_eq_true_iff]
    simp [Fails]
  simp only [of?, inOrder, hunannotated, hhidden, hsetter, hexcluded, List.find?_cons, List.find?_nil]
  repeat' split
  all_goals simp_all

theorem of?_eq_some_iff : of? config field = some check ↔ check.IsFirst config field := by
  rw [of?_eq_find?, List.find?_eq_some_iff_append]
  simp [IsFirst]

theorem of?_eq_none_iff : of? config field = none ↔ ∀ check : Exclusion, ¬ check.Fails config field := by
  rw [of?_eq_find?, List.find?_eq_none]
  simp [mem_inOrder]

end Exclusion

/-! ### The parts of a class -/

/-- The fields of a class are parted into usable ones and those that fail a check, both in order of
declaration. -/
structure Selection.Parts (selection : Selection) (model : ClassModel) (config : Config) : Prop where
  perm : (selection.usable ++ selection.excluded.map Prod.fst).Perm model.fields
  usable_sublist : selection.usable.Sublist model.fields
  excluded_sublist : (selection.excluded.map Prod.fst).Sublist model.fields
  mem_usable_iff : ∀ field : Field, field ∈ selection.usable ↔
    field ∈ model.fields ∧ ∀ check : Exclusion, ¬ check.Fails config field
  mem_excluded_iff : ∀ (field : Field) (check : Exclusion), (field, check) ∈ selection.excluded ↔
    field ∈ model.fields ∧ check.IsFirst config field

private theorem map_fst_filterMap (config : Config) (fields : List Field) :
    (fields.filterMap fun field => (Exclusion.of? config field).map (field, ·)).map Prod.fst =
      fields.filter fun field => !(Exclusion.of? config field).isNone := by
  induction fields with
  | nil => rfl
  | cons field fields ih =>
    cases hcheck : Exclusion.of? config field with
    | none => simp [hcheck, ih]
    | some check => simp [hcheck, ih]

theorem Selection.ofModel_parts (model : ClassModel) (config : Config) :
    (Selection.ofModel model config).Parts model config where
  perm := by
    simp only [ofModel, map_fst_filterMap]
    exact List.filter_append_perm _ model.fields
  usable_sublist := List.filter_sublist
  excluded_sublist := by
    simp only [ofModel, map_fst_filterMap]
    exact List.filter_sublist
  mem_usable_iff field := by
    simp only [ofModel, List.mem_filter, Option.isNone_iff_eq_none, Exclusion.of?_eq_none_iff]
  mem_excluded_iff field check := by
    have hpair (other : Field) : (Exclusion.of? config other).map (other, ·) = some (field, check) ↔
        other = field ∧ check.IsFirst config field := by
      simp only [Option.map_eq_some_iff, Prod.mk.injEq, Exclusion.of?_eq_some_iff]
      constructor
      · rintro ⟨_, hfirst, rfl, rfl⟩
        exact ⟨rfl, hfirst⟩
      · rintro ⟨rfl, hfirst⟩
        exact ⟨check, hfirst, rfl, rfl⟩
    simp only [ofModel, List.mem_filterMap, hpair]
    constructor
    · rintro ⟨_, hfield, rfl, hfirst⟩
      exact ⟨hfield, hfirst⟩
    · rintro ⟨hfield, hfirst⟩
      exact ⟨field, hfield, rfl, hfirst⟩

/-! ### The fields that are written -/

/-- The key under which a field is written. -/
def Config.outputKey (config : Config) (field : Field) : Text := (config.key field.name).outputKey

/-- A field is decoded or asked for, and not left out.  With a factory, only what it consumed is
decoded. -/
def IsToBeWritten (model : ClassModel) (config : Config) (consumed : Option (List Text))
    (field : Field) : Prop :=
  ((field ∈ (Selection.ofModel model config).usable ∧ ∀ names ∈ consumed, field.name ∈ names) ∨
      (field.hasGetter = true ∧ (config.key field.name).includeToJson = some true)) ∧
    (config.key field.name).includeToJson ≠ some false

/-- The first field that repeats the key of a field before it, and that field. -/
def RepeatsKey (config : Config) (fields : List Field) (owner second : Field) : Prop :=
  ∃ before behind, fields = before ++ second :: behind ∧ owner ∈ before ∧
    config.outputKey owner = config.outputKey second ∧ (before.map config.outputKey).Nodup

/-- What becomes of the fields that are to be written. -/
structure SettlesFields (model : ClassModel) (config : Config) (fields : List Field)
    (result : Attempt (List Field)) : Prop where
  of_ok : ∀ written, result = .ok written → written = fields ∧ (written.map config.outputKey).Nodup
  of_error : ∀ failure, result = .error failure → ∃ owner second, RepeatsKey config fields owner second ∧
    failure = .duplicateKey model.name (config.outputKey second) owner.name second.name
  error_iff : (∃ failure, result = .error failure) ↔
    ∃ first ∈ fields, ∃ second ∈ fields, first ≠ second ∧
      config.outputKey first = config.outputKey second

section

variable {config : Config} {fields : List Field} {owner second : Field}

private theorem RepeatsKey.exists_ne (h : RepeatsKey config fields owner second)
    (hfields : fields.Nodup) :
    ∃ first ∈ fields, ∃ other ∈ fields, first ≠ other ∧
      config.outputKey first = config.outputKey other := by
  obtain ⟨before, behind, rfl, howner, hkey, -⟩ := h
  refine ⟨owner, by simp [howner], second, by simp, ?_, hkey⟩
  rintro rfl
  exact List.disjoint_of_nodup_append hfields howner List.mem_cons_self

/-- The fields before, the last one first, own their keys. -/
private theorem sharedKey?_of_owners (config : Config) (before rest : List Field)
    (hbefore : (before.map config.outputKey).Nodup) :
    let shared? :=
      sharedKey? config (before.reverse.map fun field => (config.outputKey field, field.name)) rest
    (∀ shared, shared? = some shared → ∃ owner second, RepeatsKey config (before ++ rest) owner second ∧
        shared = (config.outputKey second, owner.name, second.name)) ∧
      (shared? = none → ((before ++ rest).map config.outputKey).Nodup) := by
  -- the owners are the fields in front, the last one first
  induction rest generalizing before with
  | nil => simpa [sharedKey?] using hbefore
  | cons field rest ih =>
    have hkey : (config.key field.name).outputKey = config.outputKey field := rfl
    simp only [sharedKey?, hkey]
    split
    · rename_i hfind
      obtain ⟨owner, howner, heq⟩ := List.mem_map.mp (List.mem_of_find?_eq_some hfind)
      obtain ⟨rfl, rfl⟩ := Prod.mk.inj heq
      have hsame : config.outputKey owner = config.outputKey field := by
        simpa using List.find?_some hfind
      refine ⟨fun shared hshared => ?_, nofun⟩
      obtain rfl := Option.some.inj hshared
      exact ⟨owner, field, ⟨before, rest, rfl, List.mem_reverse.mp howner, hsame, hbefore⟩, rfl⟩
    · rename_i hfind
      have hfresh : config.outputKey field ∉ before.map config.outputKey := by
        intro hmem
        obtain ⟨owner, howner, hsame⟩ := List.mem_map.mp hmem
        have hnone := List.find?_eq_none.mp hfind (config.outputKey owner, owner.name)
          (List.mem_map_of_mem (List.mem_reverse.mpr howner))
        simp [hsame] at hnone
      have hnext := ih (before ++ [field]) (by
        simpa [List.nodup_append] using
          ⟨hbefore, fun owner howner hsame => hfresh (List.mem_map.mpr ⟨owner, howner, hsame⟩)⟩)
      simpa using hnext

private theorem nodup_of_sharedKey? (h : sharedKey? config [] fields = none) :
    (fields.map config.outputKey).Nodup :=
  (sharedKey?_of_owners config [] fields List.nodup_nil).2 h

private theorem settles_of_sharedKey? (model : ClassModel) (hfields : fields.Nodup) :
    SettlesFields model config fields (match sharedKey? config [] fields with
      | some (key, owner, second) => .error (.duplicateKey model.name key owner second)
      | none => .ok fields) := by
  obtain ⟨hshared, hnone⟩ := sharedKey?_of_owners config [] fields List.nodup_nil
  rw [List.reverse_nil, List.map_nil, List.nil_append] at hshared hnone
  cases hfound : sharedKey? config [] fields with
  | some found =>
    obtain ⟨owner, second, hrepeats, rfl⟩ := hshared found hfound
    exact {
      of_ok := by simp
      of_error := by
        rintro _ ⟨⟩
        exact ⟨owner, second, hrepeats, rfl⟩
      error_iff := ⟨fun _ => hrepeats.exists_ne hfields, fun _ => ⟨_, rfl⟩⟩ }
  | none =>
    exact {
      of_ok := by
        rintro _ ⟨⟩
        exact ⟨rfl, hnone hfound⟩
      of_error := by simp
      error_iff := by
        constructor
        · rintro ⟨_, ⟨⟩⟩
        · rintro ⟨first, hfirst, second, hsecond, hne, hkey⟩
          exact absurd (List.inj_on_of_nodup_map (hnone hfound) hfirst hsecond hkey) hne }

/-- The fields that are written have different keys. -/
theorem nodup_outputKeys {model : ClassModel} {consumed : Option (List Text)}
    (h : encodeFields model config consumed = .ok fields) : (fields.map config.outputKey).Nodup := by
  unfold encodeFields at h
  dsimp only at h
  split at h
  · cases h
  · next hnone => exact Except.ok.inj h ▸ nodup_of_sharedKey? hnone

/-- Fields with different keys are written. -/
theorem exists_encodeFields {model : ClassModel} (hkeys : (model.fields.map config.outputKey).Nodup)
    (consumed : Option (List Text)) : ∃ written, encodeFields model config consumed = .ok written := by
  unfold encodeFields
  dsimp only
  generalize hfields : model.fields.filter _ = fields
  have hsublist : fields.Sublist model.fields := hfields ▸ List.filter_sublist
  have hkept : (fields.map config.outputKey).Nodup := hkeys.sublist (hsublist.map _)
  cases hfound : sharedKey? config [] fields with
  | none => exact ⟨fields, rfl⟩
  | some shared =>
    obtain ⟨owner, second, hrepeats, -⟩ :=
      (sharedKey?_of_owners config [] fields List.nodup_nil).1 shared hfound
    obtain ⟨first, hfirst, other, hother, hne, hkey⟩ := hrepeats.exists_ne hkept.of_map
    exact absurd (List.inj_on_of_nodup_map hkept hfirst hother hkey) hne

end

private theorem isToBeWritten_iff {model : ClassModel} {config : Config} {consumed : Option (List Text)}
    {field : Field} (hfield : field ∈ model.fields) :
    (((((Exclusion.of? config field).isNone && consumed.all fun names => names.contains field.name) ||
        isAskedFor config field) && (config.key field.name).includeToJson != some false) = true) ↔
      IsToBeWritten model config consumed field := by
  simp [IsToBeWritten, Selection.ofModel, isAskedFor, hfield, Option.all_eq_true]

/-- The fields of a class are parted by the first check that they fail.  Those that are to be
written have a getter and are written in order of declaration, unless two of them share a key. -/
theorem encodeFields_settles (model : ClassModel) (config : Config) (consumed : Option (List Text))
    (hnames : (model.fields.map Field.name).Nodup) :
    (Selection.ofModel model config).Parts model config ∧
      ∃ fields : List Field, fields.Sublist model.fields ∧
        (∀ field, field ∈ fields ↔ field ∈ model.fields ∧ IsToBeWritten model config consumed field) ∧
        (∀ field ∈ fields, field.hasGetter = true) ∧
        SettlesFields model config fields (encodeFields model config consumed) := by
  have hparts := Selection.ofModel_parts model config
  let isWritten (field : Field) : Bool :=
    (((Exclusion.of? config field).isNone && consumed.all fun names => names.contains field.name) ||
      isAskedFor config field) && (config.key field.name).includeToJson != some false
  have hmem (field : Field) : field ∈ model.fields.filter isWritten ↔
      field ∈ model.fields ∧ IsToBeWritten model config consumed field := by
    rw [List.mem_filter]
    exact and_congr_right isToBeWritten_iff
  refine ⟨hparts, model.fields.filter isWritten, List.filter_sublist, hmem, fun field hfield => ?_,
    settles_of_sharedKey? model (hnames.of_map.filter _)⟩
  obtain ⟨⟨husable, -⟩ | ⟨hgetter, -⟩, -⟩ := ((hmem field).mp hfield).2
  · simpa [Exclusion.Fails] using ((hparts.mem_usable_iff field).mp husable).2 .setterOnly
  · exact hgetter

/-- A field that is renamed to the key of another one and is only asked for in the output repeats
that key. -/
theorem encodeFields_settles_point :
    let x : Field := ⟨"x", "number", false, false, true, true⟩
    let y : Field := ⟨"y", "number", true, true, true, false⟩
    let model : ClassModel := ⟨"Point", [x, y], [], [], none⟩
    let config : Config := ⟨true, true, false, false, false, false, true, false, .none,
      [("y", ⟨[("name", .string "x"), ("includeToJson", .bool true)]⟩)]⟩
    (model.fields.map Field.name).Nodup ∧ encodeFields model config (some ["x"]) =
        .error (.duplicateKey "Point" "x" "x" "y") ∧
      ∃ fields : List Field,
        SettlesFields model config fields (encodeFields model config (some ["x"])) := by
  intro x y model config
  have hnames : (model.fields.map Field.name).Nodup := by decide
  obtain ⟨-, fields, -, -, -, hsettles⟩ := encodeFields_settles model config (some ["x"]) hnames
  exact ⟨hnames, rfl, fields, hsettles⟩

end JsonCompanion
