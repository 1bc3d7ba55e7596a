import JsonCompanion.Config.Options
import JsonCompanion.Config.Outcome
import JsonCompanion.Proofs.Collecting
import JsonCompanion.Proofs.Data.Record

/-!
# Checked objects

What the schemas of options accept.

* `Schema.check_property`: each property of accepted data is what its own schema accepts.
* `Matches` says that the properties of an object are known and, if they are set, of the kinds that
  are asked for.
* `Describes` relates the schema of a property to a kind; `validate_decides` says that a strict
  schema of such properties accepts the objects that match, as they are, and refuses all other data
  for the element that it was asked about.
-/

namespace JsonCompanion

/-! ### Properties -/

namespace Schema

theorem checkProperties_get {properties : List (Text × Schema)} {held accepted : Record}
    (hkeys : (properties.map Prod.fst).Nodup) (h : checkProperties properties held = .ok accepted) :
    (∀ key schema, (key, schema) ∈ properties →
      check schema (Record.get held key) = .ok (Record.get accepted key)) ∧
      ∀ key, key ∉ properties.map Prod.fst → Record.get accepted key = .undefined := by
  induction properties generalizing accepted with
  | nil =>
    simp only [checkProperties, Except.ok.injEq] at h
    subst h
    simp
  | cons property properties ih =>
    obtain ⟨known, schema⟩ := property
    simp only [List.map_cons, List.nodup_cons] at hkeys
    rw [checkProperties] at h
    rcases hvalue : check schema (Record.get held known) with issue | value
    · simp [hvalue, Checked.under, bind, Except.bind] at h
    rcases hrest : checkProperties properties held with issue | rest
    · simp [hvalue, hrest, Checked.under, bind, Except.bind] at h
    obtain ⟨ihown, ihother⟩ := ih hkeys.2 hrest
    have hknown : Record.get rest known = .undefined := ihother known hkeys.1
    -- a property that is left out is `undefined` all the same
    have hget : ∀ key, Record.get accepted key = if known = key then value else Record.get rest key := by
      intro key
      simp only [hvalue, hrest, Checked.under, bind, Except.bind, pure, Except.pure,
        Except.ok.injEq] at h
      subst h
      by_cases hheld : ((Record.find? held known).isSome || !value.isUndefined) = true
      · rw [if_pos hheld, Record.get_cons]
      · rw [if_neg hheld]
        have hundefined : value = .undefined := by
          cases value <;> simp_all [Value.isUndefined]
        by_cases hkey : known = key
        · rw [if_pos hkey, ← hkey, hknown, hundefined]
        · rw [if_neg hkey]
    constructor
    · intro key schema' hmem
      rw [hget]
      rcases List.mem_cons.1 hmem with heq | hmem
      · obtain ⟨rfl, rfl⟩ := Prod.mk.inj heq
        rw [if_pos rfl, hvalue]
      · have hne : known ≠ key := fun heq => hkeys.1 (heq ▸ List.mem_map_of_mem (f := Prod.fst) hmem)
        rw [if_neg hne]
        exact ihown key schema' hmem
    · intro key hkey
      simp only [List.map_cons, List.mem_cons, not_or] at hkey
      rw [hget, if_neg (Ne.symm hkey.1)]
      exact ihother key hkey.2

/-- Each property of accepted data is what its own schema accepts. -/
theorem check_property {isStrict : Bool} {properties : List (Text × Schema)} {held : Record}
    {data : Value} (hkeys : (properties.map Prod.fst).Nodup)
    (h : check (.object isStrict properties) (.object held) = .ok data) :
    ∃ accepted, data = .object accepted ∧ ∀ key schema, (key, schema) ∈ properties →
      check schema (Record.get held key) = .ok (Record.get accepted key) := by
  rw [check] at h
  rcases hheld : propertiesOf? (.object held) with _ | found
  · simp [hheld] at h
  obtain rfl : held = found := by
    simp only [propertiesOf?] at hheld
    split at hheld <;> simp_all
  rcases haccepted : checkProperties properties held with issue | accepted
  · simp [hheld, haccepted, bind, Except.bind] at h
  refine ⟨accepted, ?_, (checkProperties_get hkeys haccepted).1⟩
  simp only [hheld, haccepted, bind, Except.bind, pure, Except.pure] at h
  split at h
  · cases h
  · exact (Except.ok.inj h).symm

end Schema

/-! ### Kinds -/

/-- An attempt gives a result as told if a condition holds, and is refused for an element if not. -/
def Attempt.Decides {α : Type} (attempt : Attempt α) (condition : Prop) (element : Text)
    (IsResult : α → Prop) : Prop :=
  (condition ∧ ∃ result, attempt = .ok result ∧ IsResult result) ∨
    ¬ condition ∧ ∃ message, attempt = .error (.configuration message (some element))

theorem Attempt.Decides.congr {α : Type} {attempt : Attempt α} {condition condition' : Prop}
    {element : Text} {IsResult : α → Prop} (h : Attempt.Decides attempt condition element IsResult)
    (hcondition : condition ↔ condition') :
    Attempt.Decides attempt condition' element IsResult := by
  unfold Attempt.Decides at h ⊢
  rwa [← hcondition]

/-- What counts as an object in a schema: no list, date, map or function. -/
def Value.IsObject : Value → Prop
  | .object _ | .regex .. => True
  | _ => False

/-- On or off. -/
def Value.IsFlag (value : Value) : Prop := ∃ b, value = .bool b

/-- The keys of a value; what is no plain object has none. -/
def Value.keys : Value → List Text
  | .object properties => Record.keys properties
  | _ => []

/-- A name with the values that it can be set to. -/
abbrev Kind := Text × (Value → Prop)

/-- An object of which all keys are known, and each known one is not set or has a value of its kind. -/
structure Matches (kinds : List Kind) (value : Value) : Prop where
  isObject : value.IsObject
  known : ∀ key ∈ value.keys, ∃ kind ∈ kinds, kind.1 = key
  typed : ∀ kind ∈ kinds, value.property kind.1 = .undefined ∨ kind.2 (value.property kind.1)

namespace Schema

/-- A schema that accepts what is not set, and values of a kind, as they are. -/
structure Describes (schema : Schema) (IsOf : Value → Prop) : Prop where
  accepts : ∀ value, value = .undefined ∨ IsOf value → check schema value = .ok value
  refuses : ∀ value, ¬ (value = .undefined ∨ IsOf value) → ∃ issue, check schema value = .error issue

theorem describes_flag : Describes (.optional .bool) Value.IsFlag := by
  constructor
  · rintro value (rfl | ⟨b, rfl⟩)
    · rfl
    · rfl
  · intro value h
    cases value with
    | undefined => exact absurd (.inl rfl) h
    | bool b => exact absurd (.inr ⟨b, rfl⟩) h
    | _ => exact ⟨_, rfl⟩

theorem describes_anything : Describes (.optional .anything) fun _ => True := by
  constructor
  · intro value _
    cases value with
    | _ => rfl
  · intro value h
    exact absurd (.inr trivial) h

theorem describes_name :
    Describes (.optional (.text [.notEmpty])) fun value => ∃ t, value = .string t ∧ t ≠ [] := by
  constructor
  · rintro value (rfl | ⟨t, rfl, ht⟩)
    · rfl
    · cases t with
      | nil => exact absurd rfl ht
      | cons u t => rfl
  · intro value h
    cases value with
    | undefined => exact absurd (.inl rfl) h
    | string t =>
      cases t with
      | nil => exact ⟨_, rfl⟩
      | cons u t => exact absurd (.inr ⟨_, rfl, List.cons_ne_nil u t⟩) h
    | _ => exact ⟨_, rfl⟩

theorem describes_choice (options : List Text) :
    Describes (.optional (.choice options)) fun value => ∃ t ∈ options, value = .string t := by
  constructor
  · rintro value (rfl | ⟨t, ht, rfl⟩)
    · rfl
    · show checkChoice options (.string t) = _
      unfold checkChoice
      dsimp only
      rw [if_pos (List.contains_iff_mem.2 ht)]
  · intro value h
    cases value with
    | undefined => exact absurd (.inl rfl) h
    | string t =>
      have ht : ¬ options.contains t = true := fun ht => h (.inr ⟨t, List.contains_iff_mem.1 ht, rfl⟩)
      show ∃ issue, checkChoice options (.string t) = .error issue
      unfold checkChoice
      dsimp only
      rw [if_neg ht]
      exact ⟨_, rfl⟩
    | _ => exact ⟨_, rfl⟩

/-! ### Strict objects -/

variable {properties : List (Text × Schema)} {kinds : List Kind} {held : Record}

/-- Properties with schemas, and the kinds that these describe. -/
abbrev Describe (properties : List (Text × Schema)) (kinds : List Kind) : Prop :=
  List.Forall₂ (fun property kind => property.1 = kind.1 ∧ Describes property.2 kind.2) properties kinds

private theorem checkProperties_accepts (h : Describe properties kinds)
    (htyped : ∀ kind ∈ kinds, Record.get held kind.1 = .undefined ∨ kind.2 (Record.get held kind.1)) :
    ∃ accepted, checkProperties properties held = .ok accepted := by
  induction h with
  | nil => exact ⟨_, rfl⟩
  | @cons property kind properties kinds hfirst _ ih =>
    obtain ⟨name, schema⟩ := property
    obtain ⟨rfl, hdescribes⟩ := hfirst
    obtain ⟨hkind, hkinds⟩ := List.forall_mem_cons.1 htyped
    obtain ⟨accepted, haccepted⟩ := ih hkinds
    rw [checkProperties, hdescribes.accepts _ hkind, haccepted]
    exact ⟨_, rfl⟩

private theorem checkProperties_refuses (h : Describe properties kinds)
    (htyped : ¬ ∀ kind ∈ kinds, Record.get held kind.1 = .undefined ∨ kind.2 (Record.get held kind.1)) :
    ∃ issue, checkProperties properties held = .error issue := by
  induction h with
  | nil => simp at htyped
  | @cons property kind properties kinds hfirst _ ih =>
    obtain ⟨name, schema⟩ := property
    obtain ⟨rfl, hdescribes⟩ := hfirst
    rw [checkProperties]
    by_cases hkind : Record.get held kind.1 = .undefined ∨ kind.2 (Record.get held kind.1)
    · have hkinds := fun hkinds => htyped (List.forall_mem_cons.2 ⟨hkind, hkinds⟩)
      obtain ⟨issue, hissue⟩ := ih hkinds
      rw [hdescribes.accepts _ hkind, hissue]
      exact ⟨_, rfl⟩
    · obtain ⟨issue, hissue⟩ := hdescribes.refuses _ hkind
      rw [hissue]
      exact ⟨_, rfl⟩

private theorem mem_names_iff (h : Describe properties kinds) (name : Text) :
    name ∈ properties.map Prod.fst ↔ ∃ kind ∈ kinds, kind.1 = name := by
  have hnames : properties.map Prod.fst = kinds.map Prod.fst := by
    rw [← List.forall₂_eq_eq_eq, List.forall₂_map_left_iff, List.forall₂_map_right_iff]
    exact h.imp fun _ _ hpair => hpair.1
  rw [hnames, List.mem_map]

/-- Accepted properties are those of the object. -/
private theorem get_of_checkProperties (h : Describe properties kinds)
    (hkeys : (properties.map Prod.fst).Nodup)
    (hknown : ∀ key ∈ Record.keys held, ∃ kind ∈ kinds, kind.1 = key) {accepted : Record}
    (haccepted : checkProperties properties held = .ok accepted) (name : Text) :
    Record.get accepted name = Record.get held name := by
  obtain ⟨hown, hother⟩ := checkProperties_get hkeys haccepted
  by_cases hname : name ∈ properties.map Prod.fst
  · obtain ⟨⟨name, schema⟩, hmem, rfl⟩ := List.mem_map.1 hname
    obtain ⟨kind, -, -, hdescribes⟩ := Collecting.exists_of_mem_left h hmem
    have hchecked := hown name schema hmem
    by_cases hkind : Record.get held name = .undefined ∨ kind.2 (Record.get held name)
    · exact Except.ok.inj (hchecked.symm.trans (hdescribes.accepts _ hkind))
    · obtain ⟨issue, hissue⟩ := hdescribes.refuses _ hkind
      cases hchecked.symm.trans hissue
  · rw [hother name hname, Record.get_of_not_mem fun hmem =>
      hname ((mem_names_iff h name).2 (hknown name hmem))]

private theorem unknown_isEmpty_iff (h : Describe properties kinds) :
    (held.keys.filter fun key => !properties.any fun (known, _) => known == key).isEmpty = true ↔
      ∀ key ∈ Record.keys held, ∃ kind ∈ kinds, kind.1 = key := by
  rw [List.isEmpty_iff, List.filter_eq_nil_iff]
  refine forall₂_congr fun key _ => ?_
  rw [← mem_names_iff h key, List.mem_map]
  simp

/-- Data whose functions make it a promise has an unknown key. -/
private theorem not_matches_of_isPromise (hthen : ∀ kind ∈ kinds, kind.1 ≠ ("then" : Text))
    (hpromise : Value.isPromise (.object held) = true) : ¬ Matches kinds (.object held) := by
  intro hmatches
  have hfunction : (Record.get held "then").isFunction = true := (Bool.and_eq_true_iff.1 hpromise).1
  by_cases hmem : ("then" : Text) ∈ Record.keys held
  · obtain ⟨kind, hkind, hname⟩ := hmatches.known _ hmem
    exact hthen kind hkind hname
  · rw [Record.get_of_not_mem hmem] at hfunction
    cases hfunction

/-- What a schema for objects looks at. -/
private theorem of_propertiesOf? {value : Value} (h : propertiesOf? value = some held) :
    value.IsObject ∧ value.keys = Record.keys held ∧ ∀ name,
      value.property name = Record.get held name := by
  cases value with
  | object found =>
    rw [propertiesOf?] at h
    split at h
    · cases h
    · obtain rfl := Option.some.inj h
      exact ⟨trivial, rfl, fun _ => rfl⟩
  | regex literal =>
    obtain rfl := Option.some.inj h
    exact ⟨trivial, rfl, fun _ => rfl⟩
  | _ => cases h

/-- What a schema for objects does not look at does not match. -/
private theorem not_matches_of_propertiesOf? (hthen : ∀ kind ∈ kinds, kind.1 ≠ ("then" : Text))
    {value : Value} (h : propertiesOf? value = none) : ¬ Matches kinds value := by
  cases value with
  | object found =>
    rw [propertiesOf?] at h
    split at h
    · next hpromise => exact not_matches_of_isPromise hthen hpromise
    · cases h
  | regex literal => cases h
  | _ => exact fun hmatches => hmatches.isObject

/-- A strict schema accepts the objects that match, as they are, and has an issue with all other data. -/
private theorem check_decides (h : Describe properties kinds) (hkeys : (properties.map Prod.fst).Nodup)
    (hthen : ∀ kind ∈ kinds, kind.1 ≠ ("then" : Text)) (value : Value) :
    (Matches kinds value ∧ ∃ accepted, check (.object true properties) value = .ok (.object accepted) ∧
        ∀ name, Record.get accepted name = value.property name) ∨
      ¬ Matches kinds value ∧ ∃ issue, check (.object true properties) value = .error issue := by
  rw [check]
  cases hheld : propertiesOf? value with
  | none => exact .inr ⟨not_matches_of_propertiesOf? hthen hheld, _, rfl⟩
  | some held =>
    obtain ⟨hobject, hvalue, hproperty⟩ := of_propertiesOf? hheld
    dsimp only
    -- the kinds of the known properties are checked before unknown ones
    by_cases htyped : ∀ kind ∈ kinds, Record.get held kind.1 = .undefined ∨
      kind.2 (Record.get held kind.1)
    · obtain ⟨accepted, haccepted⟩ := checkProperties_accepts h htyped
      rw [haccepted]
      by_cases hknown : ∀ key ∈ Record.keys held, ∃ kind ∈ kinds, kind.1 = key
      · refine .inl
          ⟨⟨hobject, hvalue ▸ hknown, by simpa only [hproperty] using htyped⟩, accepted, ?_,
            fun name => ?_⟩
        · have hempty := (unknown_isEmpty_iff h).2 hknown
          simp [hempty, bind, Except.bind, pure, Except.pure]
        · rw [hproperty, get_of_checkProperties h hkeys hknown haccepted]
      · refine .inr ⟨fun hmatches => hknown (hvalue ▸ hmatches.known), ?_⟩
        have hempty := mt (unknown_isEmpty_iff h).1 hknown
        simp [hempty, bind, Except.bind]
    · obtain ⟨issue, hissue⟩ := checkProperties_refuses h htyped
      rw [hissue]
      exact .inr ⟨fun hmatches => htyped (by simpa only [hproperty] using hmatches.typed), issue, rfl⟩

/-- A strict schema accepts the objects that match, as they are, and refuses all other data. -/
theorem validate_decides (h : Describe properties kinds) (hkeys : (properties.map Prod.fst).Nodup)
    (hthen : ∀ kind ∈ kinds, kind.1 ≠ ("then" : Text)) (element : Text) (value : Value) :
    Attempt.Decides (validate (.object true properties) element value) (Matches kinds value) element
      fun data =>
      ∃ accepted, data = .object accepted ∧ ∀ name, Record.get accepted name = value.property name := by
  unfold validate Verdict.ofSchema
  rcases check_decides h hkeys hthen value with
    ⟨hmatches, accepted, hcheck, hget⟩ | ⟨hmatches, issue, hcheck⟩
  · rw [hcheck]
    exact .inl ⟨hmatches, _, rfl, accepted, rfl, hget⟩
  · rw [hcheck]
    exact .inr ⟨hmatches, _, rfl⟩

end Schema

end JsonCompanion
