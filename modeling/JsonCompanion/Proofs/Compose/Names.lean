import JsonCompanion.Proofs.Compose.Fragments
import JsonCompanion.Proofs.Read.Unit

/-!
# Names of declarations

A companion declares each name once, unless two elements of the unit clash.

* `Role.eq_of_nameFor_eq`: a name tells its role, but for one pair of roles.
* `Clash` says when two elements of a unit ask for different declarations of one name.
* `names_nodup`: without clashes the names of the fragments are different; `names_repeated` is a clash.
-/

namespace JsonCompanion

open Emit Collecting

/-! ### Names and roles -/

/-- A name tells its role, but for the encoder of one class and the table of encoders of another. -/
theorem Emit.Role.eq_of_nameFor_eq {role role' : Role} {element element' : Text}
    (h : role.nameFor element = role'.nameFor element') :
    role = role' ∧ element.lowerFirst = element'.lowerFirst ∨
      role = .encoder ∧ role' = .encoderTable ∧ element.lowerFirst = element'.lowerFirst ++ "PerField" ∨
      role = .encoderTable ∧ role' = .encoder ∧
        element'.lowerFirst = element.lowerFirst ++ "PerField" := by
  -- both suffixes end one text, so one of them ends the other
  have hsuffixes : role.suffix <:+ role'.suffix ∨ role'.suffix <:+ role.suffix :=
    List.suffix_or_suffix_of_suffix ⟨element.lowerFirst, h⟩ ⟨element'.lowerFirst, rfl⟩
  have hroles : role = role' ∨ role = .encoder ∧ role' = .encoderTable ∨ role = .encoderTable ∧
      role' = .encoder := by
    revert hsuffixes
    cases role <;> cases role' <;> decide
  have htable : Role.suffix .encoderTable = "PerField" ++ Role.suffix .encoder := rfl
  rcases hroles with rfl | ⟨rfl, rfl⟩ | ⟨rfl, rfl⟩
  · exact .inl ⟨rfl, List.append_cancel_right h⟩
  · rw [nameFor, nameFor, htable, ← List.append_assoc] at h
    exact .inr (.inl ⟨rfl, rfl, List.append_cancel_right h⟩)
  · rw [nameFor, nameFor, htable, ← List.append_assoc] at h
    exact .inr (.inr ⟨rfl, rfl, (List.append_cancel_right h).symm⟩)

private theorem nameFor_ne {role : Role} {element name : Text}
    (hname : ∀ role : Role, ¬ role.suffix <:+ name) : role.nameFor element ≠ name := fun heq =>
  hname role ⟨element.lowerFirst, heq⟩

/-- For one element different roles have different names. -/
private theorem nameFor_injective (element : Text) : Function.Injective (Role.nameFor · element) := by
  intro role role' h
  rcases Role.eq_of_nameFor_eq h with ⟨hrole, -⟩ | ⟨-, -, hname⟩ | ⟨-, -, hname⟩
  · exact hrole
  · exact absurd (List.self_eq_append_right.1 hname) (by decide)
  · exact absurd (List.self_eq_append_right.1 hname) (by decide)

private theorem nodup_roles (config : Config) : config.roles.Nodup := by
  unfold Config.roles
  cases config.createFactory <;> cases config.createToJson <;> cases config.createFieldMap <;>
    cases config.createPerFieldToJson <;> decide

/-! ### Clashes -/

/-- Two elements of a unit ask for different declarations of one name: two classes whose names
differ in the case of the first letter ask for the same kind of declaration, one class asks for an
encoder and another one for a table of encoders of the same name, or two enumerations whose names
differ in the case of the first letter have different values. -/
inductive Clash (defaults : Value) : Element → Element → Prop
  | role {a b : AnnotatedClass} {config config' : Config} {role : Role}
      (ha : a.config defaults = .ok config)
    (hb : b.config defaults = .ok config') (hrole : role ∈ config.roles) (hrole' : role ∈ config'.roles)
    (hname : a.model.name.lowerFirst = b.model.name.lowerFirst) : Clash defaults (.class a) (.class b)
  | encoders {a b : AnnotatedClass} {config config' : Config} (ha : a.config defaults = .ok config)
    (hb : b.config defaults = .ok config') (hrole : .encoder ∈ config.roles)
      (hrole' : .encoderTable ∈ config'.roles)
    (hname : a.model.name.lowerFirst = b.model.name.lowerFirst ++ "PerField") :
      Clash defaults (.class a) (.class b)
  | values {a b : EnumModel} (hname : a.name.lowerFirst = b.name.lowerFirst)
      (hvalues : a.values ≠ b.values) :
    Clash defaults (.enum a) (.enum b)

theorem Clash.lowerFirst {defaults : Value} {a b : Element} (h : Clash defaults a b) :
    a.name.lowerFirst = b.name.lowerFirst ∨ a.name.lowerFirst = b.name.lowerFirst ++ "PerField" := by
  cases h with
  | role _ _ _ _ hname => exact .inl hname
  | encoders _ _ _ _ hname => exact .inr hname
  | values hname => exact .inl hname

/-! ### Declarations -/

/-- A fragment is what an element of a unit declares for a role. -/
inductive Declares (options : GenerationOptions) (unit : SourceUnit) : Element → Role → Fragment → Prop
  | ofClass {content : AnnotatedClass} {config : Config} {output : ClassOutput}
      {fragment : Fragment} {role : Role}
    (hconfig : content.config options.defaults = .ok config)
    (houtput : ClassOutput.generate ⟨content.model, config, unit.enums, options.customs⟩ = .ok output)
    (hown : fragment ∈ output.own) (hrole : role ∈ config.roles)
    (hname : fragment.name = role.nameFor content.model.name) :
      Declares options unit (.class content) role fragment
  | ofEnum {model : EnumModel} {table : Fragment} (htable : enumValues model = .ok table) :
    Declares options unit (.enum model) .valueTable table

variable {options : GenerationOptions} {unit : SourceUnit} {composed : Composition}
  {tables : List Fragment}
  {outputs : List ClassOutput} {a b : Element} {role role' : Role} {fragment other : Fragment}

private theorem name_table {model : EnumModel} {table : Fragment} (h : enumValues model = .ok table) :
    table.name = Role.nameFor .valueTable model.name := by
  obtain ⟨values, -, h⟩ := Attempt.of_bind_ok h
  rw [← Except.ok.inj h]
  rfl

theorem Declares.name (h : Declares options unit a role fragment) :
    fragment.name = role.nameFor a.name := by
  cases h with
  | ofClass _ _ _ _ hname => exact hname
  | ofEnum htable => exact name_table htable

/-- What an element declares under a name is one fragment. -/
theorem Declares.unique (h : Declares options unit a role fragment)
    (h' : Declares options unit a role' other) (hcustoms : options.customs = [])
    (hunique : (unit.elements.map Element.name).Nodup) (hname : fragment.name = other.name) :
    fragment = other := by
  cases h with
  | @ofClass content config output _ _ hconfig houtput hown =>
    cases h' with
    | ofClass hconfig' houtput' hown' =>
      obtain rfl := Except.ok.inj (hconfig.symm.trans hconfig')
      obtain rfl := Except.ok.inj (houtput.symm.trans houtput')
      have hfor := ClassOutput.generate_isFor hcustoms (nodup_enums hunique) houtput
      have hnames : (output.own.map Fragment.name).Nodup := by
        rw [hfor.names]
        exact (nodup_roles config).map (nameFor_injective content.model.name)
      exact List.inj_on_of_nodup_map hnames hown hown' hname
  | ofEnum htable =>
    cases h' with
    | ofEnum htable' => exact Except.ok.inj (htable.symm.trans htable')

/-- Each contributed fragment is what an element declares, or supporting code. -/
theorem Contributions.exists_declares (h : Contributions options unit tables outputs)
    (hcustoms : options.customs = []) (hunique : (unit.elements.map Element.name).Nodup)
    (hfragment : fragment ∈ contributed tables outputs) :
    (∃ element ∈ unit.elements, ∃ role, Declares options unit element role fragment) ∨
      fragment = enumDecode ∨ fragment = checkKeys := by
  rcases (h.mem_contributed_iff hcustoms hunique fragment).1 hfragment with
    htable | ⟨output, houtput, hown⟩ | ⟨-, rfl⟩ | ⟨-, rfl⟩
  · obtain ⟨model, hmodel, htable⟩ := h.exists_model htable
    exact .inl ⟨_, SourceUnit.mem_elements_of_enum hmodel, _, .ofEnum htable⟩
  · obtain ⟨content, hcontent, config, hconfig, -, hgenerate, hfor⟩ :=
      h.exists_class hcustoms hunique houtput
    have hname : fragment.name ∈ output.own.map Fragment.name := List.mem_map_of_mem hown
    rw [hfor.names, List.mem_map] at hname
    obtain ⟨role, hrole, hname⟩ := hname
    exact .inl ⟨_, SourceUnit.mem_elements_of_class hcontent, role,
      .ofClass hconfig hgenerate hown hrole hname.symm⟩
  · exact .inr (.inl rfl)
  · exact .inr (.inr rfl)

mutual

/-- The element is named in failures only. -/
private theorem literal_element {element element' : Text} : ∀ (value : Value) {t : Text},
    literal element value = .ok t → literal element' value = .ok t
  | .undefined, _, h | .null, _, h | .bool _, _, h | .number _, _, h | .bigint _, _, h | .string _, _, h
  | .regex _, _, h => h
  | .array items, t, h => by
    rw [literal] at h ⊢
    obtain ⟨texts, htexts, h⟩ := Attempt.of_bind_ok h
    rw [literals_element items htexts]
    exact h
  | .object properties, t, h => by
    rw [literal] at h ⊢
    obtain ⟨entries, hentries, h⟩ := Attempt.of_bind_ok h
    rw [entryLiterals_element properties hentries]
    exact h
  | .date _, _, h | .emptyMap, _, h | .function, _, h => by cases h

private theorem literals_element {element element' : Text} : ∀ (values : List Value) {texts : List Text},
    literals element values = .ok texts → literals element' values = .ok texts
  | [], _, h => h
  | value :: values, texts, h => by
    rw [literals] at h ⊢
    obtain ⟨first, hfirst, h⟩ := Attempt.of_bind_ok h
    obtain ⟨rest, hrest, h⟩ := Attempt.of_bind_ok h
    rw [literal_element value hfirst, literals_element values hrest]
    exact h

private theorem entryLiterals_element {element element' : Text} : ∀ (properties : List (Text × Value))
    {texts : List Text}, entryLiterals element properties = .ok texts →
      entryLiterals element' properties = .ok texts
  | [], _, h => h
  | (key, value) :: properties, texts, h => by
    rw [entryLiterals] at h ⊢
    obtain ⟨first, hfirst, h⟩ := Attempt.of_bind_ok h
    obtain ⟨rest, hrest, h⟩ := Attempt.of_bind_ok h
    rw [literal_element value hfirst, entryLiterals_element properties hrest]
    exact h

end

/-- Enumerations with the same values have the same table, if their tables have the same name. -/
private theorem table_eq {model model' : EnumModel} {table table' : Fragment}
    (hname : model.name.lowerFirst = model'.name.lowerFirst) (hvalues : model.values = model'.values)
    (h : enumValues model = .ok table) (h' : enumValues model' = .ok table') : table = table' := by
  obtain ⟨texts, htexts, h⟩ := Attempt.of_bind_ok h
  obtain ⟨texts', htexts', h'⟩ := Attempt.of_bind_ok h'
  rw [hvalues] at htexts
  obtain rfl := Except.ok.inj ((literals_element _ htexts).symm.trans htexts')
  have hnames : enumValuesName model.name =
      enumValuesName model'.name := by rw [enumValuesName, enumValuesName, hname]
  rw [← Except.ok.inj h, ← Except.ok.inj h', hnames]

private theorem valueTable_not_mem (config : Config) : .valueTable ∉ config.roles := by
  unfold Config.roles
  cases config.createFactory <;> cases config.createToJson <;> cases config.createFieldMap <;>
    cases config.createPerFieldToJson <;> decide

/-! ### Different names -/

section

variable (hcustoms : options.customs = []) (hunique : (unit.elements.map Element.name).Nodup)
  (hclash : ∀ a ∈ unit.elements, ∀ b ∈ unit.elements, a.name ≠ b.name → ¬ Clash options.defaults a b)

include hcustoms hunique hclash

/-- Declarations of one name have one text. -/
private theorem text_eq_of_declares (ha : a ∈ unit.elements) (hb : b ∈ unit.elements)
    (h : Declares options unit a role fragment) (h' : Declares options unit b role' other)
    (hname : fragment.name = other.name) : fragment.text = other.text := by
  by_cases hsame : a.name = b.name
  · -- one element declares a name for one role only
    obtain rfl := List.inj_on_of_nodup_map hunique ha hb hsame
    rw [h.unique h' hcustoms hunique hname]
  have hno := hclash a ha b hb hsame
  have hno' := hclash b hb a ha (Ne.symm hsame)
  rw [h.name, h'.name] at hname
  -- different elements clash, unless they are enumerations with the same values
  rcases Role.eq_of_nameFor_eq hname with ⟨rfl, hlower⟩ | ⟨rfl, rfl, hlower⟩ | ⟨rfl, rfl, hlower⟩
  · cases h with
    | ofClass hconfig _ _ hrole =>
      cases h' with
      | ofClass hconfig' _ _ hrole' => exact absurd (.role hconfig hconfig' hrole hrole' hlower) hno
      | ofEnum => exact absurd hrole (valueTable_not_mem _)
    | @ofEnum model _ htable =>
      cases h' with
      | ofClass _ _ _ hrole => exact absurd hrole (valueTable_not_mem _)
      | @ofEnum model' _ htable' =>
        have hvalues : model.values = model'.values := by
          by_contra hne
          exact hno (.values hlower hne)
        rw [table_eq hlower hvalues htable htable']
  · cases h with
    | ofClass hconfig _ _ hrole =>
      cases h' with
      | ofClass hconfig' _ _ hrole' => exact absurd (.encoders hconfig hconfig' hrole hrole' hlower) hno
  · cases h with
    | ofClass hconfig _ _ hrole =>
      cases h' with
      | ofClass hconfig' _ _ hrole' => exact absurd (.encoders hconfig' hconfig hrole' hrole hlower) hno'

/-- A companion of which no two elements clash declares each name once. -/
theorem names_nodup {earlier diagnostics : List Diagnostic}
    (h : (compose options unit).outcome earlier = (.ok composed, diagnostics)) :
    (composed.fragments.map Fragment.name).Nodup := by
  obtain ⟨tables, outputs, hcontributions, hfragments⟩ := exists_contributions h
  have hlookup : ∀ {role element}, Role.nameFor role element ≠ enumDecode.name :=
    nameFor_ne fun role => by
    cases role <;> decide
  have hcheck : ∀ {role element}, Role.nameFor role element ≠ checkKeys.name := nameFor_ne fun role => by
    cases role <;> decide
  have hsupport : enumDecode.name ≠ checkKeys.name := by decide
  rw [hfragments]
  -- a name that two fragments have is one for a role, or one of the two names of supporting code
  refine nodup_names_distinctFragments fun fragment hfragment other hother hname => ?_
  rcases hcontributions.exists_declares hcustoms hunique hfragment with
    ⟨a, ha, role, hdeclares⟩ | rfl | rfl <;>
    rcases hcontributions.exists_declares hcustoms hunique hother with
      ⟨b, hb, role', hdeclares'⟩ | rfl | rfl
  · exact text_eq_of_declares hcustoms hunique hclash ha hb hdeclares hdeclares' hname
  · exact absurd (hdeclares.name.symm.trans hname) hlookup
  · exact absurd (hdeclares.name.symm.trans hname) hcheck
  · exact absurd (hdeclares'.name.symm.trans hname.symm) hlookup
  · rfl
  · exact absurd hname hsupport
  · exact absurd (hdeclares'.name.symm.trans hname.symm) hcheck
  · exact absurd hname.symm hsupport
  · rfl

end

/-- Names that differ in more than the case of the first letter do not clash. -/
theorem names_nodup_paint :
    let options : GenerationOptions :=
      ⟨.object [("createPerFieldToJson", .bool true)], [], "./paint.g.js", false⟩
    let color : EnumModel := .mk "Color" [.string "red"]
    let paint : AnnotatedClass :=
      ⟨⟨"Paint", [⟨"color", "Color", false, false, true, true⟩], [], [], none⟩, .undefined,
        .undefined⟩
    let point : AnnotatedClass := ⟨⟨"Point", [], [], [], none⟩, .undefined, .undefined⟩
    let unit : SourceUnit := ⟨"paint.js", [], [.enum color, .class paint, .class point], [], none, []⟩
    ∃ composed diagnostics, options.customs = [] ∧ (unit.elements.map Element.name).Nodup ∧
      (∀ a ∈ unit.elements, ∀ b ∈ unit.elements, a.name ≠ b.name → ¬ Clash options.defaults a b) ∧
      (compose options unit).outcome [] = (.ok composed, diagnostics) ∧ composed.fragments.length = 8 ∧
      (composed.fragments.map Fragment.name).Nodup := by
  intro options color paint point unit
  have hunique : (unit.elements.map Element.name).Nodup := by decide
  have hapart : ∀ a ∈ unit.elements.map Element.name, ∀ b ∈ unit.elements.map Element.name, a ≠ b →
      a.lowerFirst ≠ b.lowerFirst ∧ a.lowerFirst ≠ b.lowerFirst ++ "PerField" := by
    decide +kernel
  have hclash : ∀ a ∈ unit.elements, ∀ b ∈ unit.elements, a.name ≠ b.name →
      ¬ Clash options.defaults a b := by
    intro a ha b hb hne h
    obtain ⟨hlower, hperField⟩ := hapart _ (List.mem_map_of_mem ha) _ (List.mem_map_of_mem hb) hne
    exact h.lowerFirst.elim hlower hperField
  have hcomposed : ((compose options unit).outcome []).1.toOption.any fun composed =>
      decide (composed.fragments.length = 8) := by
    decide +kernel
  obtain ⟨composed, diagnostics, hrun, hlength⟩ := exists_of_any hcomposed
  exact ⟨composed, diagnostics, rfl, hunique, hclash, hrun, of_decide_eq_true hlength,
    names_nodup rfl hunique hclash hrun⟩

/-- Two classes whose names differ in the case of the first letter have factories of one name. -/
theorem names_repeated :
    let options : GenerationOptions := ⟨.undefined, [], "./point.g.js", false⟩
    let upper : AnnotatedClass := ⟨⟨"Point", [], [], [], none⟩, .undefined, .undefined⟩
    let lower : AnnotatedClass := ⟨⟨"point", [], [], [], none⟩, .undefined, .undefined⟩
    let unit : SourceUnit := ⟨"point.js", [], [.class upper, .class lower], [], none, []⟩
    ∃ composed diagnostics, options.customs = [] ∧ (unit.elements.map Element.name).Nodup ∧
      (compose options unit).outcome [] = (.ok composed, diagnostics) ∧
      ¬ (composed.fragments.map Fragment.name).Nodup := by
  intro options upper lower unit
  have hunique : (unit.elements.map Element.name).Nodup := by decide
  have hcomposed : ((compose options unit).outcome []).1.toOption.any fun composed =>
      decide (¬ (composed.fragments.map Fragment.name).Nodup) := by
    decide +kernel
  obtain ⟨composed, diagnostics, hrun, hrepeated⟩ := exists_of_any hcomposed
  exact ⟨composed, diagnostics, rfl, hunique, hrun, of_decide_eq_true hrepeated⟩

end JsonCompanion
