import JsonCompanion.Proofs.Emit.Rewriting
import JsonCompanion.Proofs.Types.Grammar

/-!
# Conversions that change nothing

* `PassesThrough` tells the types whose values are passed through as they are, in each direction.
* `IsLevelOf` and `IsGuarded` say what the levels of nesting of a conversion are, and how each is
  guarded against null.
* `convert_passesThrough`: the conversion of a type is the expression itself exactly if the type is
  passed through, and at every level of nesting it is guarded against null exactly if that level may
  be null and is changed.
-/

namespace JsonCompanion.Emit

open Collecting

/-- The types without arguments that are passed through. -/
def passedScalars : Direction → List String
  | .decode => ["unknown", "any", "object", "boolean"]
  | .encode => ["unknown", "any", "object", "string", "number", "boolean"]

/-- The values of a type are passed through as they are. -/
inductive PassesThrough (conversion : Conversion) : Direction → TypeRef → Prop
  | scalar {direction : Direction} {type : TypeRef} (hargs : type.args = [])
    (hname : isOneOf type.name (passedScalars direction)) : PassesThrough conversion direction type
  | parameter {direction : Direction} {type : TypeRef} (hnames : NamesParameter conversion type)
    (hcallbacks : conversion.usesCallbacks = false) : PassesThrough conversion direction type
  | enumeration {type : TypeRef} (hnames : NamesEnumeration conversion type) : PassesThrough
      conversion .encode type
  | array {type element : TypeRef} (hargs : type.args = [element])
    (hname : isOneOf type.name ["Array", "ReadonlyArray"])
      (h : PassesThrough conversion .encode element) :
    PassesThrough conversion .encode type
  | record {type key value : TypeRef} (hargs : type.args = [key, value]) (hkey : IsTextKey key)
    (hname : isOneOf type.name ["Record"]) (h : PassesThrough conversion .encode value) :
    PassesThrough conversion .encode type

/-- A level of nesting in the conversion of a type: the type itself, or a level of an argument that
is converted with it. -/
inductive IsLevelOf : TypeRef → TypeRef → Prop
  | outer {type : TypeRef} : IsLevelOf type type
  | inner {level arg type : TypeRef} (harg : arg ∈ convertedArgs type) (h : IsLevelOf level arg) :
    IsLevelOf level type

/-- The conversion of a type is guarded against null exactly if the type may be null and its
conversion changes the expression, and it holds what is written for the elements inside. -/
def IsGuarded (conversion : Conversion) (direction : Direction) (type : TypeRef) (e : Text) : Prop :=
  ∃ body written, (convert conversion direction { type with nullable := false } e).HasResult (.ok body) ∧
    (convert conversion direction type e).HasResult (.ok written) ∧
    written = (if type.nullable ∧ body ≠ e then nullGuard e ++ body else body) ∧
    (nullGuard e <+: written ↔ type.nullable ∧ body ≠ e) ∧
    ∀ arg ∈ convertedArgs type, ∀ inner,
      (convert conversion direction arg elementName).HasResult (.ok inner) →
      inner = elementName ∨ inner <:+: body

variable {conversion : Conversion} {direction : Direction} {type : TypeRef} {parts : List TypeRef}
  {converter : Converter} {e written : Text}

/-! ### Types that are passed through -/

theorem passesThrough_plain_iff (hargs : type.args = []) : PassesThrough conversion direction type ↔
    isOneOf type.name (passedScalars direction) ∨
      (NamesParameter conversion type ∧ conversion.usesCallbacks = false) ∨
      (direction = .encode ∧ NamesEnumeration conversion type) := by
  constructor
  · intro h
    cases h with
    | scalar _ hname => exact .inl hname
    | parameter hnames hcallbacks => exact .inr (.inl ⟨hnames, hcallbacks⟩)
    | enumeration hnames => exact .inr (.inr ⟨rfl, hnames⟩)
    | array hargs' => cases hargs.symm.trans hargs'
    | record hargs' => cases hargs.symm.trans hargs'
  · rintro (hname | ⟨hnames, hcallbacks⟩ | ⟨rfl, hnames⟩)
    · exact .scalar hargs hname
    · exact .parameter hnames hcallbacks
    · exact .enumeration hnames

theorem passesThrough_element_iff {element : TypeRef} (hargs : type.args = [element]) :
    PassesThrough conversion direction type ↔
      direction = .encode ∧ isOneOf type.name ["Array", "ReadonlyArray"] ∧
        PassesThrough conversion .encode element := by
  constructor
  · intro h
    cases h with
    | scalar hargs' => cases hargs.symm.trans hargs'
    | parameter hnames => cases hargs.symm.trans hnames.1
    | enumeration hnames => cases hargs.symm.trans hnames.1
    | array hargs' hname h =>
      obtain rfl := List.singleton_inj.mp (hargs'.symm.trans hargs)
      exact ⟨rfl, hname, h⟩
    | record hargs' => cases hargs.symm.trans hargs'
  · rintro ⟨rfl, hname, h⟩
    exact .array hargs hname h

theorem passesThrough_value_iff {key value : TypeRef} (hargs : type.args = [key, value])
    (hkey : IsTextKey key) :
    PassesThrough conversion direction type ↔
      direction = .encode ∧ isOneOf type.name ["Record"] ∧ PassesThrough conversion .encode value := by
  constructor
  · intro h
    cases h with
    | scalar hargs' => cases hargs.symm.trans hargs'
    | parameter hnames => cases hargs.symm.trans hnames.1
    | enumeration hnames => cases hargs.symm.trans hnames.1
    | array hargs' => cases hargs.symm.trans hargs'
    | record hargs' _ hname h =>
      obtain ⟨rfl, rfl⟩ : _ ∧ _ := by simpa using hargs'.symm.trans hargs
      exact ⟨rfl, hname, h⟩
  · rintro ⟨rfl, hname, h⟩
    exact .record hargs hkey hname h

theorem namesScalar_of_passed (hargs : type.args = [])
    (hname : isOneOf type.name (passedScalars direction)) :
    NamesScalar type := by
  obtain ⟨other, hmem, heq⟩ := isOneOf_iff.mp hname
  have hknown : passedScalars direction ⊆ scalarTypes := by cases direction <;> decide
  exact ⟨hargs, isOneOf_iff.mpr ⟨other, hknown hmem, heq⟩⟩

theorem not_passesThrough_class (hclass : isConvertibleName type.name) (hscalar : ¬ NamesScalar type)
    (henum : ¬ NamesEnumeration conversion type) (hparameter : ¬ NamesParameter conversion type) :
    ¬ PassesThrough conversion direction type := by
  intro h
  cases h with
  | scalar hargs hname => exact hscalar (namesScalar_of_passed hargs hname)
  | parameter hnames => exact hparameter hnames
  | enumeration hnames => exact henum hnames
  | array _ hname =>
      simp [not_isOneOf_of_convertible hclass ["Array", "ReadonlyArray"] (by decide)] at hname
  | record _ _ hname => simp [not_isOneOf_of_convertible hclass ["Record"] (by decide)] at hname

/-! ### Rules -/

/-- A known type without arguments is written as it is, or between other texts. -/
private theorem scalar?_writes {name : Text} {write : Text → Text}
    (h : scalar? direction name = some write) (e : Text) :
    isOneOf name (passedScalars direction) = true ∧ write e = e ∨
      isOneOf name (passedScalars direction) = false ∧ Rewritten e (write e) := by
  unfold scalar? at h
  split_ifs at h with hidentity hname hname hname hname hname hname <;> cases h
  · rw [Bool.or_eq_true, Bool.or_eq_true, beq_iff_eq, beq_iff_eq, beq_iff_eq] at hidentity
    refine .inl ⟨?_, by cases direction <;> rfl⟩
    rcases hidentity with (rfl | rfl) | rfl <;> cases direction <;> rfl
  all_goals
    rw [beq_iff_eq] at hname
    subst hname
    cases direction
  · exact .inr ⟨rfl, rewritten_around "String(" ")" rfl (by decide) (by decide)⟩
  · exact .inl ⟨rfl, rfl⟩
  · exact .inr ⟨rfl, rewritten_around "Number(" ")" rfl (by decide) (by decide)⟩
  · exact .inl ⟨rfl, rfl⟩
  · exact .inl ⟨rfl, rfl⟩
  · exact .inl ⟨rfl, rfl⟩
  · exact .inr ⟨rfl, rewritten_around "BigInt(" ")" rfl (by decide) (by decide)⟩
  · exact .inr ⟨rfl, .inl ⟨"toString()", rfl⟩⟩
  · exact .inr ⟨rfl, rewritten_around "new Date(" ")" rfl (by decide) (by decide)⟩
  · exact .inr ⟨rfl, .inl ⟨"toISOString()", rfl⟩⟩
  · exact .inr ⟨rfl, rewritten_around "new URL(" ")" rfl (by decide) (by decide)⟩
  · exact .inr ⟨rfl, .inl ⟨"toString()", rfl⟩⟩

/-- What a rule writes. -/
private theorem Rule.renders (hnamed : type.IsNamed)
    (h : Rule conversion direction type parts converter) {bodies : List Text}
    (hbodies : List.Forall₂
      (fun part body => (convert conversion direction part elementName).HasResult (.ok body) ∧
        (body = elementName ↔ PassesThrough conversion direction part)) parts bodies) (e : Text) :
    ∃ written, (converter e).HasResult (.ok written) ∧
      Renders (PassesThrough conversion direction type) bodies e written := by
  have hdotted (hargs : type.args = []) : type.name.isDotted :=
    (TypeRef.isNamed_iff.mp hnamed).1.resolve_right fun hunion => hunion.2 hargs
  cases h with
  | @scalar write hargs hwrite =>
    cases hbodies
    have hscalar : NamesScalar type := ⟨hargs, by rw [← scalar?_isSome direction, hwrite]; rfl⟩
    have hpasses : PassesThrough conversion direction type ↔
        isOneOf type.name (passedScalars direction) := by
      rw [passesThrough_plain_iff hargs]
      refine ⟨fun h => ?_, .inl⟩
      rcases h with hname | ⟨hnames, -⟩ | ⟨-, hnames⟩
      · exact hname
      · exact absurd hscalar hnames.2.1
      · exact absurd hscalar hnames.2.1
    refine ⟨write e, hasResult_pure _, renders_plain ?_⟩
    rw [hpasses, Bool.not_eq_true]
    exact scalar?_writes hwrite e
  | @enumeration model hnames hmodel hname =>
    cases hbodies
    have hresult := enumeration_hasResult direction model e
    cases direction with
    | encode => exact ⟨e, hresult, renders_plain (.inl ⟨.enumeration hnames, rfl⟩)⟩
    | decode =>
      refine ⟨_, hresult, renders_plain (.inr ⟨fun hpasses => ?_, ?_⟩)⟩
      · rcases (passesThrough_plain_iff hnames.1).mp hpasses with
          hscalar | ⟨hparameter, -⟩ | ⟨hdirection, -⟩
        · exact hnames.2.1 (namesScalar_of_passed hnames.1 hscalar)
        · exact hparameter.2.2.1 hnames
        · cases hdirection
      · exact enumeration_rewritten (hname ▸ hdotted hnames.1) e
  | parameter hnames =>
    cases hbodies
    refine ⟨_, hasResult_pure _, renders_plain ?_⟩
    cases hcallbacks : conversion.usesCallbacks with
    | false => exact .inl ⟨.parameter hnames hcallbacks, rfl⟩
    | true =>
      refine .inr ⟨fun hpasses => ?_, callback_rewritten (hdotted hnames.1) e⟩
      rcases (passesThrough_plain_iff hnames.1).mp hpasses with hscalar | ⟨-, hnone⟩ | ⟨-, henum⟩
      · exact hnames.2.1 (namesScalar_of_passed hnames.1 hscalar)
      · cases hcallbacks.symm.trans hnone
      · exact hnames.2.2.1 henum
  | @array element hargs hname =>
    rcases hbodies with _ | ⟨⟨hbody, hpasses⟩, _ | _⟩
    refine array_renders hbody ?_ e
    rw [passesThrough_element_iff hargs]
    constructor
    · rintro ⟨rfl, -, h⟩
      exact ⟨rfl, hpasses.mpr h⟩
    · rintro ⟨rfl, hsame⟩
      exact ⟨rfl, hname, hpasses.mp hsame⟩
  | @set element hargs hname =>
    rcases hbodies with _ | ⟨⟨hbody, hpasses⟩, _ | _⟩
    refine set_renders hbody ?_ e
    -- a set is not an array, so that it is rebuilt in both directions
    rw [passesThrough_element_iff hargs, isOneOf_disjoint hname (by decide)]
    simp
  | @record key value hargs hkey hname =>
    rcases hbodies with _ | ⟨⟨hbody, hpasses⟩, _ | _⟩
    refine record_renders hbody ?_ e
    rw [passesThrough_value_iff hargs hkey]
    constructor
    · rintro ⟨rfl, -, h⟩
      exact ⟨rfl, hpasses.mpr h⟩
    · rintro ⟨rfl, hsame⟩
      exact ⟨rfl, hname, hpasses.mp hsame⟩
  | @map key value hargs hkey hname =>
    rcases hbodies with _ | ⟨⟨hbody, hpasses⟩, _ | _⟩
    refine map_renders hbody ?_ e
    rw [passesThrough_value_iff hargs hkey, isOneOf_disjoint hname (by decide)]
    simp
  | ofClass hclass hscalar henum hparameter =>
    have hname : type.name.isDotted := (Bool.and_eq_true_iff.mp hclass).2
    exact class_renders hname (not_passesThrough_class hclass hscalar henum hparameter)
      (hbodies.imp fun _ _ h => h.1) e

/-! ### Any type -/

section

variable (hcustoms : conversion.customs = [])

include hcustoms

/-- What the conversion of a supported type writes, without the guard and with it. -/
theorem convert_renders (direction : Direction) (h : Supported conversion type)
    (hnamed : type.IsNamed) (e : Text) :
    ∃ body bodies,
      (convert conversion direction { type with nullable := false } e).HasResult (.ok body) ∧
      (convert conversion direction type e).HasResult (.ok (guardNull type.nullable e body)) ∧
      Renders (PassesThrough conversion direction type) bodies e body ∧
      List.Forall₂ (fun arg body => (convert conversion direction arg elementName).HasResult (.ok body))
        (convertedArgs type) bodies := by
  induction h generalizing e with
  | @intro type parts hform _ ih =>
    -- a part is written as the element itself exactly if it passes through, with or without a guard
    have hparts : ∀ part ∈ parts, ∃ inner,
        (convert conversion direction part elementName).HasResult (.ok inner) ∧
        (inner = elementName ↔ PassesThrough conversion direction part) := by
      intro part hmem
      have hpart : part.IsNamed := (TypeRef.isNamed_iff.mp hnamed).2 part (hform.mem_args hmem)
      obtain ⟨body, bodies, -, hresult, hrenders, -⟩ := ih part hmem hpart elementName
      refine ⟨_, hresult, ?_⟩
      exact guardNull_eq_self_iff.trans hrenders.eq_self_iff
    obtain ⟨bodies, hbodies⟩ := exists_results hparts
    obtain ⟨converter, hrule, hconvert, hplain⟩ := convert_of_form hcustoms hform direction
    obtain ⟨body, hbody, hrenders⟩ := hrule.renders hnamed hbodies e
    refine ⟨body, bodies, ?_, ?_, hrenders, hform.eq_convertedArgs ▸ hbodies.imp fun _ _ h => h.1⟩
    · rw [hplain]
      exact hbody
    · rw [hconvert]
      exact hasResult_bind hbody (hasResult_pure _)

private theorem convert_eq_self_iff (h : Supported conversion type) (hnamed : type.IsNamed) :
    (convert conversion direction type e).HasResult (.ok e) ↔
      PassesThrough conversion direction type := by
  obtain ⟨body, bodies, -, hresult, hrenders, -⟩ := convert_renders hcustoms direction h hnamed e
  rw [← hrenders.eq_self_iff, ← @guardNull_eq_self_iff e type.nullable body]
  constructor
  · intro hself
    exact hresult.unique hself
  · intro hsame
    rwa [hsame] at hresult

private theorem isGuarded (h : Supported conversion type) (hnamed : type.IsNamed) :
    IsGuarded conversion direction type e := by
  obtain ⟨body, bodies, hbody, hresult, hrenders, hbodies⟩ :=
    convert_renders hcustoms direction h hnamed e
  have hwritten : guardNull type.nullable e body =
      if type.nullable ∧ body ≠ e then nullGuard e ++ body else body := by
    unfold guardNull nullGuard
    cases type.nullable <;> by_cases hsame : body = e <;> simp [hsame]
  refine ⟨body, _, hbody, hresult, hwritten, ?_, fun arg harg inner hinner => ?_⟩
  · rw [hwritten]
    split
    · next hguarded => exact iff_of_true (List.prefix_append _ _) hguarded
    · next hunguarded =>
      refine iff_of_false (fun hprefix => ?_) hunguarded
      by_cases hpasses : PassesThrough conversion direction type
      · have hlength := hprefix.length_le
        have hguard : 0 < (" == null ? null : " : Text).length := by decide
        rw [hrenders.itself hpasses, nullGuard, List.length_append] at hlength
        omega
      · exact (hrenders.rewritten hpasses).not_guarded hprefix
  · obtain ⟨found, hmem, hfound⟩ := exists_of_mem_left hbodies harg
    exact hfound.unique hinner ▸ hrenders.holds found hmem

end

/-- Every level of a supported type is supported. -/
theorem IsLevelOf.supported {level : TypeRef} (hlevel : IsLevelOf level type)
    (h : Supported conversion type) (hnamed : type.IsNamed) :
    Supported conversion level ∧ level.IsNamed := by
  induction hlevel with
  | outer => exact ⟨h, hnamed⟩
  | inner harg _ ih =>
    cases h with
    | intro hform hparts =>
      refine ih (hparts _ (hform.eq_convertedArgs ▸ harg)) ?_
      exact (TypeRef.isNamed_iff.mp hnamed).2 _ (mem_args_of_converted harg)

/-- The conversion of a supported type is the expression itself exactly if the type is passed
through; every level of nesting is guarded against null exactly if it may be null and its conversion
changes something. -/
theorem convert_passesThrough {conversion : Conversion} {text element : Text} {type : TypeRef}
    (hcustoms : conversion.customs = []) (hparse : TypeRef.parse text element = .ok type)
    (hsupported : Supported conversion type) :
    (∀ direction e, (convert conversion direction type e).HasResult (.ok e) ↔
      PassesThrough conversion direction type) ∧
    ∀ level, IsLevelOf level type → ∀ direction e, IsGuarded conversion direction level e := by
  have hnamed : type.IsNamed := TypeRef.parse_isNamed hparse
  refine ⟨fun direction e => convert_eq_self_iff hcustoms hsupported hnamed, ?_⟩
  intro level hlevel direction e
  obtain ⟨hlevelSupported, hlevelNamed⟩ := hlevel.supported hsupported hnamed
  exact isGuarded hcustoms hlevelSupported hlevelNamed

/-- A record of lists of colours is passed through when it is encoded but not when it is decoded,
where each colour is guarded. -/
theorem convert_passesThrough_colors :
    let conversion : Conversion := ⟨⟨"Store.colors", [], false, [.mk "Color" [.string "red"]]⟩, []⟩
    let color : TypeRef := ⟨"Color", [], true, "Color | null"⟩
    let colors : TypeRef := ⟨"Record", [.plain "string", .applied "Array" [color]], true,
      "Record<string, Array<Color | null>> | null"⟩
    conversion.customs = [] ∧
      TypeRef.parse "Record<string, Array<Color | null>> | null" "Store.colors" = .ok colors ∧
      Supported conversion colors ∧ (∀ e, (convert conversion .encode colors e).HasResult (.ok e)) ∧
      (∀ e, ¬ (convert conversion .decode colors e).HasResult (.ok e)) ∧ IsLevelOf color colors ∧
      IsGuarded conversion .decode color elementName := by
  intro conversion color colors
  have hparse : TypeRef.parse "Record<string, Array<Color | null>> | null" "Store.colors" = .ok colors :=
    TypeRef.parse_eq_ok_iff.mpr
      ⟨.union (.plain (.applied "Record" (.more (.single (.plain (.name "string")))
      (.single (.single (.plain (.applied "Array" (.single (.union (.plain (.name "Color"))
        (.single (.plain (.name "null")))))))))))) (.single (.plain (.name "null"))),
      TypeRef.tokens?_eq_some_iff.mp rfl, rfl⟩
  have hmodel : ∃ model ∈ conversion.enums, model.name = color.name :=
    ⟨_, List.mem_singleton.mpr rfl, rfl⟩
  have hcolor : Supported conversion color := .intro (.enumeration rfl hmodel) (List.forall_mem_nil _)
  have harray : Supported conversion (.applied "Array" [color]) :=
    .intro (.elements rfl rfl) (List.forall_mem_singleton.mpr hcolor)
  have hcolors : Supported conversion colors :=
    .intro (.values rfl ⟨rfl, rfl, rfl⟩ rfl) (List.forall_mem_singleton.mpr harray)
  have hlevel : IsLevelOf color colors :=
    .inner (show .applied "Array" [color] ∈ convertedArgs colors from List.mem_singleton.mpr rfl)
      (.inner (List.mem_singleton.mpr rfl) .outer)
  obtain ⟨hself, hguarded⟩ := convert_passesThrough rfl hparse hcolors
  have hnames : NamesEnumeration conversion color :=
    ⟨rfl, fun hscalar => absurd hscalar.2 (by decide), hmodel⟩
  have hencode : PassesThrough conversion .encode colors :=
    .record rfl ⟨rfl, rfl, rfl⟩ rfl (.array rfl rfl (.enumeration hnames))
  have hdecode : ¬ PassesThrough conversion .decode colors := by
    rw [passesThrough_value_iff rfl ⟨rfl, rfl, rfl⟩]
    exact fun h => nomatch h.1
  exact ⟨rfl, hparse, hcolors, fun e => (hself .encode e).mpr hencode,
    fun e h => hdecode ((hself .decode e).mp h), hlevel, hguarded color hlevel .decode elementName⟩

/-- A type parameter that has the name of a known type is not passed through. -/
theorem parameter_not_passed :
    let conversion : Conversion := ⟨⟨"Box.date", ["Date"], false, []⟩, []⟩
    let type : TypeRef := .plain "Date"
    TypeRef.parse "Date" "Box.date" = .ok type ∧ Supported conversion type ∧
      type.args = [] ∧ type.name ∈ conversion.typeParameters ∧ conversion.usesCallbacks = false ∧
      ¬ (convert conversion .encode type "v").HasResult (.ok "v") ∧
      ¬ (convert conversion .decode type "v").HasResult (.ok "v") := by
  intro conversion type
  have hparse : TypeRef.parse "Date" "Box.date" = .ok type :=
    TypeRef.parse_eq_ok_iff.mpr
      ⟨.single (.plain (.name "Date")), TypeRef.tokens?_eq_some_iff.mp rfl, rfl⟩
  have hsupported : Supported conversion type := .intro (.scalar rfl rfl) (List.forall_mem_nil _)
  have hencode : (convert conversion .encode type "v").HasResult (.ok "v.toISOString()") := fun _ => rfl
  have hdecode : (convert conversion .decode type "v").HasResult (.ok "new Date(v)") := fun _ => rfl
  refine ⟨hparse, hsupported, rfl, List.mem_singleton.mpr rfl, rfl, fun h => ?_, fun h => ?_⟩
  · exact absurd (hencode.unique h) (by decide)
  · exact absurd (hdecode.unique h) (by decide)

end JsonCompanion.Emit
