import JsonCompanion.Proofs.Emit.Requests
import JsonCompanion.Proofs.Emit.Rules
import JsonCompanion.Read.Unit

/-!
# Types that the library supports

* `Supported` tells the types that the library converts by itself: each has a form that it converts,
  and so have the parts that are converted with it.
* `FirstUnsupported` tells the part at which the conversion of any other type stops, from outside in
  and from left to right.
* `convert_settles`: both conversions of a type succeed if it is supported, and both fail at the
  first unsupported part if it is not.
-/

namespace JsonCompanion.Emit

open Collecting

/-- The library converts the type: it has a form that the library converts, and so have all its parts. -/
inductive Supported (conversion : Conversion) : TypeRef → Prop
  | intro {type : TypeRef} {parts : List TypeRef} (hform : Form conversion type parts)
    (hparts : ∀ part ∈ parts, Supported conversion part) : Supported conversion type

/-- The first part of a type, from outside in and from left to right, of no form that the library
converts. -/
inductive FirstUnsupported (conversion : Conversion) : TypeRef → TypeRef → Prop
  | here {type : TypeRef} (hform : ∀ parts, ¬ Form conversion type parts) : FirstUnsupported
      conversion type type
  | inside {type part culprit : TypeRef} {front rest : List TypeRef}
    (hform : Form conversion type (front ++ part :: rest))
      (hfront : ∀ earlier ∈ front, Supported conversion earlier)
    (h : FirstUnsupported conversion part culprit) : FirstUnsupported conversion type culprit

/-- A converter has a result for every expression. -/
def Succeeds (converter : Converter) : Prop := ∀ e, ∃ written, (converter e).HasResult (.ok written)

/-- A converter has no result but a failure. -/
def FailsWith (converter : Converter) (failure : Failure) : Prop :=
  ∀ e, (converter e).HasResult (.error failure)

variable {conversion : Conversion} {direction : Direction} {type part : TypeRef} {parts : List TypeRef}
  {converter : Converter} {failure : Failure}

/-! ### Converters -/

theorem inside_hasResult {body : Text} (h : (converter elementName).HasResult (.ok body)) :
    (inside converter).HasResult (.ok (if body == elementName then none else some body)) :=
  hasResult_bind h (hasResult_pure _)

private theorem IsContainer.succeeds {container : Converter → Converter}
    (hcontainer : IsContainer container) (h : Succeeds converter) : Succeeds (container converter) := by
  intro e
  obtain ⟨body, hbody⟩ := h elementName
  obtain ⟨next, hnext, hwrites⟩ := hcontainer converter e
  obtain ⟨written, hwritten, -⟩ := hwrites (if body == elementName then none else some body)
  refine ⟨written, ?_⟩
  rw [hnext]
  exact hasResult_bind (inside_hasResult hbody) (hwritten ▸ hasResult_pure written)

private theorem IsContainer.failsWith {container : Converter → Converter}
    (hcontainer : IsContainer container) (h : FailsWith converter failure) :
    FailsWith (container converter) failure := by
  intro e
  obtain ⟨next, hnext, -⟩ := hcontainer converter e
  rw [hnext]
  exact hasResult_bind_error (hasResult_bind_error (h elementName))

/-- Strings and numbers can be written. -/
private theorem literals_isOk (element : Text) {values : List Value} (h : values.all isEnumValue) :
    ∃ texts, literals element values = .ok texts := by
  induction values with
  | nil => exact ⟨[], rfl⟩
  | cons value values ih =>
    obtain ⟨hvalue, hvalues⟩ := Bool.and_eq_true_iff.mp h
    obtain ⟨texts, htexts⟩ := ih hvalues
    have hliteral : ∃ text, literal element value = .ok text := by
      cases value with
      | string text => exact ⟨_, rfl⟩
      | number n => exact ⟨_, rfl⟩
      | _ => cases hvalue
    obtain ⟨text, htext⟩ := hliteral
    exact ⟨text :: texts, by rw [literals, htext, htexts]; rfl⟩

/-- The written form of a value that is decoded as one of an enumeration. -/
theorem enumeration_hasResult (direction : Direction) (model : EnumModel) (e : Text) :
    (enumConverter direction model e).HasResult (.ok (match direction with
      | .encode => e
      | .decode =>
        enumDecodeName ++ "(" ++ enumValuesName model.name ++ ", " ++ e ++ ", " ++
          model.name.quote ++ ")")) := by
  cases direction with
  | encode => exact hasResult_pure e
  | decode =>
    obtain ⟨texts, htexts⟩ := literals_isOk model.name model.isEnumValue_values
    have htable : enumValues model = .ok (.constant (enumValuesName model.name)
        ("Object.freeze([" ++ Text.join ", " texts ++ "])")) := by
      rw [enumValues, htexts]
      rfl
    unfold enumConverter
    dsimp only
    rw [htable]
    refine hasResult_bind (hasResult_ofAttempt _) ?_
    refine hasResult_bind (hasResult_add _) ?_
    exact hasResult_bind (hasResult_add _) (hasResult_pure _)

/-- The functions for the arguments of a class are those of the conversions of the element. -/
theorem argumentLambdas_hasResult {types : List TypeRef} {bodies : List Text}
    (h : List.Forall₂
      (fun type body => (convert conversion direction type elementName).HasResult (.ok body))
        types bodies) :
    (argumentLambdas (converters conversion direction types)).HasResult
    (.ok (bodies.map elementLambda)) := by
  induction h with
  | nil => exact hasResult_pure []
  | @cons type body types bodies hfirst _ ih =>
    rw [converters, argumentLambdas]
    exact hasResult_bind hfirst (hasResult_bind ih (hasResult_pure _))

private theorem argumentLambdas_fail {front rest : List TypeRef}
    (hfront : ∀ earlier ∈ front, Succeeds (convert conversion direction earlier))
    (hpart : FailsWith (convert conversion direction part) failure) :
    (argumentLambdas (converters conversion direction (front ++ part :: rest))).HasResult
    (.error failure) := by
  induction front with
  | nil =>
    rw [List.nil_append, converters, argumentLambdas]
    exact hasResult_bind_error (hpart elementName)
  | cons first front ih =>
    obtain ⟨hfirst, hfront⟩ := List.forall_mem_cons.mp hfront
    obtain ⟨body, hbody⟩ := hfirst elementName
    rw [List.cons_append, converters, argumentLambdas]
    exact hasResult_bind hbody (hasResult_bind_error (ih hfront))

/-! ### Rules -/

/-- A rule succeeds if the conversions of all parts do. -/
private theorem Rule.succeeds (h : Rule conversion direction type parts converter)
    (hparts : ∀ part ∈ parts, Succeeds (convert conversion direction part)) : Succeeds converter := by
  cases h with
  | scalar => exact fun e => ⟨_, hasResult_pure _⟩
  | array => exact (isContainer_array direction).succeeds (hparts _ List.mem_cons_self)
  | set => exact (isContainer_set direction).succeeds (hparts _ List.mem_cons_self)
  | record => exact (isContainer_record direction).succeeds (hparts _ List.mem_cons_self)
  | map => exact (isContainer_map direction).succeeds (hparts _ List.mem_cons_self)
  | enumeration => exact fun e => ⟨_, enumeration_hasResult direction _ e⟩
  | parameter => exact fun e => ⟨_, hasResult_pure _⟩
  | ofClass =>
    intro e
    obtain ⟨bodies, hbodies⟩ := exists_results fun part hmem => hparts part hmem elementName
    have hlambdas := argumentLambdas_hasResult hbodies
    cases direction with
    | decode => exact ⟨_, hasResult_bind hlambdas (hasResult_pure _)⟩
    | encode => exact ⟨_, hasResult_bind hlambdas (hasResult_pure _)⟩

/-- A rule fails where the conversion of the first part that fails does. -/
private theorem Rule.failsWith {front rest : List TypeRef} (hsplit : parts = front ++ part :: rest)
    (h : Rule conversion direction type parts converter)
    (hfront : ∀ earlier ∈ front, Succeeds (convert conversion direction earlier))
    (hpart : FailsWith (convert conversion direction part) failure) : FailsWith converter failure := by
  have hmem : part ∈ parts := by simp [hsplit]
  cases h with
  | scalar => cases hmem
  | array => exact (isContainer_array direction).failsWith (List.mem_singleton.mp hmem ▸ hpart)
  | set => exact (isContainer_set direction).failsWith (List.mem_singleton.mp hmem ▸ hpart)
  | record => exact (isContainer_record direction).failsWith (List.mem_singleton.mp hmem ▸ hpart)
  | map => exact (isContainer_map direction).failsWith (List.mem_singleton.mp hmem ▸ hpart)
  | enumeration => cases hmem
  | parameter => cases hmem
  | ofClass =>
    intro e
    rw [hsplit]
    exact hasResult_bind_error (argumentLambdas_fail hfront hpart)

/-! ### Any type -/

/-- Both conversions of a supported type succeed. -/
theorem Supported.succeeds (hcustoms : conversion.customs = []) (h : Supported conversion type) :
    Succeeds (convert conversion direction type) := by
  induction h with
  | intro hform _ ih =>
    intro e
    obtain ⟨converter, hrule, hconvert, -⟩ := convert_of_form hcustoms hform direction
    obtain ⟨written, hwritten⟩ := hrule.succeeds ih e
    rw [hconvert]
    exact ⟨_, hasResult_bind hwritten (hasResult_pure _)⟩

/-- Both conversions fail at the first part that is not supported. -/
theorem FirstUnsupported.failsWith {culprit : TypeRef} (hcustoms : conversion.customs = [])
    (h : FirstUnsupported conversion type culprit) :
    FailsWith (convert conversion direction type)
      (.unsupportedType culprit.text conversion.element) := by
  induction h with
  | here hform =>
    intro e
    rw [convert_of_no_form hcustoms hform]
    exact hasResult_throw _
  | @inside type part culprit front rest hform hfront _ ih =>
    intro e
    obtain ⟨converter, hrule, hconvert, -⟩ := convert_of_form hcustoms hform direction
    have hearlier : ∀ earlier ∈ front, Succeeds (convert conversion direction earlier) :=
      fun earlier hmem => (hfront earlier hmem).succeeds hcustoms
    rw [hconvert]
    exact hasResult_bind_error (hrule.failsWith rfl hearlier ih e)

/-- A type that is not supported has a first part that is not. -/
theorem exists_firstUnsupported (type : TypeRef) (h : ¬ Supported conversion type) :
    ∃ culprit, FirstUnsupported conversion type culprit := by
  induction type using TypeRef.inductionOnArgs with
  | _ type ih =>
    by_cases hform : ∃ parts, Form conversion type parts
    · obtain ⟨parts, hform⟩ := hform
      have hparts : ¬ ∀ part ∈ parts, Supported conversion part := fun hparts => h (.intro hform hparts)
      obtain ⟨front, part, rest, rfl, hfront, hpart⟩ := exists_first hparts
      obtain ⟨culprit, hculprit⟩ := ih part (hform.mem_args (by simp)) hpart
      exact ⟨culprit, .inside hform hfront hculprit⟩
    · exact ⟨type, .here (not_exists.mp hform)⟩

/-- Both conversions of a type succeed, whatever the expression, if the type is supported.  If it is
not, both fail with the text of the first part that is not. -/
theorem convert_settles {conversion : Conversion} (hcustoms : conversion.customs = []) (type : TypeRef) :
    (∀ direction e, (∃ written, (convert conversion direction type e).HasResult (.ok written)) ↔
      Supported conversion type) ∧
    (¬ Supported conversion type → ∃ culprit, FirstUnsupported conversion type culprit ∧ ∀ direction e,
      (convert conversion direction type e).HasResult
        (.error (.unsupportedType culprit.text conversion.element))) := by
  have hfails (h : ¬ Supported conversion type) : ∃ culprit, FirstUnsupported conversion type culprit ∧
      ∀ direction, FailsWith (convert conversion direction type)
        (.unsupportedType culprit.text conversion.element) := by
    obtain ⟨culprit, hculprit⟩ := exists_firstUnsupported type h
    exact ⟨culprit, hculprit, fun _ => hculprit.failsWith hcustoms⟩
  refine ⟨fun direction e => ⟨?_, fun h => h.succeeds hcustoms e⟩, hfails⟩
  rintro ⟨written, hwritten⟩
  refine Classical.byContradiction fun hnot => ?_
  obtain ⟨culprit, -, herror⟩ := hfails hnot
  cases (hwritten []).symm.trans (herror direction e [])

/-- Boxes of a colour and of a promise: the colour may be null, but promises are refused in both
directions. -/
theorem convert_settles_boxes :
    let color : EnumModel := .mk "Color" [.string "red", .string "green"]
    let conversion : Conversion := ⟨⟨"Store.boxes", ["T"], true, [color]⟩, []⟩
    let promise : TypeRef := ⟨"Promise", [.plain "T"], false, "Promise<T>"⟩
    let box : TypeRef := ⟨"Box", [⟨"Color", [], true, "Color | null"⟩, promise], true,
      "Box<Color | null, Promise<T>> | null"⟩
    let boxes : TypeRef :=
      ⟨"Map", [.plain "string", box], false, "Map<string, Box<Color | null, Promise<T>> | null>"⟩
    conversion.customs = [] ∧ ¬ Supported conversion boxes ∧
      ∀ direction e, (convert conversion direction boxes e).HasResult
        (.error (.unsupportedType "Promise<T>" "Store.boxes")) := by
  intro color conversion promise box boxes
  have hcustoms : conversion.customs = [] := rfl
  obtain ⟨hsucceeds, hfails⟩ := convert_settles hcustoms boxes
  have hrun : ((convert conversion .encode boxes "v").outcome []).1 =
    .error (.unsupportedType "Promise<T>" "Store.boxes") := rfl
  have hnot : ¬ Supported conversion boxes := by
    intro hsupported
    obtain ⟨written, hwritten⟩ := (hsucceeds .encode "v").mpr hsupported
    cases (hwritten []).symm.trans hrun
  obtain ⟨culprit, -, herror⟩ := hfails hnot
  have htext : culprit.text = "Promise<T>" :=
    (Failure.unsupportedType.inj (Except.error.inj ((herror .encode "v" []).symm.trans hrun))).1
  rw [htext] at herror
  exact ⟨hcustoms, hnot, herror⟩

end JsonCompanion.Emit
