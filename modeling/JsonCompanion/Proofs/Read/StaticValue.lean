import JsonCompanion.Proofs.Data.Static
import JsonCompanion.Script.Grammar

/-!
# The language of static data

Which expressions are data, what they denote, and which part of another expression is told to be none.

* `Expr.IsAtom` lists the atoms with their values, and `Key.Spells` the keys that are known.
* `Expr.Denotes` says what arrays and objects of data denote; the record of an object holds what is
  written in it.
* `Expr.FirstFault` gives the path to the first part that is no data, from left to right, and what
  is wrong with it.
* `Expr.value_settles`: an expression has the value that it denotes, and is refused for its first
  fault otherwise.
-/

namespace JsonCompanion.Script

/-! ### Atoms -/

/-- Atoms with their values.  Signs apply to numbers only, and a template has the texts of atoms
between its chunks. -/
inductive Expr.IsAtom : Expr → Value → Prop
  | string (value : Text) : IsAtom (.string value) (.string value)
  | number (value : Number) : IsAtom (.number value) (.number value)
  | bigint (value : Int) : IsAtom (.bigint value) (.bigint value)
  | bool (value : Bool) : IsAtom (.bool value) (.bool value)
  | null : IsAtom .null .null
  | regex (literal : RegexLiteral) : IsAtom (.regex literal) (.regex literal.inOrder)
  | undefined : IsAtom (.name "undefined") .undefined
  | nan : IsAtom (.name "NaN") (.number .nan)
  | infinity : IsAtom (.name "Infinity") (.number (.infinity false))
  | void {operand : Expr} {v : Value} (h : IsAtom operand v) : IsAtom (.unary .void operand) .undefined
  | minus {operand : Expr} {n : Number} (h : IsAtom operand (.number n)) :
    IsAtom (.unary .minus operand) (.number n.negate)
  | minusInteger {operand : Expr} {n : Int} (h : IsAtom operand (.bigint n)) :
    IsAtom (.unary .minus operand) (.bigint (-n))
  | plus {operand : Expr} {n : Number} (h : IsAtom operand (.number n)) : IsAtom
      (.unary .plus operand) (.number n)
  | template (chunks : List Text) {parts : List Expr} {values : List Value}
      (h : List.Forall₂ IsAtom parts values) :
    IsAtom (.template chunks parts) (.string (interleave chunks (values.filterMap Value.text?)))

private theorem isAtom_name_iff {constant : Text} {v : Value} :
    (Expr.name constant).IsAtom v ↔ constantOf? constant = some v := by
  constructor
  · intro h
    cases h with
    | undefined | nan | infinity => rfl
  · intro h
    unfold constantOf? at h
    split at h
    · next hname =>
      obtain rfl := eq_of_beq hname
      exact Option.some.inj h ▸ .undefined
    · split at h
      · next hname =>
        obtain rfl := eq_of_beq hname
        exact Option.some.inj h ▸ .nan
      · split at h
        · next hname =>
          obtain rfl := eq_of_beq hname
          exact Option.some.inj h ▸ .infinity
        · cases h

/-- An atom can be put into a text. -/
private theorem isSome_text? {e : Expr} {v : Value} (h : e.atom? = some v) :
    ∃ text, v.text? = some text := by
  cases e with
  | string | number | bigint | bool | null | regex => exact Option.some.inj h ▸ ⟨_, rfl⟩
  | name constant =>
    cases isAtom_name_iff.2 h with
    | undefined | nan | infinity => exact ⟨_, rfl⟩
  | unary op operand =>
    obtain ⟨value, -, hop⟩ := Option.bind_eq_some_iff.1 h
    unfold UnaryOp.apply? at hop
    split at hop
    case h_5 => cases hop
    all_goals exact Option.some.inj hop ▸ ⟨_, rfl⟩
  | template chunks parts =>
    obtain ⟨texts, -, htext⟩ := Option.bind_eq_some_iff.1 h
    exact Option.some.inj htext ▸ ⟨_, rfl⟩
  | _ => cases h

mutual

/-- Atoms are read as such. -/
theorem Expr.isAtom_iff : ∀ (e : Expr) {v : Value}, e.IsAtom v ↔ e.atom? = some v
  | .string _, v | .number _, v | .bigint _, v | .bool _, v | .null, v | .regex .., v => by
    constructor
    · rintro ⟨⟩
      rfl
    · intro h
      exact Option.some.inj h ▸ by constructor
  | .name constant, v => isAtom_name_iff
  | .unary op operand, v => by
    have ih {value : Value} := Expr.isAtom_iff operand (v := value)
    constructor
    · intro h
      refine Option.bind_eq_some_iff.2 ?_
      cases h with
      | void h | minus h | minusInteger h | plus h => exact ⟨_, ih.1 h, rfl⟩
    · intro h
      obtain ⟨value, hvalue, hop⟩ := Option.bind_eq_some_iff.1 h
      have hatom := ih.2 hvalue
      -- one rule for each operator and kind of operand that it takes
      unfold UnaryOp.apply? at hop
      split at hop
      · exact Option.some.inj hop ▸ .void hatom
      · exact Option.some.inj hop ▸ .minus hatom
      · exact Option.some.inj hop ▸ .minusInteger hatom
      · exact Option.some.inj hop ▸ .plus hatom
      · cases hop
  | .template chunks parts, v => by
    constructor
    · rintro ⟨⟩
      next values h =>
      exact Option.bind_eq_some_iff.2 ⟨_, (Expr.areAtoms_iff parts).1 ⟨values, h, rfl⟩, rfl⟩
    · intro h
      obtain ⟨texts, htexts, htext⟩ := Option.bind_eq_some_iff.1 h
      obtain ⟨values, hvalues, rfl⟩ := (Expr.areAtoms_iff parts).2 htexts
      exact Option.some.inj htext ▸ .template chunks hvalues
  | .array _, v | .object _, v | .this, v | .superObject, v | .member .., v | .call .., v
  | .assign .., v | .privateName _, v | .construction .., v | .binary .., v
  | .conditional .., v | .arrow .., v | .runtime _, v => by
    constructor
    · rintro ⟨⟩
    · intro h
      cases h

/-- The texts of atoms are those of their values. -/
theorem Expr.areAtoms_iff : ∀ (parts : List Expr) {texts : List Text},
    (∃ values, List.Forall₂ Expr.IsAtom parts values ∧ values.filterMap Value.text? = texts) ↔
      Expr.atomTexts? parts = some texts
  | [], texts => by
    constructor
    · rintro ⟨_, ⟨⟩, rfl⟩
      rfl
    · intro h
      exact ⟨[], .nil, Option.some.inj h⟩
  | part :: parts, texts => by
    constructor
    · rintro ⟨_, hatoms, rfl⟩
      obtain _ | ⟨hfirst, hrest⟩ := hatoms
      have hvalue := (Expr.isAtom_iff part).1 hfirst
      obtain ⟨text, htext⟩ := isSome_text? hvalue
      have hmore := (Expr.areAtoms_iff parts).1 ⟨_, hrest, rfl⟩
      rw [Expr.atomTexts?, hvalue, hmore, List.filterMap_cons_some htext]
      simp only [htext, Option.bind_eq_bind, Option.bind_some]
    · intro h
      obtain ⟨value, hvalue, h⟩ := Option.bind_eq_some_iff.1 h
      obtain ⟨text, htext, h⟩ := Option.bind_eq_some_iff.1 h
      obtain ⟨more, hmore, h⟩ := Option.bind_eq_some_iff.1 h
      obtain ⟨values, hvalues, rfl⟩ := (Expr.areAtoms_iff parts).2 hmore
      refine ⟨value :: values, .cons ((Expr.isAtom_iff part).2 hvalue) hvalues, ?_⟩
      rw [List.filterMap_cons_some htext]
      exact Option.some.inj h

end

/-! ### Data -/

/-- Atoms that are keys, with their texts. -/
inductive Expr.IsKey : Expr → Text → Prop
  | string {e : Expr} {text : Text} (h : e.IsAtom (.string text)) : IsKey e text
  | number {e : Expr} {n : Number} (h : e.IsAtom (.number n)) : IsKey e n.text

/-- Keys that are known without running the script, with their texts. -/
inductive Key.Spells : Key → Text → Prop
  | label (name : Text) : Spells (.label name) name
  | literal {e : Expr} {text : Text} (h : e.IsKey text) : Spells (.literal e) text
  | computed {e : Expr} {text : Text} (h : e.IsKey text) : Spells (.computed e) text

mutual

/-- What expressions of data denote. -/
inductive Expr.Denotes : Expr → Value → Prop
  | atom {e : Expr} {v : Value} (h : e.IsAtom v) : Expr.Denotes e v
  | array {elements : List Element} {values : List Value} (h : Element.Denote elements values) :
    Expr.Denotes (.array elements) (.array values)
  | object {properties : List Property} {written : List (Text × Value)} {record : Record}
    (h : Property.Write properties written) (hrecord : Record.Holds record written) :
    Expr.Denotes (.object properties) (.object record)

/-- What elements denote one by one; none is a hole or spread. -/
inductive Element.Denote : List Element → List Value → Prop
  | nil : Element.Denote [] []
  | cons {e : Expr} {v : Value} {elements : List Element} {values : List Value} (h : e.Denotes v)
    (hbehind : Element.Denote elements values) : Element.Denote (.item e :: elements) (v :: values)

/-- What the entries of an object write one by one; none is spread or a method, and all keys are
known. -/
inductive Property.Write : List Property → List (Text × Value) → Prop
  | nil : Property.Write [] []
  | cons {key : Key} {text : Text} {e : Expr} {v : Value} {properties : List Property}
      {written : List (Text × Value)}
    (hkey : key.Spells text) (h : e.Denotes v) (hbehind : Property.Write properties written) :
    Property.Write (.entry key e :: properties) ((text, v) :: written)

end

private theorem isKey_iff {e : Expr} {text : Text} :
    e.IsKey text ↔ (Key.literal e).text? = some text := by
  constructor
  · intro h
    unfold Key.text?
    dsimp only
    cases h with
    | string h | number h => rw [(Expr.isAtom_iff e).1 h]
  · intro h
    unfold Key.text? at h
    dsimp only at h
    split at h
    · next value hatom => exact Option.some.inj h ▸ .string ((Expr.isAtom_iff e).2 hatom)
    · next n hatom => exact Option.some.inj h ▸ .number ((Expr.isAtom_iff e).2 hatom)
    · cases h

/-- The text of a key is the one that it spells. -/
theorem Key.spells_iff {key : Key} {text : Text} : key.Spells text ↔ key.text? = some text := by
  cases key with
  | label name =>
    constructor
    · rintro ⟨⟩
      rfl
    · intro h
      exact Option.some.inj h ▸ .label name
  | literal e =>
    constructor
    · rintro ⟨⟩
      next h => exact isKey_iff.1 h
    · exact fun h => .literal (isKey_iff.2 h)
  | computed e =>
    constructor
    · rintro ⟨⟩
      next h => exact isKey_iff.1 h
    · exact fun h => .computed (isKey_iff.2 h)
  | privateName name | missing =>
    constructor
    · rintro ⟨⟩
    · intro h
      cases h

private theorem text?_of_not_spells {key : Key} (h : ∀ text, ¬ key.Spells text) : key.text? = none :=
  Option.eq_none_iff_forall_ne_some.2 fun text htext => h text (Key.spells_iff.2 htext)

/-! ### Places -/

/-- A step from data to a part of it. -/
inductive Step
  | element (index : Nat)
  | property (key : Text)

/-- The label of a part. -/
def Step.label (label : Text) : Step → Text
  | .element index => elementLabel label index
  | .property key => propertyLabel label key

/-- The label at the end of a path. -/
def labelAt (label : Text) (path : List Step) : Text := path.foldl Step.label label

/-- The path to the first part of an expression that is no data, and the reason.  All elements or
properties in front of it are data. -/
inductive Expr.FirstFault : Expr → List Step → Text → Prop
  | atom {e : Expr} (harray : ∀ elements, e ≠ .array elements)
      (hobject : ∀ properties, e ≠ .object properties)
    (h : ∀ v, ¬ e.IsAtom v) : FirstFault e [] (e.kindName ++ " is evaluated at runtime")
  | hole {before behind : List Element} {values : List Value} (hbefore : Element.Denote before values) :
    FirstFault (.array (before ++ .hole :: behind))
      [.element before.length] "array holes are not supported"
  | spreadElement {before behind : List Element} {values : List Value} {e : Expr}
    (hbefore : Element.Denote before values) :
    FirstFault (.array (before ++ .spread e :: behind))
      [.element before.length] "spread elements are not supported"
  | element {before behind : List Element} {values : List Value} {e : Expr} {path : List Step}
      {reason : Text}
    (hbefore : Element.Denote before values) (h : FirstFault e path reason) :
    FirstFault (.array (before ++ .item e :: behind)) (.element before.length :: path) reason
  | spreadProperty {before behind : List Property} {written : List (Text × Value)} {e : Expr}
    (hbefore : Property.Write before written) :
    FirstFault (.object (before ++ .spread e :: behind)) [] "spread elements are not supported"
  | entryKey {before behind : List Property} {written : List (Text × Value)} {key : Key} {e : Expr}
    (hbefore : Property.Write before written) (hkey : ∀ text, ¬ key.Spells text) :
    FirstFault (.object (before ++ .entry key e :: behind)) [] "property keys must be static"
  | methodKey {before behind : List Property} {written : List (Text × Value)} {key : Key}
    (hbefore : Property.Write before written) (hkey : ∀ text, ¬ key.Spells text) :
    FirstFault (.object (before ++ .method key :: behind)) [] "property keys must be static"
  | method {before behind : List Property} {written : List (Text × Value)} {key : Key} {text : Text}
    (hbefore : Property.Write before written) (hkey : key.Spells text) :
    FirstFault (.object (before ++ .method key :: behind))
      [.property text] "methods and accessors are not supported"
  | shorthandDefault {before behind : List Property} {written : List (Text × Value)} {name : Text}
      {e : Expr}
    (hbefore : Property.Write before written) :
    FirstFault (.object (before ++ .shorthandDefault name e :: behind)) [.property name]
      "AssignmentPattern is evaluated at runtime"
  | property {before behind : List Property} {written : List (Text × Value)} {key : Key}
      {text : Text} {e : Expr}
    {path : List Step} {reason : Text} (hbefore : Property.Write before written) (hkey : key.Spells text)
    (h : FirstFault e path reason) :
    FirstFault (.object (before ++ .entry key e :: behind)) (.property text :: path) reason

/-! ### Values of data -/

/-- What an expression that is neither an array nor an object is read as. -/
private theorem value_of_not_atom {e : Expr} (harray : ∀ elements, e ≠ .array elements)
    (hobject : ∀ properties, e ≠ .object properties) (h : ∀ v, ¬ e.IsAtom v) (label : Text) :
    e.value label = .error (dynamicValue label (e.kindName ++ " is evaluated at runtime")) := by
  have hatom : e.atom? = none :=
    Option.eq_none_iff_forall_ne_some.2 fun v hv => h v ((Expr.isAtom_iff e).2 hv)
  rw [Expr.value.eq_3 label e harray hobject, hatom]

mutual

/-- An expression of data has the value that it denotes. -/
theorem Expr.value_of_denotes : ∀ (e : Expr) {v : Value}, e.Denotes v → ∀ label, e.value label = .ok v
  | .array elements, v, h, label => by
    cases h with
    | atom h => cases h
    | array h =>
      have hvalues := Element.values_append elements h label 0 []
      rw [List.append_nil] at hvalues
      rw [Expr.value, hvalues]
      simp [Element.values, Functor.map, Except.map, bind, Except.bind, pure, Except.pure]
  | .object properties, v, h, label => by
    cases h with
    | atom h => cases h
    | object h hrecord =>
      have hwritten := Property.record_append properties h label [] []
      rw [List.append_nil] at hwritten
      rw [Expr.value, hwritten, Record.holds_iff.1 hrecord]
      rfl
  | .name _, _, h, _ | .string _, _, h, _ | .number _, _, h, _ | .bigint _, _, h, _
  | .bool _, _, h, _ | .null, _, h, _ | .regex .., _, h, _ | .template .., _, h, _
  | .unary .., _, h, _ | .this, _, h, _ | .superObject, _, h, _ | .member .., _, h, _
  | .call .., _, h, _ | .assign .., _, h, _ | .privateName _, _, h, _ | .construction .., _, h, _
  | .binary .., _, h, _ | .conditional .., _, h, _ | .arrow .., _, h, _ | .runtime _, _, h, _ => by
    cases h with
    | atom h => exact Expr.value_of_atom? ((Expr.isAtom_iff _).1 h)

/-- Elements of data are read one by one. -/
theorem Element.values_append :
    ∀ (elements : List Element) {values : List Value}, Element.Denote elements values →
    ∀ label index behind, Element.values label index (elements ++ behind) =
      (values ++ ·) <$> Element.values label (index + elements.length) behind
  | [], _, h, label, index, behind => by
    cases h
    rw [List.nil_append, List.length_nil, Nat.add_zero]
    cases Element.values label index behind with
    | _ => rfl
  | .hole :: _, _, h, _, _, _ | .spread _ :: _, _, h, _, _, _ => by cases h
  | .item e :: elements, _, h, label, index, behind => by
    cases h with
    | cons h hbehind =>
      have hfirst := Expr.value_of_denotes e h (elementLabel label index)
      have hrest := Element.values_append elements hbehind label (index + 1) behind
      rw [List.cons_append, Element.values, hfirst, hrest, List.length_cons,
        Nat.add_right_comm index 1, ← Nat.add_assoc]
      cases Element.values label (index + elements.length + 1) behind with
      | _ => rfl

/-- Properties of data are written one by one. -/
theorem Property.record_append : ∀ (properties : List Property) {written : List (Text × Value)},
    Property.Write properties written → ∀ label record behind,
      Property.record label record (properties ++ behind) =
      Property.record label
        (written.foldl (fun record (key, value) => Record.insert record key value) record) behind
  | [], _, h, _, _, _ => by
    cases h
    rfl
  | .spread _ :: _, _, h, _, _, _ | .method _ :: _, _, h, _, _, _
  | .shorthandDefault .. :: _, _, h, _, _, _ => by cases h
  | .entry key e :: properties, _, h, label, record, behind => by
    cases h with
    | @cons _ text _ v _ written hkey h hbehind =>
      have hfirst := Expr.value_of_denotes e h (propertyLabel label text)
      have hrest := Property.record_append properties hbehind label (record.insert text v) behind
      rw [List.cons_append, Property.record, Key.spells_iff.1 hkey]
      dsimp only
      rw [hfirst]
      exact hrest

end

/-! ### Faults -/

/-- An expression is refused for its first fault. -/
theorem Expr.value_of_firstFault {e : Expr} {path : List Step} {reason : Text}
    (h : e.FirstFault path reason) (label : Text) :
    e.value label = .error (dynamicValue (labelAt label path) reason) := by
  induction h generalizing label with
  | atom harray hobject h => exact value_of_not_atom harray hobject h label
  | hole hbefore | spreadElement hbefore =>
    rw [Expr.value, Element.values_append _ hbefore label 0, Nat.zero_add, Element.values]
    rfl
  | element hbefore _ ih =>
    -- the elements in front are read first, so the index is their number
    rw [Expr.value, Element.values_append _ hbefore label 0, Nat.zero_add, Element.values, ih]
    rfl
  | spreadProperty hbefore | shorthandDefault hbefore =>
    rw [Expr.value, Property.record_append _ hbefore, Property.record]
    rfl
  | entryKey hbefore hkey | methodKey hbefore hkey =>
    rw [Expr.value, Property.record_append _ hbefore, Property.record, text?_of_not_spells hkey]
    rfl
  | method hbefore hkey =>
    rw [Expr.value, Property.record_append _ hbefore, Property.record, Key.spells_iff.1 hkey]
    rfl
  | property hbefore hkey _ ih =>
    rw [Expr.value, Property.record_append _ hbefore, Property.record, Key.spells_iff.1 hkey]
    dsimp only
    rw [ih]
    rfl

private theorem Element.Denote.append : ∀ {elements : List Element} {values : List Value},
    Element.Denote elements values → ∀ {e : Expr} {v : Value}, e.Denotes v →
      Element.Denote (elements ++ [.item e]) (values ++ [v])
  | [], _, .nil, _, _, h => .cons h .nil
  | _ :: _, _, .cons hfirst hbehind, _, _, h => .cons hfirst (hbehind.append h)

private theorem Property.Write.append : ∀ {properties : List Property} {written : List (Text × Value)},
    Property.Write properties written → ∀ {key : Key} {text : Text} {e : Expr} {v : Value},
      key.Spells text →
      e.Denotes v → Property.Write (properties ++ [.entry key e]) (written ++ [(text, v)])
  | [], _, .nil, _, _, _, _, hkey, h => .cons hkey h .nil
  | _ :: _, _, .cons hfirst hvalue hbehind, _, _, _, _, hkey, h =>
      .cons hfirst hvalue (hbehind.append hkey h)

/-- What is neither an array nor an object is an atom, or no data. -/
private theorem denotes_or_fault_of_shape {e : Expr} (harray : ∀ elements, e ≠ .array elements)
    (hobject : ∀ properties, e ≠ .object properties) :
    (∃ v, e.Denotes v) ∨ ∃ path reason, e.FirstFault path reason := by
  by_cases h : ∃ v, e.IsAtom v
  · obtain ⟨v, h⟩ := h
    exact .inl ⟨v, .atom h⟩
  · exact .inr ⟨_, _, .atom harray hobject (not_exists.1 h)⟩

mutual

/-- An expression denotes data, or has a first fault. -/
private theorem Expr.denotes_or_fault :
    ∀ e : Expr, (∃ v, e.Denotes v) ∨ ∃ path reason, e.FirstFault path reason
  | .array elements => by
    -- nothing stands in front of the first element
    rcases Element.denote_or_fault elements .nil with ⟨values, h⟩ | hfault
    · exact .inl ⟨_, .array h⟩
    · exact .inr hfault
  | .object properties => by
    rcases Property.write_or_fault properties .nil with ⟨written, h⟩ | hfault
    · exact .inl ⟨_, .object h (Record.holds_ofList written)⟩
    · exact .inr hfault
  | .name _ | .string _ | .number _ | .bigint _ | .bool _ | .null | .regex .. | .template
      .. | .unary .. | .this
  | .superObject | .member .. | .call .. | .assign .. | .privateName _ | .construction .. | .binary
      .. | .conditional ..
  | .arrow .. | .runtime _ => by
    refine denotes_or_fault_of_shape ?_ ?_
    all_goals
      intro _ h
      cases h

/-- Elements behind others that denote data do so as well, or the array has a first fault. -/
private theorem Element.denote_or_fault :
    ∀ (elements : List Element) {before : List Element} {values : List Value},
    Element.Denote before values → (∃ all, Element.Denote (before ++ elements) all) ∨
      ∃ path reason, Expr.FirstFault (.array (before ++ elements)) path reason
  | [], before, values, hbefore => .inl ⟨values, (List.append_nil before).symm ▸ hbefore⟩
  | .hole :: elements, before, values, hbefore => .inr ⟨_, _, .hole hbefore⟩
  | .spread e :: elements, before, values, hbefore => .inr ⟨_, _, .spreadElement hbefore⟩
  | .item e :: elements, before, values, hbefore => by
    rcases Expr.denotes_or_fault e with ⟨v, h⟩ | ⟨path, reason, h⟩
    · rw [List.append_cons]
      exact Element.denote_or_fault elements (hbefore.append h)
    · exact .inr ⟨_, _, .element hbefore h⟩

/-- Properties behind others that write data do so as well, or the object has a first fault. -/
private theorem Property.write_or_fault : ∀ (properties : List Property) {before : List Property}
    {written : List (Text × Value)}, Property.Write before written →
    (∃ all, Property.Write (before ++ properties) all) ∨
      ∃ path reason, Expr.FirstFault (.object (before ++ properties)) path reason
  | [], before, written, hbefore => .inl ⟨written, (List.append_nil before).symm ▸ hbefore⟩
  | .spread e :: properties, before, written, hbefore => .inr ⟨_, _, .spreadProperty hbefore⟩
  | .shorthandDefault name e :: properties, before, written, hbefore =>
      .inr ⟨_, _, .shorthandDefault hbefore⟩
  | .method key :: properties, before, written, hbefore => by
    by_cases hkey : ∃ text, key.Spells text
    · obtain ⟨text, hkey⟩ := hkey
      exact .inr ⟨_, _, .method hbefore hkey⟩
    · exact .inr ⟨_, _, .methodKey hbefore (not_exists.1 hkey)⟩
  | .entry key e :: properties, before, written, hbefore => by
    by_cases hkey : ∃ text, key.Spells text
    · obtain ⟨text, hkey⟩ := hkey
      rcases Expr.denotes_or_fault e with ⟨v, h⟩ | ⟨path, reason, h⟩
      · rw [List.append_cons]
        exact Property.write_or_fault properties (hbefore.append hkey h)
      · exact .inr ⟨_, _, .property hbefore hkey h⟩
    · exact .inr ⟨_, _, .entryKey hbefore (not_exists.1 hkey)⟩

end

/-! ### Expressions -/

/-- What is said of reading an expression as data. -/
structure Expr.Settles (e : Expr) (label : Text) : Prop where
  /-- The value is what the expression denotes. -/
  accepted_iff (v : Value) : e.value label = .ok v ↔ e.Denotes v
  /-- All other expressions are refused at the place of their first fault. -/
  refused_iff (failure : Failure) : e.value label = .error failure ↔
    ∃ path reason, e.FirstFault path reason ∧ failure = dynamicValue (labelAt label path) reason

/-- An expression has the value that it denotes, or is refused for its first part that is no data. -/
theorem Expr.value_settles (e : Expr) (label : Text) : e.Settles label := by
  constructor
  case accepted_iff =>
    intro v
    refine ⟨fun hv => ?_, fun h => Expr.value_of_denotes e h label⟩
    rcases e.denotes_or_fault with ⟨other, h⟩ | ⟨path, reason, h⟩
    · exact Except.ok.inj ((Expr.value_of_denotes e h label).symm.trans hv) ▸ h
    · cases (Expr.value_of_firstFault h label).symm.trans hv
  case refused_iff =>
    intro failure
    constructor
    · intro hrefused
      rcases e.denotes_or_fault with ⟨v, h⟩ | ⟨path, reason, h⟩
      · cases (Expr.value_of_denotes e h label).symm.trans hrefused
      · exact ⟨path, reason, h,
          Except.error.inj (hrefused.symm.trans (Expr.value_of_firstFault h label))⟩
    · rintro ⟨path, reason, hfault, rfl⟩
      exact Expr.value_of_firstFault hfault label

/-- A template without parts is no data if an escape in it is not valid. -/
theorem Expr.value_invalid_escape :
    ∃ chunks parts, Expr.parse? "`\\8`" = some (templateOf chunks parts) ∧
      (∀ part ∈ parts, ∃ v, part.IsAtom v) ∧
      ¬ ∃ v, (templateOf chunks parts).value "Point.jsonKeys" = .ok v := by
  have hparsed : (Expr.parse? "`\\8`").any fun e => match e with
      | .runtime .template => true
      | _ => false := by
    decide +kernel
  obtain ⟨e, he, htemplate⟩ := (Option.any_eq_true _ _).1 hparsed
  split at htemplate
  · refine ⟨[none], [], he, by simp, ?_⟩
    rintro ⟨v, hv⟩
    cases hv
  · cases htemplate

end JsonCompanion.Script
