import JsonCompanion.Emit.Conversion
import JsonCompanion.Proofs.Types.Names
import Mathlib.Data.List.Basic

/-!
# Types that the library converts

* `Form` says which types the library converts by itself, and through the conversions of which parts.
* `NamesScalar`, `NamesEnumeration` and `NamesParameter` say what a name without arguments stands
  for: a type that the library knows before an enumeration, and that before a type parameter.
* `Rule` says how a type of each form is converted, given how its parts are.
* `convert_of_form` and `convert_of_no_form`: a type is converted by the rule of its form, and
  refused if it has none.
-/

namespace JsonCompanion.Emit

theorem isOneOf_iff {name : Text} {names : List String} :
    isOneOf name names ↔ ∃ other ∈ names, name = Text.ofString other := by
  simp [isOneOf]

theorem isOneOf_disjoint {name : Text} {names others : List String} (h : isOneOf name names)
    (hdisjoint : ∀ a ∈ names, ∀ b ∈ others, Text.ofString a ≠ Text.ofString b) :
    isOneOf name others = false := by
  obtain ⟨a, ha, rfl⟩ := isOneOf_iff.mp h
  rw [← Bool.not_eq_true, isOneOf_iff]
  rintro ⟨b, hb, heq⟩
  exact hdisjoint a ha b hb heq

/-- The types without arguments that the library knows. -/
def scalarTypes : List String :=
  ["unknown", "any", "object", "string", "number", "boolean", "bigint", "Date", "URL"]

theorem scalar?_isSome (direction : Direction) (name : Text) :
    (scalar? direction name).isSome = isOneOf name scalarTypes := by
  unfold scalar?
  split_ifs with hidentity
  · rw [Bool.or_eq_true, Bool.or_eq_true, beq_iff_eq, beq_iff_eq, beq_iff_eq] at hidentity
    rcases hidentity with (rfl | rfl) | rfl <;> rfl
  all_goals simp_all [isOneOf, scalarTypes]

theorem scalar?_eq_none_iff {direction : Direction} {name : Text} :
    scalar? direction name = none ↔ ¬ isOneOf name scalarTypes := by
  rw [← scalar?_isSome direction, Bool.not_eq_true, Option.isSome_eq_false_iff,
    Option.isNone_iff_eq_none]

/-- The keys below which a record or a map may hold values: texts, and never null. -/
def IsTextKey (key : TypeRef) : Prop := key.args = [] ∧ key.name = "string" ∧ key.nullable = false

theorem isTextKey_iff {key : TypeRef} :
    (isPlainType key "string" && !key.nullable) = true ↔ IsTextKey key := by
  simp [isPlainType, IsTextKey, and_assoc]

/-! ### Forms -/

/-- A type has a form that the library converts, through conversions of some parts. -/
inductive Form (conversion : Conversion) (type : TypeRef) : List TypeRef → Prop
  | scalar (hargs : type.args = []) (hname : isOneOf type.name scalarTypes) : Form conversion type []
  | elements {element : TypeRef} (hargs : type.args = [element])
    (hname : isOneOf type.name ["Array", "ReadonlyArray", "Set", "ReadonlySet"]) :
      Form conversion type [element]
  | values {key value : TypeRef} (hargs : type.args = [key, value]) (hkey : IsTextKey key)
    (hname : isOneOf type.name ["Record", "Map", "ReadonlyMap"]) : Form conversion type [value]
  | enumeration (hargs : type.args = []) (hname : ∃ model ∈ conversion.enums, model.name = type.name) :
    Form conversion type []
  | parameter (hargs : type.args = []) (hname : type.name ∈ conversion.typeParameters) : Form
      conversion type []
  | ofClass (hname : isConvertibleName type.name) : Form conversion type type.args

/-- The arguments of a type that are converted with it: all but the key of a record or a map. -/
def convertedArgs (type : TypeRef) : List TypeRef :=
  if isOneOf type.name ["Record", "Map", "ReadonlyMap"] then type.args.tail else type.args

theorem mem_args_of_converted {type arg : TypeRef} (h : arg ∈ convertedArgs type) : arg ∈ type.args := by
  unfold convertedArgs at h
  split at h
  · exact List.mem_of_mem_tail h
  · exact h

/-- The type is a known one without arguments. -/
def NamesScalar (type : TypeRef) : Prop := type.args = [] ∧ isOneOf type.name scalarTypes

/-- The type is an enumeration; the known types come first. -/
def NamesEnumeration (conversion : Conversion) (type : TypeRef) : Prop :=
  type.args = [] ∧ ¬ NamesScalar type ∧ ∃ model ∈ conversion.enums, model.name = type.name

/-- The type is a type parameter; the known types and the enumerations come first. -/
def NamesParameter (conversion : Conversion) (type : TypeRef) : Prop :=
  type.args = [] ∧ ¬ NamesScalar type ∧ ¬ NamesEnumeration conversion type ∧
    type.name ∈ conversion.typeParameters

/-! ### Rules -/

/-- How a type is converted, given how its parts are. -/
inductive Rule (conversion : Conversion) (direction : Direction) (type : TypeRef) :
    List TypeRef → Converter → Prop
  | scalar {write : Text → Text} (hargs : type.args = [])
      (hwrite : scalar? direction type.name = some write) :
    Rule conversion direction type [] fun e => pure (write e)
  | array {element : TypeRef} (hargs : type.args = [element])
    (hname : isOneOf type.name ["Array", "ReadonlyArray"]) :
    Rule conversion direction type [element]
      (arrayConverter direction (convert conversion direction element))
  | set {element : TypeRef} (hargs : type.args = [element])
      (hname : isOneOf type.name ["Set", "ReadonlySet"]) :
    Rule conversion direction type [element]
      (setConverter direction (convert conversion direction element))
  | record {key value : TypeRef} (hargs : type.args = [key, value]) (hkey : IsTextKey key)
    (hname : isOneOf type.name ["Record"]) :
    Rule conversion direction type [value]
      (recordConverter direction (convert conversion direction value))
  | map {key value : TypeRef} (hargs : type.args = [key, value]) (hkey : IsTextKey key)
    (hname : isOneOf type.name ["Map", "ReadonlyMap"]) :
    Rule conversion direction type [value] (mapConverter direction (convert conversion direction value))
  | enumeration {model : EnumModel} (hnames : NamesEnumeration conversion type)
      (hmodel : model ∈ conversion.enums)
    (hname : model.name = type.name) : Rule conversion direction type [] (enumConverter direction model)
  | parameter (hnames : NamesParameter conversion type) :
    Rule conversion direction type [] (parameterConverter direction conversion.usesCallbacks type.name)
  | ofClass (hname : isConvertibleName type.name) (hscalar : ¬ NamesScalar type)
    (henum : ¬ NamesEnumeration conversion type) (hparameter : ¬ NamesParameter conversion type) :
    Rule conversion direction type type.args
      (classConverter direction type.name (converters conversion direction type.args))

variable {conversion : Conversion} {direction : Direction} {type : TypeRef} {parts : List TypeRef}

/-- The names of classes are none of the reserved ones. -/
theorem not_isOneOf_of_convertible {name : Text} (h : isConvertibleName name) (names : List String)
    (hreserved : ∀ other ∈ names, Text.ofString other ∈ reservedTypes) : isOneOf name names = false := by
  rw [← Bool.not_eq_true, isOneOf_iff]
  rintro ⟨other, hmem, rfl⟩
  rw [isConvertibleName, Bool.and_eq_true, Bool.and_eq_true, Bool.not_eq_true', List.contains_eq_mem,
    decide_eq_false_iff_not] at h
  exact h.1.1 (hreserved other hmem)

/-- The conversion of a type without arguments, or of a class, is that of its name. -/
private theorem builtIn?_eq_named {arguments : List Converter} (hscalar : ¬ NamesScalar type)
    (h : type.args = [] ∧ arguments = [] ∨ isConvertibleName type.name) :
    builtIn? conversion direction type arguments = namedConverter? conversion direction type
      arguments := by
  have hnone : (if type.args.isEmpty then scalar? direction type.name else none) = none := by
    rw [ite_eq_right_iff]
    exact fun hempty => scalar?_eq_none_iff.mpr fun hname => hscalar ⟨List.isEmpty_iff.mp hempty, hname⟩
  rw [builtIn?, hnone]
  rcases h with ⟨hargs, rfl⟩ | hclass
  · unfold keyedConverter?
    rw [hargs]
    rfl
  · have hother := not_isOneOf_of_convertible hclass
    rw [keyedConverter?, hother ["Array", "ReadonlyArray"] (by decide),
      hother ["Set", "ReadonlySet"] (by decide), hother ["Record"] (by decide),
      hother ["Map", "ReadonlyMap"] (by decide)]
    cases only? arguments <;> cases belowText? type.args arguments <;> rfl

/-- A name is converted by the first rule that applies. -/
private theorem named_rule (hscalar : ¬ NamesScalar type) (hparts : parts = type.args)
    (h : type.args = [] ∧ ((∃ model ∈ conversion.enums, model.name = type.name) ∨
      type.name ∈ conversion.typeParameters) ∨ isConvertibleName type.name) :
    ∃ converter, namedConverter? conversion direction type (converters conversion direction type.args) =
      some converter ∧ Rule conversion direction type parts converter := by
  subst hparts
  unfold namedConverter?
  dsimp only
  generalize hmodel : (if type.args.isEmpty then
    conversion.enums.reverse.find? fun model => model.name == type.name else none) = model?
  -- a name is taken for that of an enumeration before it is taken for a parameter or a class
  cases model? with
  | some model =>
    obtain ⟨hempty, hfind⟩ := Option.ite_none_right_eq_some.mp hmodel
    have hargs : type.args = [] := List.isEmpty_iff.mp hempty
    have hname : model.name = type.name := by simpa using List.find?_some hfind
    have hmem : model ∈ conversion.enums := List.mem_reverse.mp (List.mem_of_find?_eq_some hfind)
    rw [hargs]
    exact ⟨_, rfl, .enumeration ⟨hargs, hscalar, model, hmem, hname⟩ hmem hname⟩
  | none =>
    have henum : ¬ NamesEnumeration conversion type := by
      rintro ⟨hargs, -, model, hmem, hname⟩
      rw [if_pos (List.isEmpty_iff.mpr hargs), List.find?_eq_none] at hmodel
      exact hmodel model (List.mem_reverse.mpr hmem) (beq_iff_eq.mpr hname)
    by_cases hparameter : NamesParameter conversion type
    · have hargs : type.args = [] := hparameter.1
      have hcontains : (type.args.isEmpty && conversion.typeParameters.contains type.name) = true := by
        simp [hargs, hparameter.2.2.2]
      rw [if_pos hcontains, hargs]
      exact ⟨_, rfl, .parameter hparameter⟩
    · have hcontains : ¬ (type.args.isEmpty && conversion.typeParameters.contains type.name) = true := by
        simp only [Bool.and_eq_true, List.isEmpty_iff, List.contains_eq_mem, decide_eq_true_eq]
        exact fun hboth => hparameter ⟨hboth.1, hscalar, henum, hboth.2⟩
      have hclass : isConvertibleName type.name = true := by
        rcases h with ⟨hargs, hname | hname⟩ | hclass
        · exact absurd ⟨hargs, hscalar, hname⟩ henum
        · exact absurd ⟨hargs, hscalar, henum, hname⟩ hparameter
        · exact hclass
      rw [if_neg hcontains, if_pos hclass]
      exact ⟨_, rfl, .ofClass hclass hscalar henum hparameter⟩

/-- The parts of a type are its arguments, but for a key. -/
theorem Form.eq_convertedArgs (h : Form conversion type parts) : parts = convertedArgs type := by
  unfold convertedArgs
  cases h with
  | scalar hargs => simp [hargs]
  | elements hargs hname => rw [isOneOf_disjoint hname (by decide), if_neg Bool.false_ne_true, hargs]
  | values hargs _ hname => rw [hname, if_pos rfl, hargs, List.tail_cons]
  | enumeration hargs => simp [hargs]
  | parameter hargs => simp [hargs]
  | ofClass hname => rw [not_isOneOf_of_convertible hname _ (by decide), if_neg Bool.false_ne_true]

theorem Form.mem_args {part : TypeRef} (h : Form conversion type parts) (hpart : part ∈ parts) :
    part ∈ type.args := by
  rw [h.eq_convertedArgs] at hpart
  exact mem_args_of_converted hpart

/-- A type without arguments, or a class, is converted by the first rule that applies. -/
private theorem plain_rule (hparts : parts = type.args)
    (h : type.args = [] ∧
      (isOneOf type.name scalarTypes ∨ (∃ model ∈ conversion.enums, model.name = type.name) ∨
        type.name ∈ conversion.typeParameters) ∨ isConvertibleName type.name) :
    ∃ converter, builtIn? conversion direction type (converters conversion direction type.args) =
      some converter ∧ Rule conversion direction type parts converter := by
  by_cases hscalar : NamesScalar type
  · obtain ⟨hargs, hname⟩ := hscalar
    obtain ⟨write, hwrite⟩ :=
      Option.isSome_iff_exists.mp ((scalar?_isSome direction type.name).trans hname)
    rw [builtIn?, if_pos (List.isEmpty_iff.mpr hargs), hwrite, hparts, hargs]
    exact ⟨_, rfl, .scalar hargs hwrite⟩
  · have hnamed : type.args = [] ∧ converters conversion direction type.args = [] ∨
        isConvertibleName type.name :=
      h.imp_left fun hplain => ⟨hplain.1, by rw [hplain.1, converters]⟩
    rw [builtIn?_eq_named hscalar hnamed]
    refine named_rule hscalar hparts (h.imp_left fun hplain => ⟨hplain.1, hplain.2.resolve_left ?_⟩)
    exact fun hname => hscalar ⟨hplain.1, hname⟩

/-- A type of some form is converted by a rule. -/
theorem Form.rule (h : Form conversion type parts) (direction : Direction) :
    ∃ converter, builtIn? conversion direction type (converters conversion direction type.args) =
      some converter ∧ Rule conversion direction type parts converter := by
  cases h with
  | scalar hargs hname => exact plain_rule hargs.symm (.inl ⟨hargs, .inl hname⟩)
  | enumeration hargs hname => exact plain_rule hargs.symm (.inl ⟨hargs, .inr (.inl hname)⟩)
  | parameter hargs hname => exact plain_rule hargs.symm (.inl ⟨hargs, .inr (.inr hname)⟩)
  | ofClass hname => exact plain_rule rfl (.inr hname)
  | @elements element hargs hname =>
    rw [builtIn?, hargs]
    by_cases harray : isOneOf type.name ["Array", "ReadonlyArray"]
    · rw [harray]
      exact ⟨_, rfl, .array hargs harray⟩
    · -- one of two names is left
      have hset : isOneOf type.name ["Set", "ReadonlySet"] = true := by
        simp only [isOneOf_iff, List.mem_cons, List.not_mem_nil, or_false] at hname harray ⊢
        grind
      rw [Bool.not_eq_true] at harray
      rw [harray, hset]
      exact ⟨_, rfl, .set hargs hset⟩
  | @values key value hargs hkey hname =>
    have hbelow : belowText? type.args (converters conversion direction type.args) =
        some (convert conversion direction value) := by
      rw [hargs]
      exact if_pos (isTextKey_iff.mpr hkey)
    have hkeyed : builtIn? conversion direction type (converters conversion direction type.args) =
        keyedConverter? conversion direction type (converters conversion direction type.args) := by
      rw [builtIn?, hargs]
      rfl
    rw [hkeyed, keyedConverter?, hbelow]
    by_cases hrecord : isOneOf type.name ["Record"]
    · rw [hrecord]
      exact ⟨_, rfl, .record hargs hkey hrecord⟩
    · -- again, one of two names is left
      have hmap : isOneOf type.name ["Map", "ReadonlyMap"] = true := by
        simp only [isOneOf_iff, List.mem_cons, List.not_mem_nil, or_false] at hname hrecord ⊢
        grind
      rw [Bool.not_eq_true] at hrecord
      rw [hrecord, hmap]
      exact ⟨_, rfl, .map hargs hkey hmap⟩

private theorem form_of_named {arguments : List Converter} {converter : Converter}
    (h : namedConverter? conversion direction type arguments = some converter) :
    ∃ parts, Form conversion type parts := by
  unfold namedConverter? at h
  dsimp only at h
  split at h
  · next model hmodel =>
    obtain ⟨hempty, hfind⟩ := Option.ite_none_right_eq_some.mp hmodel
    have hmem : model ∈ conversion.enums := List.mem_reverse.mp (List.mem_of_find?_eq_some hfind)
    exact ⟨[], .enumeration (List.isEmpty_iff.mp hempty)
      ⟨model, hmem, by simpa using List.find?_some hfind⟩⟩
  · split at h
    · next hparameter =>
      obtain ⟨hempty, hcontains⟩ := Bool.and_eq_true_iff.mp hparameter
      exact ⟨[], .parameter (List.isEmpty_iff.mp hempty) (by simpa using hcontains)⟩
    · exact ⟨type.args, .ofClass (Option.ite_none_right_eq_some.mp h).1⟩

private theorem exists_textKey {args : List TypeRef} {arguments : List Converter} {below : Converter}
    (h : belowText? args arguments = some below) : ∃ key value, args = [key, value] ∧ IsTextKey key := by
  unfold belowText? at h
  split at h
  · next key value first second =>
    exact ⟨key, value, rfl, isTextKey_iff.mp (Option.ite_none_right_eq_some.mp h).1⟩
  · cases h

/-- Only a type of some form is converted. -/
theorem exists_form {arguments : List Converter} {converter : Converter}
    (hlength : arguments.length = type.args.length)
    (h : builtIn? conversion direction type arguments = some converter) :
    ∃ parts, Form conversion type parts := by
  have helements {element : Converter} (honly : only? arguments = some element) : ∃ arg,
      type.args = [arg] := by
    unfold only? at honly
    split at honly
    · exact List.length_eq_one_iff.mp hlength.symm
    · cases honly
  have hname {names some : List String} (hsub : some ⊆ names) (hsome : isOneOf type.name some) :
      isOneOf type.name names := by
    obtain ⟨other, hmem, heq⟩ := isOneOf_iff.mp hsome
    exact isOneOf_iff.mpr ⟨other, hsub hmem, heq⟩
  unfold builtIn? at h
  split at h
  · next write hwrite =>
    obtain ⟨hempty, hwrite⟩ := Option.ite_none_right_eq_some.mp hwrite
    exact ⟨[], .scalar (List.isEmpty_iff.mp hempty) (by rw [← scalar?_isSome direction, hwrite]; rfl)⟩
  · split at h
    · next element honly harray =>
      obtain ⟨arg, hargs⟩ := helements honly
      exact ⟨[arg], .elements hargs (hname (by decide) harray)⟩
    · next element honly hset _ =>
      obtain ⟨arg, hargs⟩ := helements honly
      exact ⟨[arg], .elements hargs (hname (by decide) hset)⟩
    · unfold keyedConverter? at h
      split at h
      · next value hbelow hrecord =>
        obtain ⟨key, value, hargs, hkey⟩ := exists_textKey hbelow
        exact ⟨[value], .values hargs hkey (hname (by decide) hrecord)⟩
      · next value hbelow hmap _ =>
        obtain ⟨key, value, hargs, hkey⟩ := exists_textKey hbelow
        exact ⟨[value], .values hargs hkey (hname (by decide) hmap)⟩
      · exact form_of_named h

theorem converters_eq_map (types : List TypeRef) :
    converters conversion direction types = types.map (convert conversion direction) := by
  induction types with
  | nil => rw [converters, List.map_nil]
  | cons type types ih => rw [converters, List.map_cons, ih]

/-! ### Any type -/

/-- The library converts a type of some form by its rule, whether the type may be null or not. -/
theorem builtInConverter_of_form (h : Form conversion type parts) (direction : Direction) :
    ∃ converter, Rule conversion direction type parts converter ∧
      builtInConverter conversion direction { type with nullable := false }
        (converters conversion direction type.args) = converter := by
  obtain ⟨converter, hconverter, hrule⟩ := h.rule direction
  have hsame : builtIn? conversion direction { type with nullable := false }
      (converters conversion direction type.args) = some converter := hconverter
  refine ⟨converter, hrule, funext fun e => ?_⟩
  simp only [builtInConverter, hsame]

/-- The library refuses a type of no form. -/
theorem builtInConverter_of_no_form (h : ∀ parts, ¬ Form conversion type parts) (e : Text) :
    builtInConverter conversion direction { type with nullable := false }
        (converters conversion direction type.args) e =
      throw (.unsupportedType type.text conversion.element) := by
  have hnone : builtIn? conversion direction { type with nullable := false }
      (converters conversion direction type.args) = none := by
    refine Option.eq_none_iff_forall_ne_some.2 fun converter hconverter => ?_
    have hlength : (converters conversion direction type.args).length = type.args.length := by
      rw [converters_eq_map, List.length_map]
    have hsame : builtIn? conversion direction type (converters conversion direction type.args) =
        some converter := hconverter
    obtain ⟨parts, hform⟩ := exists_form hlength hsame
    exact h parts hform
  simp only [builtInConverter, hnone]

theorem convert_eq (e : Text) : convert conversion direction type e = do
    return guardNull type.nullable e (← plainConverter conversion direction
      { type with nullable := false } (converters conversion direction type.args) e) := by
  obtain ⟨name, args, nullable, text⟩ := type
  rw [convert]

/-- Without custom converters the library converts every type. -/
theorem plainConverter_of_builtIn (hcustoms : conversion.customs = [])
    (arguments : List Converter) :
    plainConverter conversion direction type arguments =
      builtInConverter conversion direction type arguments := by
  funext e
  simp only [plainConverter, hcustoms, custom?, pure_bind]

/-- Without custom converters a type of some form is converted by its rule, and guarded if it may be
null. -/
theorem convert_of_form (hcustoms : conversion.customs = []) (h : Form conversion type parts)
    (direction : Direction) :
    ∃ converter, Rule conversion direction type parts converter ∧
      (∀ e, convert conversion direction type e =
        do return guardNull type.nullable e (← converter e)) ∧
      ∀ e, convert conversion direction { type with nullable := false } e = converter e := by
  obtain ⟨converter, hrule, hbuiltIn⟩ := builtInConverter_of_form h direction
  refine ⟨converter, hrule, fun e => ?_, fun e => ?_⟩
  · rw [convert_eq, plainConverter_of_builtIn hcustoms, hbuiltIn]
  · rw [convert_eq, plainConverter_of_builtIn hcustoms, hbuiltIn]
    exact bind_pure _

/-- Without custom converters a type of no form is refused. -/
theorem convert_of_no_form (hcustoms : conversion.customs = [])
    (h : ∀ parts, ¬ Form conversion type parts) (e : Text) :
    convert conversion direction type e =
      throw (.unsupportedType type.text conversion.element) := by
  rw [convert_eq, plainConverter_of_builtIn hcustoms, builtInConverter_of_no_form h]
  rfl

end JsonCompanion.Emit
