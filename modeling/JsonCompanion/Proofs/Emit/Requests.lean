import Mathlib.Data.List.Nodup
import JsonCompanion.Emit.Conversion
import JsonCompanion.Proofs.Collecting
import JsonCompanion.Proofs.Emit.Fragment
import JsonCompanion.Proofs.Emit.Rules

/-!
# Supporting code that conversions request

* `Checks` says that the conversion of a type goes through the one of an enumeration, at any depth.
* `Requests` says which fragments a converter requests, and that it keeps the expression that it
  converts.
* `IsContainer` holds of the converters of arrays, sets, records and maps, given that of their elements.
* `convert_requests`: the conversion of a type requests the tables of the enumerations that it goes
  through and the function that looks values up in them, when it decodes, and nothing when it
  encodes.
-/

namespace JsonCompanion.Emit

open Collecting

/-- The conversion of a type goes through the one of an enumeration: that of the type itself, or
that of one of its arguments. -/
inductive Checks (enums : List EnumModel) : TypeRef → EnumModel → Prop
  | here {type : TypeRef} {model : EnumModel} (hargs : type.args = [])
      (hscalar : scalar? .decode type.name = none)
    (hmodel : model ∈ enums) (hname : model.name = type.name) : Checks enums type model
  | inside {type arg : TypeRef} {model : EnumModel} (harg : arg ∈ type.args)
      (h : Checks enums arg model) :
    Checks enums type model

theorem Checks.mem {enums : List EnumModel} {type : TypeRef} {model : EnumModel}
    (h : Checks enums type model) :
    model ∈ enums := by
  induction h with
  | here _ _ hmodel _ => exact hmodel
  | inside _ _ ih => exact ih

/-- What the conversion of a type asks for: when it decodes, the tables of the enumerations that it
goes through and the function that looks values up in them. -/
def Asks (enums : List EnumModel) (direction : Direction) (type : TypeRef)
    (fragment : Fragment) : Prop :=
  direction = .decode ∧ ∃ model, Checks enums type model ∧
    (enumValues model = .ok fragment ∨ fragment = enumDecode)

/-- Wherever a converter succeeds, it keeps the units of the expression, and it requests what is
asked for. -/
def Requests (converter : Converter) (asked : Fragment → Prop) : Prop :=
  ∀ e, (converter e).Leaves fun written left => e ⊆ written ∧ ∀ fragment, fragment ∈ left ↔
    asked fragment

variable {enums : List EnumModel} {direction : Direction} {type : TypeRef} {converter : Converter}
  {arguments : List Converter} {asked : Fragment → Prop} {fragment : Fragment}

/-- A key is looked up between brackets. -/
theorem mem_jsonAccess (key : Text) : 0x5B ∈ jsonAccess key :=
  List.mem_append_left _ (List.mem_append_left _ (by decide))

/-- Only the name and the arguments of a type decide what its conversion goes through. -/
theorem Checks.congr {type' : TypeRef} {model : EnumModel} (hname : type'.name = type.name)
    (hargs : type'.args = type.args) (h : Checks enums type model) : Checks enums type' model := by
  cases h with
  | here hnone hscalar hmodel heq =>
      exact .here (hargs.trans hnone) (hname ▸ hscalar) hmodel (heq.trans hname.symm)
  | inside harg h => exact .inside (hargs ▸ harg) h

/-- Whether a type may be null makes no difference. -/
theorem asks_nullable (nullable : Bool) :
    Asks enums direction { type with nullable := nullable } fragment ↔
      Asks enums direction type fragment :=
  and_congr_right fun _ => exists_congr fun _ => and_congr_left fun _ => ⟨.congr rfl rfl, .congr rfl rfl⟩

theorem Requests.congr {asked' : Fragment → Prop} (h : Requests converter asked)
    (hiff : ∀ fragment, asked fragment ↔ asked' fragment) : Requests converter asked' := by
  intro e
  refine (h e).imp fun written left hleft => ⟨hleft.1, fun fragment => ?_⟩
  rw [hleft.2, hiff]

private theorem requests_nothing {write : Text → Text} (h : ∀ e, e ⊆ write e) :
    Requests (fun e => pure (write e)) fun _ => False :=
  fun e => leaves_pure ⟨h e, by simp⟩

/-- A guard keeps what it guards. -/
theorem subset_guardNull {nullable : Bool} {e written : Text} (h : e ⊆ written) :
    e ⊆ guardNull nullable e written := by
  unfold guardNull
  split
  · exact h
  · exact fun u hu => by simp [hu]

/-! ### Containers -/

/-- A container writes its conversion from that of its element and keeps the expression. -/
def IsContainer (container : Converter → Converter) : Prop :=
  ∀ converter e, ∃ next : Option Text → Emission Text,
    container converter e = inside converter >>= next ∧
    ∀ body?, ∃ written, next body? = pure written ∧ e ⊆ written

theorem isContainer_array (direction : Direction) : IsContainer (arrayConverter direction) := by
  refine fun converter e => ⟨_, rfl, fun body? => ?_⟩
  cases body? <;> cases direction <;> exact ⟨_, rfl, fun u hu => by simp [hu]⟩

theorem isContainer_set (direction : Direction) : IsContainer (setConverter direction) := by
  refine fun converter e => ⟨_, rfl, fun body? => ?_⟩
  cases body? <;> cases direction <;> exact ⟨_, rfl, fun u hu => by simp [hu]⟩

theorem isContainer_record (direction : Direction) : IsContainer (recordConverter direction) := by
  refine fun converter e => ⟨_, rfl, fun body? => ?_⟩
  cases body? <;> cases direction <;> exact ⟨_, rfl, fun u hu => by simp [mappedEntries, hu]⟩

theorem isContainer_map (direction : Direction) : IsContainer (mapConverter direction) := by
  refine fun converter e => ⟨_, rfl, fun body? => ?_⟩
  cases body? <;> cases direction <;> exact ⟨_, rfl, fun u hu => by simp [mappedEntries, hu]⟩

/-- A container asks for what its element asks for and for nothing more. -/
private theorem IsContainer.requests {container : Converter → Converter}
    (hcontainer : IsContainer container) (h : Requests converter asked) :
    Requests (container converter) asked := by
  intro e
  have hinside : (inside converter).Leaves fun _ left => ∀ fragment, fragment ∈ left ↔
      asked fragment := by
    refine leaves_bind (h elementName) fun body left hleft => leaves_pure fun fragment => ?_
    rw [List.append_nil, hleft.2]
  obtain ⟨next, hnext, hwrites⟩ := hcontainer converter e
  rw [hnext]
  refine leaves_bind hinside fun body? left hleft => ?_
  obtain ⟨written, hwritten, hkeeps⟩ := hwrites body?
  rw [hwritten]
  refine leaves_pure ⟨hkeeps, fun fragment => ?_⟩
  rw [List.append_nil, hleft]

/-! ### Named types -/

theorem scalar?_keeps {name : Text} {write : Text → Text} (h : scalar? direction name = some write)
    (e : Text) :
    e ⊆ write e := by
  unfold scalar? at h
  split_ifs at h <;> cases h <;> cases direction <;> intro u hu <;> simp [hu]

private theorem requests_enumeration {model : EnumModel} :
    Requests (enumConverter direction model) fun fragment =>
    direction = .decode ∧ (enumValues model = .ok fragment ∨ fragment = enumDecode) := by
  intro e
  cases direction with
  | encode => exact leaves_pure ⟨List.Subset.refl e, by simp⟩
  | decode =>
    unfold enumConverter
    dsimp only
    refine leaves_ofAttempt_bind fun table htable => ?_
    refine leaves_bind (leaves_add (P := fun _ left => left = [table]) rfl) ?_
    rintro _ _ rfl
    refine leaves_bind (leaves_add (P := fun _ left => left = [enumDecode]) rfl) ?_
    rintro _ _ rfl
    refine leaves_pure ⟨fun u hu => by simp [hu], fun fragment => ?_⟩
    simp [htable, eq_comm]

private theorem requests_parameter {usesCallbacks : Bool} {name : Text} :
    Requests (parameterConverter direction usesCallbacks name) fun _ => False := by
  refine requests_nothing fun e u hu => ?_
  cases usesCallbacks <;> simp [hu]

section

variable {conversion : Conversion}

private theorem argumentLambdas_leaves {types : List TypeRef}
    (h : ∀ type ∈ types, Requests (convert conversion direction type) (Asks enums direction type)) :
    (argumentLambdas (converters conversion direction types)).Leaves fun _ left =>
      ∀ fragment, fragment ∈ left ↔ ∃ type ∈ types, Asks enums direction type fragment := by
  induction types with
  | nil =>
    rw [converters, argumentLambdas]
    exact leaves_pure (by simp)
  | cons type types ih =>
    obtain ⟨hfirst, hrest⟩ := List.forall_mem_cons.mp h
    rw [converters, argumentLambdas]
    refine leaves_bind (hfirst elementName) fun body left hleft => ?_
    refine leaves_bind (ih hrest) fun lambdas more hmore => leaves_pure fun fragment => ?_
    rw [List.append_nil, List.mem_append, hleft.2, hmore, List.exists_mem_cons_iff]

private theorem requests_class {name : Text} {types : List TypeRef}
    (h : ∀ type ∈ types, Requests (convert conversion direction type) (Asks enums direction type)) :
    Requests (classConverter direction name (converters conversion direction types)) fun fragment =>
      ∃ type ∈ types, Asks enums direction type fragment := by
  intro e
  refine leaves_bind (argumentLambdas_leaves h) fun lambdas left hleft => ?_
  cases direction with
  | encode => exact leaves_pure ⟨fun u hu => by simp [hu], by simpa using hleft⟩
  | decode =>
    have hkeeps : e ⊆ Text.join ", " (e :: lambdas) := (Text.isInfix_join List.mem_cons_self).subset
    exact leaves_pure ⟨fun u hu => by simp [hkeeps hu], by simpa using hleft⟩

/-! ### What a type asks for -/

/-- A type that names no enumeration asks for what its arguments ask for. -/
private theorem asks_iff_args (hnames : ¬ NamesEnumeration conversion type) :
    Asks conversion.enums direction type fragment ↔
      ∃ arg ∈ type.args, Asks conversion.enums direction arg fragment := by
  constructor
  · rintro ⟨hdirection, model, hchecks, hfragment⟩
    cases hchecks with
    | here hargs hscalar hmodel heq =>
      have hother : ¬ NamesScalar type := fun h => scalar?_eq_none_iff.mp hscalar h.2
      exact absurd ⟨hargs, hother, model, hmodel, heq⟩ hnames
    | @inside _ arg _ harg hchecks => exact ⟨arg, harg, hdirection, model, hchecks, hfragment⟩
  · rintro ⟨arg, harg, hdirection, model, hchecks, hfragment⟩
    exact ⟨hdirection, model, .inside harg hchecks, hfragment⟩

/-- A type without arguments that names no enumeration asks for nothing. -/
private theorem not_asks (hargs : type.args = []) (hnames : ¬ NamesEnumeration conversion type) :
    ¬ Asks conversion.enums direction type fragment := by
  rw [asks_iff_args hnames, hargs]
  simp

private theorem asks_iff_element {element : TypeRef} (hargs : type.args = [element]) :
    Asks conversion.enums direction element fragment ↔
      Asks conversion.enums direction type fragment := by
  have hnames : ¬ NamesEnumeration conversion type :=
    fun h => List.cons_ne_nil _ _ (hargs.symm.trans h.1)
  rw [asks_iff_args hnames, hargs]
  simp

/-- A container of values below texts asks for what the values ask for. -/
private theorem asks_iff_value {key value : TypeRef} (hargs : type.args = [key, value])
    (hkey : IsTextKey key) :
    Asks conversion.enums direction value fragment ↔ Asks conversion.enums direction type fragment := by
  have hnames : ¬ NamesEnumeration conversion type :=
    fun h => List.cons_ne_nil _ _ (hargs.symm.trans h.1)
  have hscalar : NamesScalar key := ⟨hkey.1, by rw [hkey.2.1]; rfl⟩
  -- an enumeration may be called `string` too, but the key is not taken for it
  have hplain : ¬ Asks conversion.enums direction key fragment := not_asks hkey.1 fun h => h.2.1 hscalar
  rw [asks_iff_args hnames, hargs]
  simp [hplain]

private theorem asks_iff_enumeration {model : EnumModel}
    (hunique : (conversion.enums.map EnumModel.name).Nodup)
    (hnames : NamesEnumeration conversion type) (hmodel : model ∈ conversion.enums)
    (hname : model.name = type.name) :
    Asks conversion.enums direction type fragment ↔
      direction = .decode ∧ (enumValues model = .ok fragment ∨ fragment = enumDecode) := by
  have hscalar : scalar? .decode type.name = none :=
    scalar?_eq_none_iff.mpr fun h => hnames.2.1 ⟨hnames.1, h⟩
  refine and_congr_right fun _ => ⟨?_, fun h => ⟨model, .here hnames.1 hscalar hmodel hname, h⟩⟩
  rintro ⟨other, hchecks, h⟩
  cases hchecks with
  | here _ _ hother heq =>
    obtain rfl := List.inj_on_of_nodup_map hunique hother hmodel (heq.trans hname.symm)
    exact h
  | inside harg =>
    rw [hnames.1] at harg
    cases harg

/-! ### Any type -/

private theorem Rule.requests {parts : List TypeRef}
    (hunique : (conversion.enums.map EnumModel.name).Nodup)
    (h : Rule conversion direction type parts converter)
    (hparts : ∀ part ∈ parts,
      Requests (convert conversion direction part) (Asks conversion.enums direction part)) :
    Requests converter (Asks conversion.enums direction type) := by
  cases h with
  | scalar hargs hwrite =>
    have hscalar : NamesScalar type := ⟨hargs, by rw [← scalar?_isSome direction, hwrite]; rfl⟩
    have hnot (fragment : Fragment) : ¬ Asks conversion.enums direction type fragment :=
      not_asks hargs fun h => h.2.1 hscalar
    exact (requests_nothing (scalar?_keeps hwrite)).congr fun fragment =>
      (iff_false_intro (hnot fragment)).symm
  | array hargs =>
    have helement := hparts _ List.mem_cons_self
    exact (isContainer_array direction).requests (helement.congr fun fragment => asks_iff_element hargs)
  | set hargs =>
    have helement := hparts _ List.mem_cons_self
    exact (isContainer_set direction).requests (helement.congr fun fragment => asks_iff_element hargs)
  | record hargs hkey =>
    have hvalue := hparts _ List.mem_cons_self
    exact (isContainer_record direction).requests
      (hvalue.congr fun fragment => asks_iff_value hargs hkey)
  | map hargs hkey =>
    have hvalue := hparts _ List.mem_cons_self
    exact (isContainer_map direction).requests (hvalue.congr fun fragment => asks_iff_value hargs hkey)
  | enumeration hnames hmodel hname =>
    exact requests_enumeration.congr fun fragment =>
      (asks_iff_enumeration hunique hnames hmodel hname).symm
  | parameter hnames =>
    have hnot (fragment : Fragment) : ¬ Asks conversion.enums direction type fragment :=
      not_asks hnames.1 hnames.2.2.1
    exact requests_parameter.congr fun fragment => (iff_false_intro (hnot fragment)).symm
  | ofClass _ _ henum => exact (requests_class hparts).congr fun fragment => (asks_iff_args henum).symm

/-- The conversion of a type requests what the type asks for, and it keeps the expression. -/
theorem convert_requests (hcustoms : conversion.customs = [])
    (hunique : (conversion.enums.map EnumModel.name).Nodup) (type : TypeRef) :
    Requests (convert conversion direction type) (Asks conversion.enums direction type) := by
  induction type using TypeRef.inductionOnArgs with
  | _ type ih =>
    intro e
    by_cases hform : ∃ parts, Form conversion type parts
    · obtain ⟨parts, hform⟩ := hform
      obtain ⟨converter, hrule, hconvert, -⟩ := convert_of_form hcustoms hform direction
      have hparts := fun part hmem => ih part (hform.mem_args hmem)
      rw [hconvert]
      refine leaves_bind (hrule.requests hunique hparts e) fun written left hleft => ?_
      exact leaves_pure ⟨subset_guardNull hleft.1, by simpa using hleft.2⟩
    · rw [convert_of_no_form hcustoms (not_exists.mp hform)]
      exact leaves_throw

end

end JsonCompanion.Emit
