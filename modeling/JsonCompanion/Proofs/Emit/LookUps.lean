import JsonCompanion.Proofs.Collecting
import JsonCompanion.Proofs.Emit.Rules
import JsonCompanion.Proofs.Script.LookUps
import JsonCompanion.Proofs.Text.Join

/-!
# Conversions look nothing up

* `IsEnclosing` says that a converter writes code around the expression that it converts, and looks
  nothing up besides.
* `convert_isEnclosing`: where custom converters are of that kind, so is the decoding of every type.
-/

namespace JsonCompanion.Emit

open Script Collecting

/-- What a converter writes is code around the expression. -/
def IsEnclosing (converter : Converter) : Prop :=
  ∀ (e : Text) (tokens : List Token), Consists e tokens → (converter e).Yields (Encloses tokens)

/-- A custom converter decodes to code around the expression if the types that it decodes by other
converters do. -/
def CustomConverter.IsEnclosing (custom : CustomConverter) : Prop :=
  ∀ (context : ConversionContext) (type : TypeRef) (arguments : List Converter),
    (∀ argument ∈ arguments, Emit.IsEnclosing argument) →
      Emit.IsEnclosing (custom.converter context .decode type arguments)

variable {e body : Text} {inner : List Token} {converter : Converter} {arguments : List Converter}

/-! ### Functions -/

private theorem consists_element : Consists elementName [.ofName "e"] :=
  fun hrest hends => hrest.word "e" rfl hends

private theorem encloses_elementLambda (h : Encloses [] body) : Encloses [] (elementLambda body) := by
  have hname : IsLead ("e" ++ ")") := isLead_dotted (by decide) ")" (by decide)
  have hlead : IsLead "(e) => " :=
    (isLead_mark "(" (by decide)).append (hname.append (isLead_space.append
      ((isLead_mark "=>" (by decide)).append isLead_space)))
  exact h.behind hlead

private theorem encloses_entryLambda (h : Encloses [] body) : Encloses [] (entryLambda body) := by
  have hname : IsLead ("k" ++ ",") := isLead_dotted (by decide) "," (by decide)
  have hvalue : IsLead ("e" ++ "]") := isLead_dotted (by decide) "]" (by decide)
  have hpattern : IsLead "([k, e])" :=
    (isLead_mark "(" (by decide)).append ((isLead_mark "[" (by decide)).append
    (hname.append (isLead_space.append (hvalue.append (isLead_mark ")" (by decide))))))
  have harrow : IsLead " => [k, " :=
    isLead_space.append ((isLead_mark "=>" (by decide)).append (isLead_space.append
    ((isLead_mark "[" (by decide)).append (hname.append isLead_space))))
  exact (h.behind (hpattern.append harrow)).before (isTail_mark "]" (by decide))

/-- The body of a function of an element looks nothing up. -/
private theorem element_yields (h : IsEnclosing converter) :
    (converter elementName).Yields (Encloses []) :=
  (h elementName _ consists_element).imp fun _ hbody => hbody.plain fun _ => .word .nil "e" rfl

private theorem plainInside_yields (h : IsEnclosing converter) :
    (inside converter).Yields fun body? => ∀ body ∈ body?, Encloses [] body := by
  unfold inside
  refine yields_bind (element_yields h) fun body hbody => yields_pure ?_
  split <;> simp [hbody]

/-! ### Containers -/

private theorem isLead_array : IsLead "Array.from(" :=
  isLead_call (show Text.isDotted "Array.from" by decide)

private theorem isLead_entries : IsLead "Object.entries(" :=
  isLead_call (show Text.isDotted "Object.entries" by decide)

private theorem isLead_fromEntries : IsLead "Object.fromEntries(" :=
  isLead_call (show Text.isDotted "Object.fromEntries" by decide)

private theorem isLead_newSet : IsLead "new Set(" := isLead_new (show Text.isDotted "Set" by decide)

private theorem isLead_newMap : IsLead "new Map(" := isLead_new (show Text.isDotted "Map" by decide)

private theorem encloses_map {lambda : Text} (h : Encloses inner e) (hlambda : Encloses [] lambda) :
    Encloses inner (e ++ ".map(" ++ lambda ++ ")") := by
  have hmap : Text.ofString ".map(" = Text.ofString "." ++
      (Text.ofString "map" ++ Text.ofString "(") := rfl
  have hmethod := h.before (isTail_method (show Text.isIdentifier "map" by decide) hlambda)
  simpa only [hmap, List.append_assoc] using hmethod

private theorem isEnclosing_array (h : IsEnclosing converter) :
    IsEnclosing (arrayConverter .decode converter) := by
  intro e tokens he
  refine yields_bind (plainInside_yields h) fun body? hbody => ?_
  cases body? with
  | some body => exact yields_pure (encloses_map (.refl he) (encloses_elementLambda (hbody body rfl)))
  | none => exact yields_pure (((Encloses.refl he).behind isLead_array).before isTail_close)

private theorem isEnclosing_set (h : IsEnclosing converter) :
    IsEnclosing (setConverter .decode converter) := by
  intro e tokens he
  refine yields_bind (plainInside_yields h) fun body? hbody => ?_
  cases body? with
  | some body =>
    have hmapped := encloses_map (.refl he) (encloses_elementLambda (hbody body rfl))
    have hset := (hmapped.behind isLead_newSet).before isTail_close
    have hcloses : Text.ofString "))" = Text.ofString ")" ++ Text.ofString ")" := rfl
    exact yields_pure (by simpa only [hcloses, List.append_assoc] using hset)
  | none => exact yields_pure (((Encloses.refl he).behind isLead_newSet).before isTail_close)

private theorem encloses_mappedEntries (he : Consists e inner) (h : Encloses [] body) :
    Encloses inner (mappedEntries e body) := by
  have hentries := ((Encloses.refl he).behind isLead_entries).before isTail_close
  have hmapped := encloses_map hentries (encloses_entryLambda h)
  have hclose : Text.ofString ").map(" = Text.ofString ")" ++ Text.ofString ".map(" := rfl
  unfold mappedEntries
  simpa only [hclose, List.append_assoc] using hmapped

private theorem isEnclosing_record (h : IsEnclosing converter) :
    IsEnclosing (recordConverter .decode converter) := by
  intro e tokens he
  refine yields_bind (plainInside_yields h) fun body? hbody => ?_
  cases body? with
  | some body =>
    have hmapped := encloses_mappedEntries he (hbody body rfl)
    exact yields_pure ((hmapped.behind isLead_fromEntries).before isTail_close)
  | none =>
    have hcopy : IsLead "\x7b ..." :=
      (isLead_mark "\x7b" (by decide)).append (isLead_space.append (isLead_mark "..." (by decide)))
    exact yields_pure (((Encloses.refl he).behind hcopy).before isTail_brace)

private theorem isEnclosing_map (h : IsEnclosing converter) :
    IsEnclosing (mapConverter .decode converter) := by
  intro e tokens he
  refine yields_bind (plainInside_yields h) fun body? hbody => ?_
  cases body? with
  | some body =>
    exact yields_pure
      (((encloses_mappedEntries he (hbody body rfl)).behind isLead_newMap).before isTail_close)
  | none =>
    exact yields_pure
      (((Encloses.refl he).behind (isLead_newMap.append isLead_entries)).before
      (isTail_close.append isTail_close))

/-! ### Named types -/

private theorem isEnclosing_scalar {name : Text} {write : Text → Text}
    (h : scalar? .decode name = some write) :
    IsEnclosing fun e => pure (write e) := by
  intro e tokens he
  refine yields_pure ?_
  have hcall {function : Text} (hfunction : function.isDotted) :
      Encloses tokens (function ++ "(" ++ e ++ ")") :=
    ((Encloses.refl he).behind (isLead_call hfunction)).before isTail_close
  have hnew {function : Text} (hfunction : function.isDotted) :
      Encloses tokens ("new " ++ (function ++ "(") ++ e ++ ")") :=
    ((Encloses.refl he).behind (isLead_new hfunction)).before isTail_close
  unfold scalar? at h
  split_ifs at h <;> cases h
  · exact .refl he
  · exact hcall (show Text.isDotted "String" by decide)
  · exact hcall (show Text.isDotted "Number" by decide)
  · exact .refl he
  · exact hcall (show Text.isDotted "BigInt" by decide)
  · exact hnew (show Text.isDotted "Date" by decide)
  · exact hnew (show Text.isDotted "URL" by decide)

private theorem isEnclosing_enumeration {model : EnumModel} (hname : model.name.isDotted) :
    IsEnclosing (enumConverter .decode model) := by
  intro e tokens he
  unfold enumConverter
  refine yields_bind (yields_true _) fun _ _ => yields_bind (yields_true _) fun _ _ =>
    yields_bind (yields_true _)
    fun _ _ => yields_pure ?_
  have hvalues : (enumValuesName model.name).isDotted :=
    Text.isDotted_continued (Text.isDotted_lowerFirst hname) (by decide)
  have hcall : IsLead (enumDecodeName ++ "(") := isLead_call (by decide)
  have hfirst : IsLead (enumValuesName model.name ++ "," ++ " ") :=
    (isLead_dotted hvalues "," (by decide)).append isLead_space
  have htail : IsTail (", " ++ model.name.quote ++ ")") :=
    isTail_more (encloses_quote model.name) isTail_close
  have hcomma : Text.ofString ", " = Text.ofString "," ++ Text.ofString " " := rfl
  have hwritten := ((Encloses.refl he).behind (hcall.append hfirst)).before htail
  simpa only [hcomma, List.append_assoc] using hwritten

private theorem isEnclosing_parameter {name : Text} (hname : name.isDotted) (usesCallbacks : Bool) :
    IsEnclosing (parameterConverter .decode usesCallbacks name) := by
  intro e tokens he
  refine yields_pure ?_
  cases usesCallbacks with
  | false => exact .refl he
  | true =>
    have hcallback : (callbackName .decode name).isDotted := Text.isDotted_front (by decide) hname
    exact ((Encloses.refl he).behind (isLead_call hcallback)).before isTail_close

private theorem plainLambdas_yields (h : ∀ argument ∈ arguments, IsEnclosing argument) :
    (argumentLambdas arguments).Yields fun lambdas => ∀ lambda ∈ lambdas, Encloses [] lambda := by
  induction arguments with
  | nil => exact yields_pure (by simp)
  | cons first arguments ih =>
    obtain ⟨hfirst, hrest⟩ := List.forall_mem_cons.1 h
    unfold argumentLambdas
    refine yields_bind (element_yields hfirst) fun body hbody =>
      yields_bind (ih hrest) fun lambdas hlambdas => yields_pure ?_
    exact List.forall_mem_cons.2 ⟨encloses_elementLambda hbody, hlambdas⟩

/-- Further arguments and the end of a call. -/
private theorem isTail_arguments {lambdas : List Text} (h : ∀ lambda ∈ lambdas, Encloses [] lambda) :
    ∃ tail, IsTail tail ∧ ∀ first : Text, Text.join ", " (first :: lambdas) ++ ")" = first ++ tail := by
  induction lambdas with
  | nil => exact ⟨")", isTail_close, fun _ => rfl⟩
  | cons lambda lambdas ih =>
    obtain ⟨hlambda, hrest⟩ := List.forall_mem_cons.1 h
    obtain ⟨tail, htail, heq⟩ := ih hrest
    refine ⟨", " ++ lambda ++ tail, isTail_more hlambda htail, fun first => ?_⟩
    rw [Text.join_cons (by simp), List.append_assoc, heq, List.append_assoc, List.append_assoc]

private theorem isEnclosing_class {name : Text} (hname : name.isDotted)
    (h : ∀ argument ∈ arguments, IsEnclosing argument) :
    IsEnclosing (classConverter .decode name arguments) := by
  intro e tokens he
  unfold classConverter
  refine yields_bind (plainLambdas_yields h) fun lambdas hlambdas => yields_pure ?_
  obtain ⟨tail, htail, heq⟩ := isTail_arguments hlambdas
  have hmethod : (name ++ ".fromJson").isDotted := Text.isDotted_append hname (by decide)
  have hcall : Text.ofString ".fromJson(" = Text.ofString ".fromJson" ++ Text.ofString "(" := rfl
  have hwritten := ((Encloses.refl he).before htail).behind (isLead_call hmethod)
  rw [← heq] at hwritten
  simpa only [hcall, List.append_assoc] using hwritten

/-! ### Any type -/

variable {conversion : Conversion} {type : TypeRef} {parts : List TypeRef}

private theorem Rule.isEnclosing (h : Rule conversion .decode type parts converter)
    (htype : TypeRef.isTypeName type.name type.args)
    (hparts : ∀ part ∈ parts, IsEnclosing (convert conversion .decode part)) :
    IsEnclosing converter := by
  have hdotted (hargs : type.args = []) : type.name.isDotted :=
    htype.resolve_right fun hunion => hunion.2 hargs
  cases h with
  | scalar _ hwrite => exact isEnclosing_scalar hwrite
  | array => exact isEnclosing_array (hparts _ List.mem_cons_self)
  | set => exact isEnclosing_set (hparts _ List.mem_cons_self)
  | record => exact isEnclosing_record (hparts _ List.mem_cons_self)
  | map => exact isEnclosing_map (hparts _ List.mem_cons_self)
  | enumeration hnames _ hname => exact isEnclosing_enumeration (hname ▸ hdotted hnames.1)
  | parameter hnames => exact isEnclosing_parameter (hdotted hnames.1) _
  | ofClass hname =>
    simp only [isConvertibleName, Bool.and_eq_true] at hname
    refine isEnclosing_class hname.2 ?_
    rw [converters_eq_map]
    exact List.forall_mem_map.mpr hparts

private theorem encloses_guardNull {nullable : Bool} {written : Text} (he : Consists e inner)
    (h : Encloses inner written) :
    Encloses inner (guardNull nullable e written) := by
  have hguard : Text.ofString " == null ? null : " = Text.ofString " == null ? " ++
      Text.ofString "null" ++ Text.ofString " : " :=
    rfl
  unfold guardNull
  split
  · exact h
  · simpa only [hguard, List.append_assoc] using h.guarded he isData_null

private theorem custom?_yields (context : ConversionContext) (type : TypeRef)
    (customs : List CustomConverter) :
    (custom? context type customs).Yields fun found => ∀ custom ∈ found, custom ∈ customs := by
  induction customs with
  | nil => exact yields_pure (by simp)
  | cons custom customs ih =>
    refine yields_bind (yields_true _) fun applies _ => ?_
    split
    · exact yields_pure (by simp)
    · exact ih.imp fun _ h custom hcustom => List.mem_cons_of_mem _ (h custom hcustom)

private theorem isEnclosing_builtIn {type : TypeRef} (htype : type.IsNamed)
    (hargs : ∀ arg ∈ type.args, IsEnclosing (convert conversion .decode arg)) :
    IsEnclosing (builtInConverter conversion .decode { type with nullable := false }
      (converters conversion .decode type.args)) := by
  by_cases hform : ∃ parts, Form conversion type parts
  · obtain ⟨parts, hform⟩ := hform
    obtain ⟨converter, hrule, hbuiltIn⟩ := builtInConverter_of_form hform .decode
    rw [hbuiltIn]
    exact hrule.isEnclosing (TypeRef.isNamed_iff.1 htype).1 fun part hmem =>
      hargs part (hform.mem_args hmem)
  · intro e tokens _
    rw [builtInConverter_of_no_form (not_exists.mp hform)]
    exact yields_throw

/-- The decoding of a declared type is code around the expression. -/
theorem convert_isEnclosing (hcustoms : ∀ custom ∈ conversion.customs, custom.IsEnclosing)
    (type : TypeRef) (htype : type.IsNamed) : IsEnclosing (convert conversion .decode type) := by
  induction type using TypeRef.inductionOnArgs with
  | _ type ih =>
    obtain ⟨-, hargs⟩ := TypeRef.isNamed_iff.1 htype
    have hparts : ∀ arg ∈ type.args, IsEnclosing (convert conversion .decode arg) :=
      fun arg hmem => ih arg hmem (hargs arg hmem)
    intro e tokens he
    rw [convert_eq]
    refine yields_bind ?_ fun written hwritten => yields_pure (encloses_guardNull he hwritten)
    -- a custom converter comes before the library, and may use the converters of the arguments
    refine yields_bind (custom?_yields _ _ _) fun found hfound => ?_
    cases found with
    | some custom =>
      refine hcustoms custom (hfound custom rfl) _ _ _ ?_ e tokens he
      rw [converters_eq_map]
      exact List.forall_mem_map.mpr hparts
    | none => exact isEnclosing_builtIn htype hparts e tokens he

end JsonCompanion.Emit
