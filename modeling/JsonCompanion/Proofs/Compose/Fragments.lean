import JsonCompanion.Proofs.Attempt
import JsonCompanion.Proofs.Compose.ClassOutput
import JsonCompanion.Proofs.Compose.Distinct

/-!
# Fragments of compositions

* `Contributions` says what a unit contributes to its composition: the tables of its enumerations
  and the code of its classes, in order.
* `Composition.Collapses`: the fragments are the contributed ones, each text once, where it first occurs.
* `SharesHelpers` says when supporting code is among the fragments.
* `compose_shares`: the fragments of every composition are of that kind.
-/

namespace JsonCompanion

open Emit Collecting

/-! ### Contributions -/

/-- What a unit contributes to its composition: the tables of its enumerations and the code of its
classes. -/
structure Contributions (options : GenerationOptions) (unit : SourceUnit) (tables : List Fragment)
    (outputs : List ClassOutput) : Prop where
  tables : List.Forall₂ (fun model table => enumValues model = .ok table) unit.enums tables
  outputs : List.Forall₂
    (fun content output => ∃ setting, ClassSetting.ofClass options unit content = .ok setting ∧
      ClassOutput.generate setting = .ok output) unit.classes outputs

/-- The contributed fragments in order. -/
def contributed (tables : List Fragment) (outputs : List ClassOutput) : List Fragment :=
  tables ++ outputs.flatMap ClassOutput.fragments

variable {options : GenerationOptions} {unit : SourceUnit} {composed : Composition}
  {tables : List Fragment}
  {outputs : List ClassOutput}

private theorem classFragments_contributes (content : AnnotatedClass) :
    (classFragments options unit content).Yields fun fragments => ∃ output : ClassOutput,
      (∃ setting, ClassSetting.ofClass options unit content = .ok setting ∧
        ClassOutput.generate setting = .ok output) ∧ fragments = output.fragments := by
  unfold classFragments
  refine yields_bind (yields_ofAttempt fun _ h => h) fun setting hsetting => ?_
  refine yields_bind (yields_true _) fun _ _ => ?_
  refine yields_bind (yields_ofAttempt fun _ h => h) fun output houtput => yields_pure ?_
  exact ⟨output, ⟨setting, hsetting, houtput⟩, rfl⟩

private theorem contribute_contributes (options : GenerationOptions) (unit : SourceUnit) :
    (contribute options unit).Yields fun fragments => ∃ tables outputs,
      Contributions options unit tables outputs ∧ fragments = contributed tables outputs := by
  unfold contribute
  refine yields_bind (yields_ofAttempt fun _ h => h) fun tables htables => ?_
  refine yields_bind (yields_mapM fun content _ => classFragments_contributes content)
    fun classes hclasses => yields_pure ?_
  obtain ⟨outputs, houtputs, rfl⟩ := exists_map hclasses
  exact ⟨tables, outputs, ⟨Attempt.of_mapM_ok htables, houtputs⟩, by rw [contributed, List.flatMap_def]⟩

private theorem compose_contributes (options : GenerationOptions) (unit : SourceUnit) :
    (compose options unit).Yields fun composed => ∃ tables outputs,
      Contributions options unit tables outputs ∧
      composed.fragments = distinctFragments (contributed tables outputs) := by
  unfold compose
  refine yields_bind (contribute_contributes options unit) fun fragments hfragments => ?_
  obtain ⟨tables, outputs, hcontributions, rfl⟩ := hfragments
  exact yields_bind (yields_true _) fun patches _ =>
    yields_pure ⟨tables, outputs, hcontributions, rfl⟩

/-- Every composition is made of what its unit contributes. -/
theorem exists_contributions {earlier diagnostics : List Diagnostic}
    (h : (compose options unit).outcome earlier = (.ok composed, diagnostics)) :
    ∃ tables outputs, Contributions options unit tables outputs ∧
      composed.fragments = distinctFragments (contributed tables outputs) :=
  compose_contributes options unit earlier composed diagnostics h

/-! ### Settings -/

theorem ofClass_eq {content : AnnotatedClass} {setting : ClassSetting}
    (h : ClassSetting.ofClass options unit content = .ok setting) :
    ∃ config, content.config options.defaults = .ok config ∧
      setting = ⟨content.model, config, unit.enums, options.customs⟩ := by
  obtain ⟨config, hconfig, h⟩ := Attempt.of_bind_ok h
  exact ⟨config, hconfig, (Except.ok.inj h).symm⟩

private theorem map_name_enums (elements : List Element) : ((elements.filterMap fun
    | .class _ => none
    | .enum content => some content).map EnumModel.name).Sublist (elements.map Element.name) := by
  induction elements with
  | nil => exact .slnil
  | cons element elements ih =>
    cases element with
    | «class» content => exact ih.cons _
    | enum content => exact ih.cons_cons _

theorem nodup_enums (hunique : (unit.elements.map Element.name).Nodup) :
    (unit.enums.map EnumModel.name).Nodup :=
  hunique.sublist (map_name_enums unit.elements)

/-! ### Supporting code -/

/-- The factory of a class decodes a field through the conversion of an enumeration. -/
inductive DecodesThrough (options : GenerationOptions) (unit : SourceUnit) (model : EnumModel) : Prop
  | intro {content : AnnotatedClass} {setting : ClassSetting} {output : ClassOutput} {factory : Factory}
    {reading : Reading} (hcontent : content ∈ unit.classes)
    (hsetting : ClassSetting.ofClass options unit content = .ok setting)
    (houtput : ClassOutput.generate setting = .ok output) (hfactory : output.factory = some factory)
    (hreading : reading ∈ factory.readings) (hmodel : reading.GoesThrough setting model)

/-- The options of a class ask for a factory and for a check of the keys that it gets. -/
inductive ChecksKeys (options : GenerationOptions) (unit : SourceUnit) : Prop
  | intro {content : AnnotatedClass} {setting : ClassSetting} (hcontent : content ∈ unit.classes)
    (hsetting : ClassSetting.ofClass options unit content = .ok setting)
    (hfactory : setting.config.createFactory = true)
    (hchecks : setting.config.disallowUnrecognizedKeys = true)

namespace Contributions

variable (h : Contributions options unit tables outputs)

include h

theorem exists_table {model : EnumModel} (hmodel : model ∈ unit.enums) :
    ∃ table ∈ tables, enumValues model = .ok table := exists_of_mem_left h.tables hmodel

theorem exists_model {table : Fragment} (htable : table ∈ tables) :
    ∃ model ∈ unit.enums, enumValues model = .ok table := exists_of_mem_right h.tables htable

/-- The code of a class is contributed. -/
private theorem output_mem {content : AnnotatedClass} {setting : ClassSetting} {output : ClassOutput}
    (hcontent : content ∈ unit.classes)
    (hsetting : ClassSetting.ofClass options unit content = .ok setting)
    (houtput : ClassOutput.generate setting = .ok output) : output ∈ outputs := by
  obtain ⟨other, hmem, setting', hsetting', hother⟩ := exists_of_mem_left h.outputs hcontent
  obtain rfl := Except.ok.inj (hsetting.symm.trans hsetting')
  obtain rfl := Except.ok.inj (houtput.symm.trans hother)
  exact hmem

variable (hcustoms : options.customs = []) (hunique : (unit.elements.map Element.name).Nodup)

include hcustoms hunique

/-- All contributed code is that of a class of the unit. -/
theorem exists_class {output : ClassOutput} (hmem : output ∈ outputs) :
    ∃ content ∈ unit.classes, ∃ config, content.config options.defaults = .ok config ∧
      ClassSetting.ofClass options unit content =
        .ok ⟨content.model, config, unit.enums, options.customs⟩ ∧
      ClassOutput.generate ⟨content.model, config, unit.enums, options.customs⟩ = .ok output ∧
      output.IsFor ⟨content.model, config, unit.enums, options.customs⟩ := by
  obtain ⟨content, hcontent, setting, hsetting, houtput⟩ := exists_of_mem_right h.outputs hmem
  obtain ⟨config, hconfig, rfl⟩ := ofClass_eq hsetting
  exact ⟨content, hcontent, config, hconfig, hsetting, houtput,
    ClassOutput.generate_isFor hcustoms (nodup_enums hunique) houtput⟩

/-- The contributed fragments are the tables of enumerations, the declarations of classes, and the
supporting code that factories need. -/
theorem mem_contributed_iff (fragment : Fragment) : fragment ∈ contributed tables outputs ↔
    fragment ∈ tables ∨ (∃ output ∈ outputs, fragment ∈ output.own) ∨
      (∃ model, DecodesThrough options unit model) ∧ fragment = enumDecode ∨
      ChecksKeys options unit ∧ fragment = checkKeys := by
  rw [contributed, List.mem_append, List.mem_flatMap]
  constructor
  · rintro (htable | ⟨output, houtput, hmem⟩)
    · exact .inl htable
    rw [ClassOutput.fragments_eq, List.mem_append] at hmem
    rcases hmem with hown | hrequested
    · exact .inr (.inl ⟨output, houtput, hown⟩)
    obtain ⟨content, hcontent, config, hconfig, hsetting, hgenerate, hfor⟩ :=
      h.exists_class hcustoms hunique houtput
    obtain ⟨factory, hfactory, ⟨reading, hreading, model, hmodel, hfragment⟩ | ⟨hchecks, rfl⟩⟩ :=
      (hfor.requested_iff fragment).1 hrequested
    · rcases hfragment with htable | rfl
      · -- the table that the factory requests is the one that the enumeration contributes itself
        obtain ⟨type, -, hchecks⟩ := hmodel
        obtain ⟨table, hmem, htable'⟩ := h.exists_table hchecks.mem
        obtain rfl := Except.ok.inj (htable.symm.trans htable')
        exact .inl hmem
      · exact .inr
          (.inr (.inl ⟨⟨model, .intro hcontent hsetting hgenerate hfactory hreading hmodel⟩, rfl⟩))
    · have hcreate := hfor.factory_isSome
      rw [Option.mem_def.1 hfactory] at hcreate
      exact .inr (.inr (.inr ⟨.intro hcontent hsetting hcreate.symm hchecks, rfl⟩))
  · -- a helper comes with the factory that requests it
    rintro (htable | ⟨output, houtput, hown⟩ | ⟨⟨model, hmodel⟩, rfl⟩ | ⟨hchecks, rfl⟩)
    · exact .inl htable
    · exact .inr ⟨output, houtput, List.mem_append_left _ hown⟩
    · cases hmodel with
      | @intro content setting output factory reading hcontent hsetting houtput hfactory hreading
          hmodel =>
        have hmem := h.output_mem hcontent hsetting houtput
        obtain ⟨config, -, rfl⟩ := ofClass_eq hsetting
        have hfor := ClassOutput.generate_isFor hcustoms (nodup_enums hunique) houtput
        refine .inr ⟨output, hmem,
          List.mem_append_right _ ((hfor.requested_iff _).2 ⟨factory, hfactory, .inl ?_⟩)⟩
        exact ⟨reading, hreading, model, hmodel, .inr rfl⟩
    · cases hchecks with
      | @intro content setting hcontent hsetting hcreate hchecks =>
        obtain ⟨output, hmem, setting', hsetting', houtput⟩ := exists_of_mem_left h.outputs hcontent
        obtain rfl := Except.ok.inj (hsetting.symm.trans hsetting')
        obtain ⟨config, -, rfl⟩ := ofClass_eq hsetting
        have hfor := ClassOutput.generate_isFor hcustoms (nodup_enums hunique) houtput
        obtain ⟨factory, hfactory⟩ := Option.isSome_iff_exists.1 (hfor.factory_isSome.trans hcreate)
        exact .inr ⟨output, hmem, List.mem_append_right _
          ((hfor.requested_iff _).2 ⟨factory, hfactory, .inr ⟨hchecks, rfl⟩⟩)⟩

end Contributions

/-! ### Texts -/

private theorem exists_constant_of_enumValues {model : EnumModel} {table : Fragment}
    (h : enumValues model = .ok table) :
    ∃ values, table = .constant (enumValuesName model.name) (values ++ [0x29]) := by
  obtain ⟨values, -, h⟩ := Attempt.of_bind_ok h
  exact ⟨"Object.freeze([" ++ Text.join ", " values ++ "]", by
    rw [← Except.ok.inj h, List.append_assoc _ ("]" : Text)]
    rfl⟩

private theorem isExported_table {model : EnumModel} {table : Fragment}
    (h : enumValues model = .ok table) :
    table.isExported = true := by
  obtain ⟨values, rfl⟩ := exists_constant_of_enumValues h
  rfl

private theorem isExported_own {fragment : Fragment} (h : ClassOutput.IsOwn fragment) :
    fragment.isExported = true := by
  cases fragment with
  | function isExported name parameters lines => exact h
  | constant name value => rfl

private theorem exists_entries (name : Text) (entries : List Text) :
    ∃ value, constantTable name entries = .constant name (value ++ [0x7D]) := by
  unfold constantTable
  split
  · exact ⟨[0x7B], rfl⟩
  · refine ⟨("\x7b\n" : Text) ++ Text.join ",\n" (entries.map fun entry => "  " ++ entry) ++ "\n", ?_⟩
    rw [List.append_assoc _ ("\n" : Text)]
    rfl

/-- The declarations of a class have other texts than the tables of enumerations. -/
theorem text_ne_of_isOwn {fragment table : Fragment} {model : EnumModel} (h : ClassOutput.IsOwn fragment)
    (htable : enumValues model = .ok table) : fragment.text ≠ table.text := by
  intro heq
  obtain ⟨values, rfl⟩ := exists_constant_of_enumValues htable
  cases fragment with
  | function isExported name parameters lines =>
    have hlast := congrArg List.getLast? heq
    rw [Fragment.getLast?_text, Fragment.getLast?_text] at hlast
    have hends : (0x7D : CodeUnit) = 0x3B := Option.some.inj hlast
    exact absurd hends (by decide)
  | constant name value =>
    obtain ⟨entries, hentries⟩ := h
    obtain ⟨value', hvalue⟩ := exists_entries name entries
    rw [hentries, hvalue] at heq
    have hlast := Fragment.getLast?_value_eq_of_text (by simp) (by simp) heq
    rw [List.getLast?_concat, List.getLast?_concat] at hlast
    exact absurd hlast (by decide)

/-! ### Collapsed fragments -/

/-- The fragments of a composition are contributed ones, each text once, where it first occurs. -/
structure Composition.Collapses (composed : Composition) (contributed : List Fragment) : Prop where
  nonempty : ∀ fragment ∈ composed.fragments, fragment.text ≠ []
  trimmed : ∀ fragment ∈ composed.fragments, fragment.text.trim = fragment.text
  nodup : (composed.fragments.map Fragment.text).Nodup
  firstSeen : FirstSeen (contributed.map Fragment.text) (composed.fragments.map Fragment.text)
  text_eq : composed.text = Text.join "\n\n" (composed.fragments.map Fragment.text)

theorem Composition.collapses {list : List Fragment} (h : composed.fragments = distinctFragments list) :
    composed.Collapses list := by
  have hfirstSeen : FirstSeen (list.map Fragment.text) (composed.fragments.map Fragment.text) := by
    rw [h, map_distinctFragments]
    exact distinct_firstSeen _
  exact ⟨fun fragment _ => fragment.text_ne_nil, fun fragment _ => fragment.trim_text,
    hfirstSeen.nodup, hfirstSeen, rfl⟩

/-- The supporting code among the fragments: an enumeration that a factory decodes has its table
there, in front of all fragments of classes that are no such tables, and the function that looks
values up is there exactly if there is such an enumeration; the function that checks keys is there
exactly if the options of a class ask for it. -/
structure SharesHelpers (options : GenerationOptions) (unit : SourceUnit) (outputs : List ClassOutput)
    (texts : List Text) : Prop where
  lookup : ∀ model, DecodesThrough options unit model → enumDecode.text ∈ texts
  table : ∀ model, DecodesThrough options unit model → ∃ table, enumValues model = .ok table ∧
    table.text ∈ texts ∧
    ∀ output ∈ outputs, ∀ fragment ∈ output.fragments, (∀ model, enumValues model ≠ .ok fragment) →
      fragment.text ∈ texts ∧ texts.idxOf table.text < texts.idxOf fragment.text
  lookup_only : enumDecode.text ∈ texts → ∃ model, DecodesThrough options unit model
  checkKeys_iff : checkKeys.text ∈ texts ↔ ChecksKeys options unit

theorem DecodesThrough.mem {model : EnumModel} (h : DecodesThrough options unit model) :
    model ∈ unit.enums := by
  cases h with
  | intro hcontent hsetting houtput hfactory hreading hmodel =>
    obtain ⟨config, -, rfl⟩ := ofClass_eq hsetting
    obtain ⟨type, -, hchecks⟩ := hmodel
    exact hchecks.mem

namespace Contributions

variable (h : Contributions options unit tables outputs) (hcustoms : options.customs = [])
  (hunique : (unit.elements.map Element.name).Nodup) {texts : List Text}
  (htexts : FirstSeen ((contributed tables outputs).map Fragment.text) texts)

include h hcustoms hunique

private theorem isOwn {output : ClassOutput} (houtput : output ∈ outputs) {fragment : Fragment}
    (hfragment : fragment ∈ output.own) : ClassOutput.IsOwn fragment := by
  obtain ⟨_, _, _, _, _, _, hfor⟩ := h.exists_class hcustoms hunique houtput
  exact hfor.forms fragment hfragment

/-- A fragment of a class that is no table of an enumeration has another text than all these tables. -/
private theorem text_not_mem_tables {fragment : Fragment}
    (hfragment : fragment ∈ contributed tables outputs)
    (hno : ∀ model, enumValues model ≠ .ok fragment) : fragment.text ∉ tables.map Fragment.text := by
  intro hsame
  obtain ⟨table, htable, htext⟩ := List.mem_map.1 hsame
  obtain ⟨model, -, hvalues⟩ := h.exists_model htable
  have hexported := (Fragment.isExported_eq_of_text htext).symm.trans (isExported_table hvalues)
  rcases (h.mem_contributed_iff hcustoms hunique fragment).1 hfragment with
    hfragment | ⟨output, houtput, hfragment⟩ | ⟨-, rfl⟩ | ⟨-, rfl⟩
  · obtain ⟨model, -, hvalues⟩ := h.exists_model hfragment
    exact hno model hvalues
  · exact text_ne_of_isOwn (h.isOwn hcustoms hunique houtput hfragment) hvalues htext.symm
  · cases hexported
  · cases hexported

include htexts

/-- Only the two supporting functions are not exported. -/
private theorem support_of_text {fragment : Fragment} (hexported : fragment.isExported = false)
    (hfragment : fragment.text ∈ texts) :
    (∃ model, DecodesThrough options unit model) ∧ fragment.text = enumDecode.text ∨
      ChecksKeys options unit ∧ fragment.text = checkKeys.text := by
  obtain ⟨other, hother, htext⟩ := List.mem_map.1 ((htexts.mem_iff _).1 hfragment)
  have hexported : other.isExported = false := (Fragment.isExported_eq_of_text htext).trans hexported
  rcases (h.mem_contributed_iff hcustoms hunique other).1 hother with
    htable | ⟨output, houtput, hfragment⟩ | ⟨hmodel, rfl⟩ | ⟨hchecks, rfl⟩
  · obtain ⟨model, -, hvalues⟩ := h.exists_model htable
    rw [isExported_table hvalues] at hexported
    cases hexported
  · rw [isExported_own (h.isOwn hcustoms hunique houtput hfragment)] at hexported
    cases hexported
  · exact .inl ⟨hmodel, htext.symm⟩
  · exact .inr ⟨hchecks, htext.symm⟩

/-- The table of an enumeration stands in front of the fragments of classes. -/
private theorem table_before {table : Fragment} (htable : table ∈ tables) {output : ClassOutput}
    (houtput : output ∈ outputs) {fragment : Fragment} (hfragment : fragment ∈ output.fragments)
    (hno : ∀ model, enumValues model ≠ .ok fragment) :
    fragment.text ∈ texts ∧ texts.idxOf table.text < texts.idxOf fragment.text := by
  have hcontributed : fragment ∈ contributed tables outputs :=
    List.mem_append_right _ (List.mem_flatMap.2 ⟨output, houtput, hfragment⟩)
  have hcontributed' : table ∈ contributed tables outputs := List.mem_append_left _ htable
  have hmem := List.mem_map_of_mem (f := Fragment.text) hcontributed
  have hmem' := List.mem_map_of_mem (f := Fragment.text) hcontributed'
  -- the tables are contributed first, and the fragment has the text of none of them
  refine ⟨(htexts.mem_iff _).2 hmem, htexts.idxOf_lt hmem' hmem ?_⟩
  have hfront := List.mem_map_of_mem (f := Fragment.text) htable
  have hlt := List.idxOf_lt_length_of_mem hfront
  rw [contributed, List.map_append, List.idxOf_append_of_mem hfront,
    List.idxOf_append_of_notMem (h.text_not_mem_tables hcustoms hunique hcontributed hno)]
  omega

private theorem sharesHelpers : SharesHelpers options unit outputs texts := by
  have hkept : ∀ {fragment}, fragment ∈ contributed tables outputs → fragment.text ∈ texts :=
    fun hcontributed =>
    (htexts.mem_iff _).2 (List.mem_map_of_mem hcontributed)
  have hmem := h.mem_contributed_iff hcustoms hunique
  have hne : enumDecode.text ≠ checkKeys.text := by decide
  refine ⟨fun model hmodel => ?_, fun model hmodel => ?_, fun hlookup => ?_, fun hcheck =>
    ?_, fun hcheck => ?_⟩
  · exact hkept ((hmem _).2 (.inr (.inr (.inl ⟨⟨model, hmodel⟩, rfl⟩))))
  · obtain ⟨table, htable, hvalues⟩ := h.exists_table hmodel.mem
    refine ⟨table, hvalues, hkept ((hmem table).2 (.inl htable)),
      fun output houtput fragment hfragment hno => ?_⟩
    exact h.table_before hcustoms hunique htexts htable houtput hfragment hno
  · rcases h.support_of_text hcustoms hunique htexts rfl hlookup with ⟨hmodel, -⟩ | ⟨-, htext⟩
    · exact hmodel
    · exact absurd htext hne
  · rcases h.support_of_text hcustoms hunique htexts rfl hcheck with ⟨-, htext⟩ | ⟨hchecks, -⟩
    · exact absurd htext hne.symm
    · exact hchecks
  · exact hkept ((hmem _).2 (.inr (.inr (.inr ⟨hcheck, rfl⟩))))

end Contributions

/-- The fragments of a composition with the built-in converters are the contributed ones, each text
once, and the supporting code is among them exactly where it is needed. -/
theorem compose_shares {earlier diagnostics : List Diagnostic} (hcustoms : options.customs = [])
    (hunique : (unit.elements.map Element.name).Nodup)
    (h : (compose options unit).outcome earlier = (.ok composed, diagnostics)) :
    ∃ tables outputs, Contributions options unit tables outputs ∧
      composed.Collapses (contributed tables outputs) ∧
      SharesHelpers options unit outputs (composed.fragments.map Fragment.text) := by
  obtain ⟨tables, outputs, hcontributions, hfragments⟩ := exists_contributions h
  have hcollapses : composed.Collapses (contributed tables outputs) := Composition.collapses hfragments
  exact ⟨tables, outputs, hcontributions, hcollapses,
    hcontributions.sharesHelpers hcustoms hunique hcollapses.firstSeen⟩

/-- A class with a list of an enumeration gets the table and both supporting functions. -/
theorem compose_shares_paint :
    let options : GenerationOptions := ⟨.undefined, [], "./paint.g.js", false⟩
    let color : EnumModel := .mk "Color" [.string "red", .string "blue"]
    let paint : AnnotatedClass :=
      ⟨⟨"Paint", [⟨"colors", "Array<Color>", false, false, true, true⟩], [], [], none⟩,
        .object [("disallowUnrecognizedKeys", .bool true)], .undefined⟩
    let unit : SourceUnit := ⟨"paint.js", [], [.enum color, .class paint], [], none, []⟩
    let table : Text := "export const colorEnumValues = Object.freeze([\"red\", \"blue\"]);"
    let factory : Text := "export function paintFromJson(json) \x7b\n" ++
      "  $checkKeys(json, [\"colors\"]);\n" ++
      "  const instance = new Paint();\n" ++
      "  instance.colors = json[\"colors\"].map((e) => $enumDecode(colorEnumValues, e, \"Color\"));\n" ++
      "  return instance;\n\x7d"
    let encoder : Text := "export function paintToJson(instance) \x7b\n" ++
      "  return \x7b\n    \"colors\": instance.colors\n  \x7d;\n\x7d"
    ∃ composed diagnostics tables outputs, options.customs = [] ∧
      (unit.elements.map Element.name).Nodup ∧
      (compose options unit).outcome [] = (.ok composed, diagnostics) ∧
      composed.fragments.map Fragment.text = [table, factory, encoder, enumDecode.text, checkKeys.text] ∧
      Contributions options unit tables outputs ∧ composed.Collapses (contributed tables outputs) ∧
      SharesHelpers options unit outputs (composed.fragments.map Fragment.text) := by
  intro options color paint unit table factory encoder
  have hunique : (unit.elements.map Element.name).Nodup := by decide
  have hcomposed : ((compose options unit).outcome []).1.toOption.any fun composed =>
      decide (composed.fragments.map Fragment.text =
        [table, factory, encoder, enumDecode.text, checkKeys.text]) := by
    decide +kernel
  obtain ⟨composed, diagnostics, hrun, htexts⟩ := exists_of_any hcomposed
  obtain ⟨tables, outputs, hcontributions, hcollapses, hshares⟩ := compose_shares rfl hunique hrun
  exact ⟨composed, diagnostics, tables, outputs, rfl, hunique, hrun, of_decide_eq_true htexts,
    hcontributions, hcollapses, hshares⟩

end JsonCompanion
