import JsonCompanion.Proofs.Compose.Pairs
import JsonCompanion.Proofs.Emit.Literal

/-!
# Defaults that are left out

* `Value.held?` is what a variable holds that has primitive data as value, and `Denotes` says what a
  literal evaluates to.
* `Test.Passes` says for which members a test passes, `passes_iff` that the test for a default
  passes for those that differ from it.
* `Config.isComparable_of_merge`: a default that is to be left out can be compared, if the options
  are merged at all.
* `generate_restores`: a member that is left out since it is the default is restored from the default.
-/

namespace JsonCompanion

open Emit Collecting Running

/-! ### Literals and tests of running code -/

/-- What a variable holds that has primitive data as its value. -/
def Value.held? {Ref : Type} : Value → Option (Held Ref)
  | .undefined => some .undefined
  | .null => some .null
  | .bool b => some (.bool b)
  | .number n => some (.number n)
  | .bigint n => some (.bigint n)
  | .string t => some (.string t)
  | _ => none

/-- A literal evaluates to data. -/
def Emit.Denotes (literal : Text) (value : Value) : Prop :=
  ∃ e, Script.Expr.parse? literal = some e ∧ ∀ label, e.value label = .ok value

/-- What is the same as far as comparisons go that take a number which is none to be itself. -/
def Running.Held.Same {Ref : Type} (first second : Held Ref) : Prop :=
  first.StrictlyEqual second ∨ first.IsNaN ∧ second.IsNaN

/-- When a test of a member passes. -/
def Emit.Test.Passes {Ref : Type} (member : Held Ref) : Test → Prop
  | .notNull => member ≠ .undefined ∧ member ≠ .null
  | .notNaN => ¬ member.IsNaN
  | .notEqual literal => ∃ value held, Denotes literal value ∧ value.held? = some held ∧
      ¬ member.StrictlyEqual held

/-- Data that can be compared, of which all has a literal but functions. -/
def Value.IsComparable (value : Value) : Prop := value.isUndefined = false ∧ value.isRecord = false

variable {element : Text} {default : Value}

theorem Emit.Denotes.unique {literal : Text} {first second : Value} (hfirst : Denotes literal first)
    (hsecond : Denotes literal second) : first = second := by
  obtain ⟨e, hparse, hvalue⟩ := hfirst
  obtain ⟨e', hparse', hvalue'⟩ := hsecond
  obtain rfl := Option.some.inj (hparse.symm.trans hparse')
  exact Except.ok.inj ((hvalue []).symm.trans (hvalue' []))

/-- Static data is denoted by its literal. -/
theorem Value.IsStatic.denotes (h : default.IsStatic) {written : Text}
    (hwritten : literal element default = .ok written) :
    Denotes written default := by
  obtain ⟨d, htext, hvalue⟩ := h.exists_datum
  obtain rfl := Except.ok.inj ((htext element).symm.trans hwritten)
  exact ⟨d.expr, d.parse?_text, hvalue⟩

/-- Data that can be compared and has a literal is primitive. -/
private theorem exists_held {Ref : Type} (hcomparable : default.IsComparable) {written : Text}
    (hwritten : literal element default = .ok written) :
    ∃ held : Held Ref, default.held? = some held := by
  cases default with
  | undefined | null | bool | number | bigint | string => exact ⟨_, rfl⟩
  | function =>
    rw [literal] at hwritten
    cases hwritten
  | _ => cases hcomparable.2

private theorem isStatic_of_held? {Ref : Type} {held : Held Ref} (h : default.held? = some held) :
    default.IsStatic := by
  cases default with
  | undefined | null | bool | number | bigint | string => constructor
  | _ => cases h

private theorem not_strictlyEqual_nan {Ref : Type} (member : Held Ref) :
    ¬ member.StrictlyEqual (.number .nan) := by
  intro h
  cases member with
  | number n => exact h.2.1 rfl
  | _ => cases h

/-- The test for a default passes for the members that are not the same. -/
theorem Emit.IsDefaultTest.passes_iff {Ref : Type} {member held : Held Ref} {test : Test}
    (htest : IsDefaultTest element default test) (hheld : default.held? = some held) :
    test.Passes member ↔ ¬ member.Same held := by
  cases htest with
  | nan =>
    obtain rfl := Option.some.inj hheld
    have hsame : member.Same (.number .nan) ↔ member.IsNaN := by
      simp [Held.Same, Held.IsNaN, not_strictlyEqual_nan]
    rw [hsame]
    rfl
  | @literal _ written hne hwritten =>
    have hdenotes : Denotes written default := (isStatic_of_held? hheld).denotes hwritten
    -- a comparison with the literal serves, for the one default that equals nothing is tested otherwise
    have hnumber : ¬ held.IsNaN := by
      rintro rfl
      cases default with
      | number n => exact hne (by simpa [Value.held?] using hheld)
      | _ => cases hheld
    have hsame : member.Same held ↔ member.StrictlyEqual held := by
      simp [Held.Same, hnumber]
    rw [hsame]
    constructor
    · rintro ⟨value, other, hvalue, hother, hdiffers⟩
      obtain rfl := hvalue.unique hdenotes
      obtain rfl := Option.some.inj (hother.symm.trans hheld)
      exact hdiffers
    · exact fun hdiffers => ⟨default, held, hdenotes, hheld, hdiffers⟩

/-! ### Options that are accepted -/

private theorem isComparable_of_checkOmission {override : Override}
    (h : Config.checkOmission element override = .ok ())
    (homit : override.flag? "omitIfDefault" = some true) : override.defaultValue.IsComparable := by
  unfold Config.checkOmission at h
  rw [homit] at h
  simp only [beq_self_eq_true, if_true] at h
  split at h
  · cases h
  · next hundefined =>
    split at h
    · cases h
    · next hrecord =>
        exact ⟨Bool.eq_false_of_not_eq_true hundefined, Bool.eq_false_of_not_eq_true hrecord⟩

private theorem isComparable_of_readOverride {target : MergeTarget} {name : Text} {payload : Value}
    {override : Override} (h : Config.readOverride target name payload = .ok override)
    (homit : override.flag? "omitIfDefault" = some true) :
    override.defaultValue.IsComparable := by
  unfold Config.readOverride at h
  dsimp only at h
  split at h
  · cases h
  · obtain ⟨value, -, h⟩ := Attempt.of_bind_ok h
    split at h
    · obtain ⟨_, hcheck, h⟩ := Attempt.of_bind_ok h
      obtain rfl := Except.ok.inj h
      exact isComparable_of_checkOmission hcheck homit
    · obtain rfl := Except.ok.inj h
      cases homit

private theorem readOverride_of_readOverrides {target : MergeTarget} {record : Record}
    {overrides : List (Text × Override)} (h : Config.readOverrides target record = .ok overrides) :
    ∀ entry ∈ overrides,
      ∃ payload, Config.readOverride target entry.1 payload = .ok entry.2 := by
  induction record generalizing overrides with
  | nil =>
    obtain rfl := Except.ok.inj h
    simp
  | cons property record ih =>
    obtain ⟨override, hfirst, h⟩ := Attempt.of_bind_ok h
    obtain ⟨more, hmore, h⟩ := Attempt.of_bind_ok h
    obtain rfl := Except.ok.inj h
    exact List.forall_mem_cons.2 ⟨⟨property.2, hfirst⟩, ih hmore⟩

/-- A default that is to be left out can be compared. -/
theorem Config.isComparable_of_merge {target : MergeTarget}
    {defaults annotation fieldAnnotations : Value} {config : Config}
    (h : Config.merge target defaults annotation fieldAnnotations = .ok config) {name : Text}
    {override : Override} (hoverride : config.override? name = some override)
    (homit : override.flag? "omitIfDefault" = some true) :
    override.defaultValue.IsComparable := by
  obtain ⟨shared, -, h⟩ := Attempt.of_bind_ok h
  obtain ⟨own, -, h⟩ := Attempt.of_bind_ok h
  obtain ⟨fields, hfields, h⟩ := Attempt.of_bind_ok h
  obtain rfl := Except.ok.inj h
  obtain ⟨entry, hentry, rfl⟩ := Option.map_eq_some_iff.1 hoverride
  have hmem : entry ∈ fields := List.mem_of_find?_eq_some hentry
  unfold readFields at hfields
  split at hfields
  · cases Except.ok.inj hfields ▸ hmem
  · cases Except.ok.inj hfields ▸ hmem
  · obtain ⟨payload, hread⟩ := readOverride_of_readOverrides hfields entry hmem
    exact isComparable_of_readOverride hread homit
  · cases hfields

/-! ### Restoring -/

/-- A field is not written if a test fails, which it does for the members that are the same as the
default, and the default is what the look-up of its key is decoded to if that finds nothing. -/
structure RestoresDefault (setting : ClassSetting) (field : Field) (write : KeyWrite)
    (reading : Reading) (default : Value) (test : Test) (fallback : Text) : Prop where
  condition_eq : write.condition = some
    (if (setting.config.key field.name).includeIfNull then test.render
      (memberAccess "instance" field.name)
      else memberAccess "instance" field.name ++ " != null" ++ " && " ++
        test.render (memberAccess "instance" field.name))
  passes_iff : ∀ (Ref : Type), ∃ held : Held Ref, default.held? = some held ∧
    ∀ member : Held Ref, test.Passes member ↔ ¬ member.Same held
  decodes : ∃ converted, reading.code = jsonAccess write.key ++ " == null ? " ++ fallback ++
    " : " ++ converted
  denotes : Denotes fallback default

namespace ClassOutput

variable {setting : ClassSetting} {factory : Factory} {encoder : Encoder}

/-- A field with a default is decoded to that where nothing is found. -/
private theorem exists_fallback {field : Field} {access code : Text}
    (h : IsDecoding setting field access code)
    (hdefault : (setting.config.key field.name).defaultValue = default)
    (hcomparable : default.IsComparable) :
    ∃ fallback converted, literal (setting.element field.name) default = .ok fallback ∧
      code = access ++ " == null ? " ++ fallback ++ " : " ++ converted := by
  have hhas : (setting.config.key field.name).hasDefault = true := by
    rw [KeyConfig.hasDefault, hdefault, hcomparable.1]
    rfl
  cases h with
  | plain hnone => cases hnone.symm.trans hhas
  | @withDefault _ _ _ fallback converted _ _ hfallback =>
    rw [hdefault] at hfallback
    exact ⟨fallback, converted, hfallback, rfl⟩

/-- The condition of a field whose default is left out has the test for that. -/
private theorem exists_test {key : KeyConfig} {access : Text} {condition : Option Text}
    (h : Guards key element access condition) (homit : key.omitIfDefault = true) :
    ∃ test, IsDefaultTest element key.defaultValue test ∧
      condition = some (if key.includeIfNull then test.render access else access ++ " != null" ++
        " && " ++ test.render access) := by
  cases h with
  | unguarded _ hno | present _ hno => cases hno.symm.trans homit
  | @changed test hnull _ htest => exact ⟨test, htest, by rw [if_pos hnull]⟩
  | @presentAndChanged test hnull _ htest => exact ⟨test, htest, by rw [if_neg (by simp [hnull])]⟩

private theorem exists_restoresDefault {field : Field} {write : KeyWrite} {reading : Reading}
    (hwrite : WritesField setting field write) (hname : reading.field.name = field.name)
    (hdecodes : IsDecoding setting reading.field (jsonAccess write.key) reading.code)
    (hdefault : (setting.config.key field.name).defaultValue = default)
    (hcomparable : default.IsComparable) (homit : (setting.config.key field.name).omitIfDefault = true) :
    ∃ test fallback, RestoresDefault setting field write reading default test fallback := by
  obtain ⟨test, htest, hcondition⟩ := exists_test hwrite.guards homit
  obtain ⟨fallback, converted, hfallback, hcode⟩ :=
    exists_fallback hdecodes (hname ▸ hdefault) hcomparable
  have hprimitive (Ref : Type) : ∃ held : Held Ref, default.held? = some held :=
    exists_held hcomparable hfallback
  obtain ⟨_, hheld⟩ := hprimitive Empty
  rw [hdefault] at htest
  refine ⟨test, fallback, hcondition, fun Ref => ?_, ⟨converted, hcode⟩,
    (isStatic_of_held? hheld).denotes hfallback⟩
  obtain ⟨held, hheld⟩ := hprimitive Ref
  exact ⟨held, hheld, fun member => htest.passes_iff hheld⟩

/-- Every field whose default is to be left out, and that is both written and read, loses nothing by
that: the members for which it is left out are the same as the default, and where its key is not
found, it is decoded to that. -/
theorem generate_restores {target : MergeTarget} {defaults annotation fieldAnnotations : Value}
    {output : ClassOutput}
    (hmerge : Config.merge target defaults annotation fieldAnnotations = .ok setting.config)
    (h : generate setting = .ok output) (hfactory : output.factory = some factory)
    (hencoder : output.encoder = some encoder) :
    ∃ plan fields literal statements, Pairs setting factory encoder plan fields literal statements ∧
      List.Forall₂ (fun field write => ∀ reading ∈ factory.readings, reading.field.name = field.name →
        ∀ override, setting.config.override? field.name = some override →
        override.flag? "omitIfDefault" = some true →
          ∃ test fallback,
          RestoresDefault setting field write reading override.defaultValue test fallback)
        fields (literal ++ statements) := by
  obtain ⟨plan, fields, literal, statements, hpairs⟩ := exists_pairs h hfactory hencoder
  refine ⟨plan, fields, literal, statements, hpairs, hpairs.forall_readings ?_⟩
  intro field write reading hwrite _ hreading hname override hoverride homit
  have hdefault : (setting.config.key field.name).defaultValue = override.defaultValue := by
    rw [Config.key, hoverride]
    rfl
  have homitted : (setting.config.key field.name).omitIfDefault = true := by
    rw [Config.key, hoverride]
    exact congrArg (Option.getD · false) homit
  have hcomparable := Config.isComparable_of_merge hmerge hoverride homit
  exact exists_restoresDefault hwrite hname (hpairs.decodes hwrite hreading hname) hdefault
    hcomparable homitted

/-- A zero with a minus sign, which both zeros are compared with, and a default that equals nothing. -/
theorem generate_restores_point :
    let fields : List Field :=
      [⟨"x", "number", false, false, true, true⟩, ⟨"y", "number", false, false, true, true⟩]
    let model : ClassModel := ⟨"Point", fields, [], [], none⟩
    let x : Record := [("defaultValue", .number (.zero true)), ("omitIfDefault", .bool true)]
    let y : Record :=
      [("includeIfNull", .bool false), ("defaultValue", .number .nan), ("omitIfDefault", .bool true)]
    let fieldAnnotations : Value := .object [("x", .object x), ("y", .object y)]
    let factoryLines : List Text := [
      "  const instance = new Point();",
      "  instance.x = json[\"x\"] == null ? -0 : Number(json[\"x\"]);",
      "  instance.y = json[\"y\"] == null ? NaN : Number(json[\"y\"]);",
      "  return instance;"]
    let encoderLines : List Text := [
      "  const json = \x7b\x7d;",
      "  if (instance.x !== -0) \x7b\n    json[\"x\"] = instance.x;\n  \x7d",
      "  if (instance.y != null && !Number.isNaN(instance.y)) \x7b\n    json[\"y\"] = instance.y;\n  \x7d",
      "  return json;"]
    ∃ config output factory encoder,
      Config.merge ⟨"Point", some ["x", "y"]⟩ .undefined (.bool true) fieldAnnotations = .ok config ∧
      generate ⟨model, config, [], []⟩ = .ok output ∧ output.factory = some factory ∧
      output.encoder = some encoder ∧ factory.body = factoryLines ∧ encoder.body = encoderLines ∧
      ∃ plan fields literal statements,
        Pairs ⟨model, config, [], []⟩ factory encoder plan fields literal statements ∧
        List.Forall₂ (fun field write => ∀ reading ∈ factory.readings, reading.field.name = field.name →
          ∀ override, config.override? field.name = some override →
          override.flag? "omitIfDefault" = some true →
            ∃ test fallback,
              RestoresDefault ⟨model, config, [], []⟩ field write reading override.defaultValue test
              fallback)
          fields (literal ++ statements) := by
  intro fields model x y fieldAnnotations factoryLines encoderLines
  have hbody :
      ((Config.merge ⟨"Point", some ["x", "y"]⟩ .undefined (.bool true) fieldAnnotations).toOption.any
        fun config => (generate ⟨model, config, [], []⟩).toOption.any fun output =>
          output.factory.any (fun factory => factory.body == factoryLines) &&
            output.encoder.any fun encoder => encoder.body == encoderLines) = true := by decide +kernel
  obtain ⟨config, hmerge, hgenerated⟩ := Attempt.exists_of_any hbody
  obtain ⟨output, houtput, hparts⟩ := Attempt.exists_of_any hgenerated
  rw [Bool.and_eq_true] at hparts
  obtain ⟨factory, hfactory, hreads⟩ := (Option.any_eq_true _ _).1 hparts.1
  obtain ⟨encoder, hencoder, hwrites⟩ := (Option.any_eq_true _ _).1 hparts.2
  exact ⟨config, output, factory, encoder, hmerge, houtput, hfactory, hencoder, beq_iff_eq.1 hreads,
    beq_iff_eq.1 hwrites, generate_restores hmerge houtput hfactory hencoder⟩

end ClassOutput

end JsonCompanion
