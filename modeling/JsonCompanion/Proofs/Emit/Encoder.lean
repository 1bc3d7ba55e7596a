import Mathlib.Data.List.Forall2
import Mathlib.Data.List.TakeWhile
import JsonCompanion.Emit.Encoder
import JsonCompanion.Proofs.Collecting
import JsonCompanion.Proofs.Model.Selection

/-!
# What encoders write

The lines of an encoder are read as writes of keys, one after another, whatever the values are.

* `KeyWrite` is a write as running code makes it, in one of four forms, and `IsBody` reads lines as
  such writes: the entries of an object literal, and statements behind it.
* `WritesField` says which write a field asks for: its key, its encoding, and the condition of `Guards`.
* `WritesInOrder` says that lines make the writes of some fields in their order; `plan_yields` that
  those of every encoder do.
-/

namespace JsonCompanion.Emit

open Collecting

/-! ### Writes of keys -/

/-- How a key is written: by an entry of an object literal, with the key as it is or computed, by an
assignment, or by the definition of a property. -/
inductive WriteForm
  | entry
  | computed
  | assigned
  | defined
  deriving DecidableEq

/-- A write of a key, with the code of its value and of the condition under which it is made, if
there is one. -/
structure KeyWrite where
  form : WriteForm
  key : Text
  value : Text
  condition : Option Text
  deriving DecidableEq

namespace KeyWrite

/-- An entry of an object literal makes a write, and always does. -/
inductive IsEntry : KeyWrite → Text → Prop
  | plain (key value : Text) : IsEntry ⟨.entry, key, value, none⟩ ("    " ++ key.quote ++ ": " ++ value)
  | computed (key value : Text) : IsEntry ⟨.computed, key, value, none⟩
      ("    [" ++ key.quote ++ "]: " ++ value)

/-- An object literal makes writes. -/
inductive IsLiteral : List KeyWrite → Text → Prop
  | empty : IsLiteral [] "\x7b\x7d"
  | entries {writes : List KeyWrite} {lines : List Text} (hne : writes ≠ [])
      (h : List.Forall₂ IsEntry writes lines) :
    IsLiteral writes ("\x7b\n" ++ Text.join ",\n" lines ++ "\n  \x7d")

/-- Code makes a write where it is reached. -/
inductive IsEffect : KeyWrite → Text → Prop
  | assigned (key value : Text) (condition : Option Text) :
    IsEffect ⟨.assigned, key, value, condition⟩ ("json[" ++ key.quote ++ "] = " ++ value ++ ";")
  | defined (key value : Text) (condition : Option Text) :
    IsEffect ⟨.defined, key, value, condition⟩
      ("Object.defineProperty(json, " ++ key.quote ++ ", \x7b value: " ++ value ++
      ", enumerable: true, writable: true, configurable: true \x7d);")

/-- A statement makes a write, under its condition if it has one. -/
inductive IsStatement : KeyWrite → Text → Prop
  | always {write : KeyWrite} {effect : Text} (h : IsEffect write effect)
      (hcondition : write.condition = none) :
    IsStatement write ("  " ++ effect)
  | guarded {write : KeyWrite} {effect condition : Text} (h : IsEffect write effect)
    (hcondition : write.condition = some condition) :
    IsStatement write ("  if (" ++ condition ++ ") \x7b\n    " ++ effect ++ "\n  \x7d")

/-- The lines of a function make writes: it gives the object of a literal, or adds to it by
statements first. -/
inductive IsBody : (literal statements : List KeyWrite) → List Text → Prop
  | literal {writes : List KeyWrite} {object : Text} (h : IsLiteral writes object) :
    IsBody writes [] ["  return " ++ object ++ ";"]
  | statements {literal statements : List KeyWrite} {object : Text} {lines : List Text}
      (h : IsLiteral literal object)
    (hstatements : List.Forall₂ IsStatement statements lines) :
    IsBody literal statements
      (("  const json = " ++ object ++ ";" : Text) :: lines ++ [("  return json;" : Text)])

end KeyWrite

/-! ### Writes of fields -/

/-- Code encodes a field as the conversions do. -/
def IsEncoding (setting : ClassSetting) (field : Field) (code : Text) : Prop :=
  ∃ type before left, setting.fieldType field = .ok type ∧
    (convert (setting.conversion field.name) .encode type
      (memberAccess "instance" field.name)).outcome before = (.ok code, left)

/-- The test that a member is not the default: a comparison with its literal, or the test for what
equals nothing. -/
inductive IsDefaultTest (element : Text) : Value → Test → Prop
  | nan : IsDefaultTest element (.number .nan) .notNaN
  | literal {default : Value} {written : Text} (hne : default ≠ .number .nan)
    (hwritten : literal element default = .ok written) :
      IsDefaultTest element default (.notEqual written)

/-- The condition for the write of a member: that it is not null unless null is included, and that
it is not the default if the default is omitted. -/
inductive Guards (key : KeyConfig) (element access : Text) : Option Text → Prop
  | unguarded (hnull : key.includeIfNull = true) (homit : key.omitIfDefault = false) : Guards key
      element access none
  | present (hnull : key.includeIfNull = false) (homit : key.omitIfDefault = false) :
    Guards key element access (some (access ++ " != null"))
  | changed {test : Test} (hnull : key.includeIfNull = true) (homit : key.omitIfDefault = true)
    (htest : IsDefaultTest element key.defaultValue test) :
      Guards key element access (some (test.render access))
  | presentAndChanged {test : Test} (hnull : key.includeIfNull = false)
      (homit : key.omitIfDefault = true)
    (htest : IsDefaultTest element key.defaultValue test) :
    Guards key element access (some (access ++ " != null" ++ " && " ++ test.render access))

/-- The write that a field asks for.  The key of the prototype is computed or defined, so that it is
an ordinary one. -/
structure WritesField (setting : ClassSetting) (field : Field) (write : KeyWrite) : Prop where
  key_eq : write.key = setting.config.outputKey field
  encodes : IsEncoding setting field write.value
  guards : Guards (setting.config.key field.name) (setting.element field.name)
    (memberAccess "instance" field.name)
    write.condition
  form_iff : write.form = .computed ∨ write.form = .defined ↔ write.key = prototypeKey

/-- Lines make the writes of fields in their order: as entries of a literal up to the first one with
a condition, and by statements from there on. -/
structure WritesInOrder (setting : ClassSetting) (fields : List Field) (lines : List Text)
    (literal statements : List KeyWrite) : Prop where
  body : KeyWrite.IsBody literal statements lines
  byField : List.Forall₂ (WritesField setting) fields (literal ++ statements)
  unguarded : ∀ write ∈ literal, write.condition = none
  guarded : ∀ write ∈ statements.head?, write.condition ≠ none
  keys_eq : (literal ++ statements).map KeyWrite.key = fields.map setting.config.outputKey

namespace Encoder

variable {setting : ClassSetting} {fields : List Field}

/-! ### Reading the lines of an encoder -/

/-- A write as an entry of an object literal. -/
private def entryOf (w : Write) : KeyWrite :=
  ⟨if w.key == prototypeKey then .computed else .entry, w.key, w.value, w.condition?⟩

/-- A write as a statement. -/
private def statementOf (w : Write) : KeyWrite :=
  ⟨if w.key == prototypeKey then .defined else .assigned, w.key, w.value, w.condition?⟩

private theorem condition?_eq_none_iff {w : Write} : w.condition? = none ↔ isUnguarded w := by
  unfold Write.condition? isUnguarded
  cases w.tests <;> simp

private theorem isEntry_entryOf {w : Write} (h : isUnguarded w) :
    (entryOf w).IsEntry ("    " ++ quotedPropertyKey w.key ++ ": " ++ w.value) := by
  have hbrackets : ("    [" : Text) = "    " ++ "[" ∧ ("]: " : Text) = "]" ++ ": " := ⟨rfl, rfl⟩
  unfold entryOf quotedPropertyKey
  rw [condition?_eq_none_iff.2 h]
  split
  · have hentry := KeyWrite.IsEntry.computed w.key w.value
    simpa only [hbrackets, List.append_assoc] using hentry
  · exact .plain w.key w.value

private theorem isLiteral_objectLiteral {list : List Write} (h : ∀ w ∈ list, isUnguarded w) :
    KeyWrite.IsLiteral (list.map entryOf) (objectLiteral list) := by
  unfold objectLiteral
  cases list with
  | nil => exact .empty
  | cons w list =>
    refine .entries (by simp) ?_
    rw [List.forall₂_map_left_iff, List.forall₂_map_right_iff, List.forall₂_same]
    exact fun w hw => isEntry_entryOf (h w hw)

private theorem isEffect_statementOf (w : Write) : (statementOf w).IsEffect (assignment w) := by
  unfold statementOf assignment
  split
  · next hkey =>
    rw [← beq_iff_eq.1 hkey]
    exact .defined w.key w.value w.condition?
  · exact .assigned w.key w.value w.condition?

private theorem isStatement_statementOf (w : Write) : (statementOf w).IsStatement (statement w) := by
  unfold statement
  split
  · next hcondition => exact .always (isEffect_statementOf w) hcondition
  · next hcondition => exact .guarded (isEffect_statementOf w) hcondition

/-- The lines of an encoder make its writes, those before the first guarded one by a literal. -/
private theorem isBody_body (encoder : Encoder) :
    KeyWrite.IsBody ((encoder.writes.takeWhile isUnguarded).map entryOf)
      ((encoder.writes.dropWhile isUnguarded).map statementOf) encoder.body := by
  unfold body
  split
  · next hall =>
    rw [List.all_eq_true] at hall
    rw [List.takeWhile_eq_self_iff.2 hall, List.dropWhile_eq_nil_iff.2 hall]
    exact .literal (isLiteral_objectLiteral hall)
  · refine .statements (isLiteral_objectLiteral fun w hw => List.mem_takeWhile_imp hw) ?_
    rw [List.forall₂_map_left_iff, List.forall₂_map_right_iff, List.forall₂_same]
    exact fun w _ => isStatement_statementOf w

/-! ### What is decided for a field -/

private theorem isDefaultTest_of_ok {element : Text} {default : Value} {test : Test}
    (h : defaultTest element default = .ok test) : IsDefaultTest element default test := by
  unfold defaultTest at h
  split at h
  · exact Except.ok.inj h ▸ .nan
  · next hne =>
    obtain ⟨written, hwritten, h⟩ := Attempt.of_bind_ok h
    exact Except.ok.inj h ▸ .literal hne hwritten

/-- The tests of a field make up its condition. -/
private theorem guards_of_tests {key : KeyConfig} {outputKey access value : Text} {list : List Test}
    (h : tests setting key = .ok list) :
    Guards key (setting.element key.fieldName) access
      (Write.condition? ⟨outputKey, access, value, list⟩) := by
  unfold tests at h
  cases homit : key.omitIfDefault with
  | false =>
    simp only [homit, Bool.false_eq_true, if_false] at h
    obtain rfl := Except.ok.inj h
    cases hnull : key.includeIfNull with
    | true => exact .unguarded hnull homit
    | false => exact .present hnull homit
  | true =>
    simp only [homit, if_true] at h
    obtain ⟨test, htest, h⟩ := Attempt.of_bind_ok h
    obtain rfl := Except.ok.inj h
    have htest := isDefaultTest_of_ok htest
    cases hnull : key.includeIfNull with
    | true => exact .changed hnull homit htest
    | false => exact .presentAndChanged hnull homit htest

/-- What is decided for a field, as far as its write in either form goes. -/
private structure Decides (setting : ClassSetting) (field : Field) (w : Write) : Prop where
  key_eq : w.key = setting.config.outputKey field
  encodes : IsEncoding setting field w.value
  guards : Guards (setting.config.key field.name) (setting.element field.name)
    (memberAccess "instance" field.name)
    w.condition?

private theorem Decides.entry {field : Field} {w : Write} (h : Decides setting field w) :
    WritesField setting field (entryOf w) := by
  refine ⟨h.key_eq, h.encodes, h.guards, ?_⟩
  unfold entryOf
  by_cases hkey : w.key = prototypeKey <;> simp [hkey]

private theorem Decides.statement {field : Field} {w : Write} (h : Decides setting field w) :
    WritesField setting field (statementOf w) := by
  refine ⟨h.key_eq, h.encodes, h.guards, ?_⟩
  unfold statementOf
  by_cases hkey : w.key = prototypeKey <;> simp [hkey]

private theorem write_yields (field : Field) : (write setting field).Yields (Decides setting field) := by
  unfold write
  refine yields_bind (P := IsEncoding setting field) ?_ fun value hvalue => ?_
  · unfold fieldCode
    refine yields_bind (yields_ofAttempt fun type htype => htype) fun type htype => ?_
    refine (yields_outcome _).imp fun code hcode => ?_
    obtain ⟨before, left, hcode⟩ := hcode
    exact ⟨type, before, left, htype, hcode⟩
  · refine yields_bind (yields_ofAttempt fun list hlist => hlist) fun list hlist => yields_pure ?_
    exact ⟨rfl, hvalue, guards_of_tests hlist⟩

private theorem writesOf_yields (fields : List Field) :
    (writesOf setting fields).Yields (List.Forall₂ (Decides setting) fields) := by
  induction fields with
  | nil => exact yields_pure .nil
  | cons field fields ih =>
    exact yields_bind (write_yields field) fun first hfirst => yields_bind ih fun rest hrest =>
      yields_pure (.cons hfirst hrest)

/-! ### Encoders -/

/-- Writes that are decided for fields keep their order, wherever they are split into entries and
statements. -/
private theorem byField_of_decides {front back : List Write}
    (h : List.Forall₂ (Decides setting) fields (front ++ back)) :
    List.Forall₂ (WritesField setting) fields (front.map entryOf ++ back.map statementOf) := by
  have hfront := List.forall₂_take_append fields front back h
  have hback := List.forall₂_drop_append fields front back h
  rw [← List.take_append_drop front.length fields]
  refine List.rel_append ?_ ?_
  · exact List.forall₂_map_right_iff.2 (hfront.imp fun _ _ hdecides => hdecides.entry)
  · exact List.forall₂_map_right_iff.2 (hback.imp fun _ _ hdecides => hdecides.statement)

private theorem keys_eq_of_byField {writes : List KeyWrite}
    (h : List.Forall₂ (WritesField setting) fields writes) :
    writes.map KeyWrite.key = fields.map setting.config.outputKey := by
  induction h with
  | nil => rfl
  | cons hfirst _ ih => rw [List.map_cons, List.map_cons, hfirst.key_eq, ih]

/-- The lines of an encoder make the writes of its fields in their order. -/
theorem plan_yields (setting : ClassSetting) (fields : List Field) :
    (plan setting fields).Yields fun encoder =>
    encoder.className = setting.model.name ∧ encoder.callbacks = setting.callbacks .encode ∧
      ∃ literal statements, WritesInOrder setting fields encoder.body literal statements := by
  unfold plan
  refine yields_bind (writesOf_yields fields) fun writes hwrites => yields_pure ⟨rfl, rfl, ?_⟩
  have hfields : List.Forall₂ (WritesField setting) fields
      ((writes.takeWhile isUnguarded).map entryOf ++ (writes.dropWhile isUnguarded).map statementOf) :=
    byField_of_decides (by rwa [List.takeWhile_append_dropWhile])
  refine ⟨_, _, isBody_body _, hfields, ?_, ?_, keys_eq_of_byField hfields⟩
  · simp only [List.forall_mem_map]
    exact fun w hw => condition?_eq_none_iff.2 (List.mem_takeWhile_imp hw)
  · -- the statements begin where a guard was first met
    intro write hwrite
    rw [List.head?_map, Option.mem_def, Option.map_eq_some_iff] at hwrite
    obtain ⟨w, hw, rfl⟩ := hwrite
    have hguarded := List.head?_dropWhile_not isUnguarded writes
    rw [hw] at hguarded
    exact fun hnone => Bool.false_ne_true (hguarded.symm.trans (condition?_eq_none_iff.1 hnone))

/-- Every encoder writes its fields one after another in their order, each one under the condition
that its options ask for, and begins with a literal of those before the first condition.  The keys
are those of the fields in their order, whatever the conditions. -/
theorem plan_writes {items left : List Fragment} {encoder : Encoder}
    (h : (plan setting fields).outcome items = (.ok encoder, left)) : ∃ lines literal statements,
      encoder.render = .function true (toJsonName setting.model.name)
        ("instance" :: setting.callbacks .encode) lines ∧
        WritesInOrder setting fields lines literal statements := by
  obtain ⟨hname, hcallbacks, literal, statements, hwrites⟩ :=
    plan_yields setting fields items encoder left h
  exact ⟨encoder.body, literal, statements, by rw [render, parameters, hname, hcallbacks], hwrites⟩

/-- The key of the prototype among the entries, and a field behind a guarded one. -/
theorem plan_writes_node :
    let fields : List Field := [⟨"parent", "Node | null", false, false, true, true⟩,
      ⟨"size", "number", false, false, true, true⟩, ⟨"label", "string", false, false, true, true⟩]
    let size : Record := [("includeIfNull", .bool false), ("defaultValue", .number (.zero true)),
      ("omitIfDefault", .bool true)]
    let config : Config := ⟨true, true, false, false, false, false, true, false, .none,
      [("parent", ⟨[("name", .string "__proto__")]⟩), ("size", ⟨size⟩)]⟩
    let setting : ClassSetting := ⟨⟨"Node", fields, [], [], none⟩, config, [], []⟩
    let body : List Text := [
      "  const json = \x7b\n" ++
        "    [\"__proto__\"]: instance.parent == null ? null : instance.parent.toJson()\n  \x7d;",
      "  if (instance.size != null && instance.size !== -0) \x7b\n" ++
        "    json[\"size\"] = instance.size;\n  \x7d",
      "  json[\"label\"] = instance.label;",
      "  return json;"]
    ∃ encoder left, (plan setting fields).outcome [] = (.ok encoder, left) ∧ encoder.body = body ∧
      ∃ lines literal statements,
        encoder.render = .function true (toJsonName setting.model.name)
          ("instance" :: setting.callbacks .encode) lines ∧
          WritesInOrder setting fields lines literal statements := by
  intro fields size config setting body
  have hbody : ((plan setting fields).outcome []).1.toOption.any
      fun encoder => encoder.body == body := by decide +kernel
  obtain ⟨encoder, left, hplan, hbody⟩ := exists_of_any hbody
  exact ⟨encoder, left, hplan, beq_iff_eq.1 hbody, plan_writes hplan⟩

end Encoder

end JsonCompanion.Emit
