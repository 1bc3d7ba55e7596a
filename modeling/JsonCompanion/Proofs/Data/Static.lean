import JsonCompanion.Proofs.Attempt
import JsonCompanion.Proofs.Data.Record
import JsonCompanion.Proofs.Script.RegexLiteral
import JsonCompanion.Read.StaticValue

/-!
# Static data

* `Value.IsStatic` says what data expressions denote: no date, map or function, regular expressions
  with their flags in order, and records in order.
* `Expr.isStatic_value`: the data of an expression is static.
-/

namespace JsonCompanion

open Script

/-- Data that an expression denotes. -/
inductive Value.IsStatic : Value → Prop
  | undefined : IsStatic .undefined
  | null : IsStatic .null
  | bool (value : Bool) : IsStatic (.bool value)
  | number (value : Number) : IsStatic (.number value)
  | bigint (value : Int) : IsStatic (.bigint value)
  | string (value : Text) : IsStatic (.string value)
  | regex (literal : RegexLiteral) : IsStatic (.regex literal.inOrder)
  | array {items : List Value} (h : ∀ item ∈ items, IsStatic item) : IsStatic (.array items)
  | object {properties : Record} (hordered : properties.IsOrdered)
      (h : ∀ entry ∈ properties, IsStatic entry.2) :
    IsStatic (.object properties)

namespace Script

/-! ### Atoms -/

private theorem isStatic_constantOf? {name : Text} {v : Value} (h : constantOf? name = some v) :
    v.IsStatic := by
  unfold constantOf? at h
  split at h
  · exact Option.some.inj h ▸ .undefined
  · split at h
    · exact Option.some.inj h ▸ .number _
    · split at h
      · exact Option.some.inj h ▸ .number _
      · cases h

private theorem isStatic_apply? {op : UnaryOp} {operand v : Value}
    (h : op.apply? operand = some v) : v.IsStatic := by
  unfold UnaryOp.apply? at h
  split at h
  · exact Option.some.inj h ▸ .undefined
  · exact Option.some.inj h ▸ .number _
  · exact Option.some.inj h ▸ .bigint _
  · exact Option.some.inj h ▸ .number _
  · cases h

/-- The value of an atom is static. -/
private theorem isStatic_atom? {e : Expr} {v : Value} (h : e.atom? = some v) : v.IsStatic := by
  cases e with
  | string | number | bigint | bool | null | regex => exact Option.some.inj h ▸ by constructor
  | name constant => exact isStatic_constantOf? h
  | unary op operand =>
    obtain ⟨value, -, hop⟩ := Option.bind_eq_some_iff.1 h
    exact isStatic_apply? hop
  | template chunks parts =>
    obtain ⟨texts, -, htext⟩ := Option.bind_eq_some_iff.1 h
    exact Option.some.inj htext ▸ .string _
  | _ => cases h

/-- The data of an atom is its value. -/
theorem Expr.value_of_atom? {e : Expr} {label : Text} {v : Value} (h : e.atom? = some v) :
    e.value label = .ok v := by
  have hvalue (harray : ∀ elements, e ≠ .array elements)
      (hobject : ∀ properties, e ≠ .object properties) :
      e.value label = .ok v := by
    rw [Expr.value.eq_3 label e harray hobject, h]
  cases e with
  | array | object => cases h
  | _ => exact hvalue (fun _ h => by cases h) fun _ h => by cases h

/-! ### Data -/

mutual

/-- The data of an expression is static. -/
theorem Expr.isStatic_value : ∀ (e : Expr) {label : Text} {v : Value}, e.value label = .ok v → v.IsStatic
  | .array elements, label, v, h => by
    obtain ⟨items, hitems, hv⟩ := Attempt.of_bind_ok h
    obtain rfl := Except.ok.inj hv
    exact .array (Element.isStatic_values elements hitems)
  | .object properties, label, v, h => by
    obtain ⟨record, hrecord, hv⟩ := Attempt.of_bind_ok h
    obtain rfl := Except.ok.inj hv
    obtain ⟨hordered, hstatic⟩ := Property.isStatic_record properties List.Pairwise.nil
      (fun _ hmem => absurd hmem List.not_mem_nil) hrecord
    exact .object hordered hstatic
  | .name _, _, _, h | .string _, _, _, h | .number _, _, _, h | .bigint _, _, _, h | .bool _, _, _, h
  | .null, _, _, h | .regex _, _, _, h | .template .., _, _, h | .unary .., _, _, h | .this, _, _, h
  | .superObject, _, _, h | .member .., _, _, h | .call .., _, _, h | .assign .., _, _, h
  | .privateName _, _, _, h | .construction .., _, _, h | .binary .., _, _, h | .conditional .., _, _, h
  | .arrow .., _, _, h | .runtime _, _, _, h => by
    unfold Expr.value at h
    split at h
    · next hatom => exact Except.ok.inj h ▸ isStatic_atom? hatom
    · cases h

/-- The data of elements is static. -/
theorem Element.isStatic_values :
    ∀ (elements : List Element) {label : Text} {index : Nat} {items : List Value},
    Element.values label index elements = .ok items → ∀ item ∈ items, item.IsStatic
  | [], _, _, _, h => Except.ok.inj h ▸ fun _ hmem => absurd hmem List.not_mem_nil
  | .hole :: _, _, _, _, h => by cases h
  | .spread _ :: _, _, _, _, h => by cases h
  | .item e :: elements, label, index, items, h => by
    obtain ⟨value, hvalue, h⟩ := Attempt.of_bind_ok h
    obtain ⟨more, hmore, h⟩ := Attempt.of_bind_ok h
    obtain rfl := Except.ok.inj h
    exact List.forall_mem_cons.mpr ⟨Expr.isStatic_value e hvalue, Element.isStatic_values elements hmore⟩

/-- The data of properties is static, and a record stays in order. -/
theorem Property.isStatic_record :
    ∀ (properties : List Property) {label : Text} {record result : Record},
    record.IsOrdered → (∀ entry ∈ record, entry.2.IsStatic) →
    Property.record label record properties = .ok result → result.IsOrdered ∧ ∀ entry ∈ result,
      entry.2.IsStatic
  | [], _, _, _, hordered, hstatic, h => Except.ok.inj h ▸ ⟨hordered, hstatic⟩
  | .spread _ :: _, _, _, _, _, _, h => by cases h
  | .method key :: _, _, _, _, _, _, h => by
    unfold Property.record at h
    split at h <;> cases h
  | .shorthandDefault .. :: _, _, _, _, _, _, h => by cases h
  | .entry key e :: properties, label, record, result, hordered, hstatic, h => by
    unfold Property.record at h
    split at h
    · cases h
    · next text htext =>
      obtain ⟨value, hvalue, h⟩ := Attempt.of_bind_ok h
      exact Property.isStatic_record properties (hordered.insert text value)
        (Record.forall_insert (Expr.isStatic_value e hvalue) hstatic text) h

end

end Script

end JsonCompanion
