import JsonCompanion.Emit.Literal
import JsonCompanion.Proofs.Data.Static
import JsonCompanion.Proofs.Number.ReadBack
import JsonCompanion.Proofs.Script.Parenthesized

/-!
# Literals are read back

* `Value.IsStatic.exists_datum`: static data is written as code of data that denotes it.
* `Value.exists_datum`: whatever data has a literal, that is code of data.
* `literal_parses`: the data of an expression has a literal, and parsing that gives an expression
  with the same data.
-/

namespace JsonCompanion

open Script

variable {element label : Text}

/-! ### Keys -/

private theorem text?_keyOf (key : Text) : (keyOf key).text? = some key := by
  unfold keyOf
  split
  · rfl
  · split
    · rfl
    · rfl

/-! ### Atoms -/

/-- Code of data is the literal of a value and denotes it. -/
def Script.Datum.Denotes (d : Datum) (v : Value) : Prop :=
  (∀ element, Emit.literal element v = .ok d.text) ∧ ∀ label, d.expr.value label = .ok v

namespace Value

variable {v : Value}

private theorem denotes_atom {a : Atom} (htext : ∀ element, Emit.literal element v = .ok a.text)
    (hvalue : a.expr.atom? = some v) : (Datum.atom a).Denotes v :=
  ⟨htext, fun _ => Expr.value_of_atom? hvalue⟩

private theorem denotes_negative {a : Atom} {operand : Value}
    (htext : ∀ element, Emit.literal element v = .ok ("-" ++ a.text))
    (hoperand : a.expr.atom? = some operand) (hvalue : UnaryOp.minus.apply? operand = some v) :
    (Datum.negative a).Denotes v := by
  refine ⟨htext, fun label => Expr.value_of_atom? ?_⟩
  rw [Datum.expr, Expr.atom?, hoperand]
  exact hvalue

/-- A word that is a constant. -/
private def constant (name : Text) (expr : Expr) (hname : name.isIdentifier)
    (hmeans : (Token.ofName name).Means expr)
    (hfirst : name.head?.any fun u => u != CodeUnit.ofChar '-' && u != CodeUnit.ofChar '=') : Atom :=
  .word name expr hname hmeans <| by
    match name with
    | u :: us =>
      simp only [List.head?_cons, Option.any_some, Bool.and_eq_true, bne_iff_ne] at hfirst
      exact ⟨u, us, rfl, hfirst⟩

private theorem literal_number (element : Text) (n : Number) :
    Emit.literal element (.number n) = .ok (Emit.numberLiteral n) := by
  rw [Emit.literal]

private theorem numberLiteral_negative {m e : Nat} (hcanonical : Number.Canonical m e) :
    Emit.numberLiteral (.finite true m e hcanonical) = "-" ++
      (Number.finite false m e hcanonical).text := by
  unfold Emit.numberLiteral Number.isNegativeZero Number.text
  rcases Nat.eq_zero_or_pos m with rfl | hpos
  · rfl
  · have hne : (m == 0) = false := beq_false_of_ne (Nat.ne_of_gt hpos)
    simp only [hne, Bool.and_false, Bool.false_eq_true, if_false, if_neg (Nat.ne_of_gt hpos), if_true]
    rfl

private theorem exists_datum_number : ∀ n : Number, ∃ d : Datum, d.Denotes (.number n)
  | .nan => ⟨.atom (constant "NaN" (.name "NaN") rfl (.name (by decide)) (by decide)),
      denotes_atom (literal_number · .nan) rfl⟩
  | .infinity false =>
      ⟨.atom (constant "Infinity" (.name "Infinity") rfl (.name (by decide)) (by decide)),
        denotes_atom (literal_number · (.infinity false)) rfl⟩
  | .infinity true =>
      ⟨.negative (constant "Infinity" (.name "Infinity") rfl (.name (by decide)) (by decide)),
        denotes_negative (literal_number · (.infinity true)) rfl rfl⟩
  | .finite negative m e hcanonical => by
    obtain ⟨n, htext, hvalue⟩ := Number.exists_numeral hcanonical
    cases negative with
    | false =>
      refine ⟨.atom (.number n _ hvalue), denotes_atom (fun element => ?_) rfl⟩
      rw [literal_number, Emit.numberLiteral, Number.isNegativeZero, Bool.false_and,
        if_neg Bool.false_ne_true, htext]
      rfl
    | true =>
      refine ⟨.negative (.number n _ hvalue), denotes_negative (fun element => ?_) rfl rfl⟩
      rw [literal_number, numberLiteral_negative, htext]
      rfl

private theorem exists_datum_bigint : ∀ n : Int, ∃ d : Datum, d.Denotes (.bigint n)
  | .ofNat n => ⟨.atom (.integer n), denotes_atom (fun element => by rw [Emit.literal]; rfl) rfl⟩
  | .negSucc n =>
      ⟨.negative (.integer (n + 1)), denotes_negative (fun element => by rw [Emit.literal]; rfl) rfl rfl⟩

/-! ### Lists and records -/

private theorem exists_datum_items {items : List Value}
    (h : ∀ item ∈ items, ∃ d : Datum, d.Denotes item) :
    ∃ ds : List Datum, (∀ element, Emit.literals element items = .ok (Datum.texts ds)) ∧
      ∀ label index, Element.values label index (Datum.elements ds) = .ok items := by
  induction items with
  | nil =>
    exact ⟨[], fun _ => by rw [Emit.literals, Datum.texts],
      fun _ _ => by rw [Datum.elements, Element.values]⟩
  | cons item items ih =>
    rw [List.forall_mem_cons] at h
    obtain ⟨d, htext, hvalue⟩ := h.1
    obtain ⟨ds, htexts, hvalues⟩ := ih h.2
    refine ⟨d :: ds, fun element => ?_, fun label index => ?_⟩
    · rw [Emit.literals, htext, htexts, Datum.texts]
      rfl
    · rw [Datum.elements, Element.values, hvalue, hvalues]
      rfl

private theorem exists_datum_entries {properties : Record}
    (h : ∀ entry ∈ properties, ∃ d : Datum, d.Denotes entry.2) :
    ∃ ds : List (Text × Datum),
      (∀ element, Emit.entryLiterals element properties = .ok (Datum.entryTexts ds)) ∧
      ∀ (label : Text) (record : Record), Record.IsOrdered (record ++ properties) →
        Property.record label record (Datum.properties ds) = .ok (record ++ properties) := by
  induction properties with
  | nil =>
    refine ⟨[], fun _ => by rw [Emit.entryLiterals, Datum.entryTexts], fun label record _ => ?_⟩
    rw [Datum.properties, Property.record, List.append_nil]
  | cons entry properties ih =>
    obtain ⟨key, value⟩ := entry
    rw [List.forall_mem_cons] at h
    obtain ⟨d, htext, hvalue⟩ := h.1
    obtain ⟨ds, htexts, hrecord⟩ := ih h.2
    refine ⟨(key, d) :: ds, fun element => ?_, fun label record hordered => ?_⟩
    · rw [Emit.entryLiterals, htext, htexts, Datum.entryTexts]
      rfl
    · -- the properties in front are in order with this one, so that it is written behind them
      rw [List.append_cons] at hordered ⊢
      have hfront : Record.IsOrdered (record ++ [(key, value)]) :=
        List.Pairwise.sublist (List.sublist_append_left _ properties) hordered
      simp only [Datum.properties, Property.record, text?_keyOf, hvalue]
      show Property.record label (record.insert key value) _ = _
      rw [hfront.insert_end, hrecord label _ hordered]

/-- Static data is written as code that denotes it. -/
theorem IsStatic.exists_datum (h : v.IsStatic) : ∃ d : Datum, d.Denotes v := by
  induction h with
  | undefined =>
    exact ⟨.atom (constant "undefined" (.name "undefined") rfl (.name (by decide)) (by decide)),
      denotes_atom (fun element => by rw [Emit.literal]; rfl) rfl⟩
  | null =>
    exact ⟨.atom (constant "null" .null rfl .null (by decide)),
      denotes_atom (fun element => by rw [Emit.literal]; rfl) rfl⟩
  | bool b =>
    cases b with
    | false =>
      exact ⟨.atom (constant "false" (.bool false) rfl (.bool false) (by decide)),
        denotes_atom (fun element => by rw [Emit.literal]; rfl) rfl⟩
    | true =>
      exact ⟨.atom (constant "true" (.bool true) rfl (.bool true) (by decide)),
        denotes_atom (fun element => by rw [Emit.literal]; rfl) rfl⟩
  | number n => exact exists_datum_number n
  | bigint n => exact exists_datum_bigint n
  | string value =>
      exact ⟨.atom (.string value), denotes_atom (fun element => by rw [Emit.literal]; rfl) rfl⟩
  | regex literal =>
    -- the flags are written in order, and ordering them once more changes nothing
    refine ⟨.atom (.regex literal.inOrder), denotes_atom (fun element => by rw [Emit.literal]; rfl) ?_⟩
    exact congrArg (fun pattern => some (Value.regex pattern)) literal.inOrder_inOrder
  | @array items _ ih =>
    obtain ⟨ds, htexts, hvalues⟩ := exists_datum_items ih
    refine ⟨.list ds, fun element => ?_, fun label => ?_⟩
    · rw [Emit.literal, htexts, Datum.text]
      rfl
    · rw [Datum.expr, Expr.value, hvalues]
      rfl
  | @object properties hordered _ ih =>
    obtain ⟨ds, htexts, hrecord⟩ := exists_datum_entries ih
    refine ⟨.record ds, fun element => ?_, fun label => ?_⟩
    · have hempty : (Datum.entryTexts ds).isEmpty = ds.isEmpty := by cases ds <;> rfl
      rw [Emit.literal, htexts, Datum.text, ← hempty]
      rfl
    · rw [Datum.expr, Expr.value, hrecord label [] hordered]
      rfl

/-! ### Any data -/

private theorem exists_of_isStatic (h : v.IsStatic) {written : Text}
    (hwritten : Emit.literal element v = .ok written) :
    ∃ d : Datum, d.text = written := by
  obtain ⟨d, htext, -⟩ := h.exists_datum
  exact ⟨d, Except.ok.inj ((htext element).symm.trans hwritten)⟩

mutual

/-- The literal of any data is code of data, also if the keys of its records are not in order. -/
theorem exists_datum : ∀ (v : Value) {written : Text}, Emit.literal element v = .ok written →
    ∃ d : Datum, d.text = written
  | .regex literal, _, h => by
    rw [Emit.literal] at h
    exact ⟨.atom (.regex literal), Except.ok.inj h⟩
  | .array items, _, h => by
    rw [Emit.literal] at h
    obtain ⟨texts, htexts, h⟩ := Attempt.of_bind_ok h
    obtain ⟨ds, rfl⟩ := exists_items items htexts
    exact ⟨.list ds, Except.ok.inj h⟩
  | .object properties, _, h => by
    rw [Emit.literal] at h
    obtain ⟨texts, htexts, h⟩ := Attempt.of_bind_ok h
    obtain ⟨ds, rfl⟩ := exists_entries properties htexts
    refine ⟨.record ds, Eq.trans ?_ (Except.ok.inj h)⟩
    cases ds <;> rfl
  | .undefined, _, h => exists_of_isStatic .undefined h
  | .null, _, h => exists_of_isStatic .null h
  | .bool b, _, h => exists_of_isStatic (.bool b) h
  | .number n, _, h => exists_of_isStatic (.number n) h
  | .bigint n, _, h => exists_of_isStatic (.bigint n) h
  | .string t, _, h => exists_of_isStatic (.string t) h
  | .date _, _, h | .emptyMap, _, h | .function, _, h => by
    rw [Emit.literal] at h
    cases h

theorem exists_items :
    ∀ (items : List Value) {texts : List Text}, Emit.literals element items = .ok texts →
    ∃ ds : List Datum, Datum.texts ds = texts
  | [], _, h => by
    rw [Emit.literals] at h
    exact ⟨[], Except.ok.inj h⟩
  | item :: items, _, h => by
    rw [Emit.literals] at h
    obtain ⟨first, hfirst, h⟩ := Attempt.of_bind_ok h
    obtain ⟨rest, hrest, h⟩ := Attempt.of_bind_ok h
    obtain ⟨d, rfl⟩ := exists_datum item hfirst
    obtain ⟨ds, rfl⟩ := exists_items items hrest
    exact ⟨d :: ds, Except.ok.inj h⟩

theorem exists_entries :
    ∀ (properties : Record) {texts : List Text}, Emit.entryLiterals element properties = .ok texts →
    ∃ ds : List (Text × Datum), Datum.entryTexts ds = texts
  | [], _, h => by
    rw [Emit.entryLiterals] at h
    exact ⟨[], Except.ok.inj h⟩
  | (key, value) :: properties, _, h => by
    rw [Emit.entryLiterals] at h
    obtain ⟨first, hfirst, h⟩ := Attempt.of_bind_ok h
    obtain ⟨rest, hrest, h⟩ := Attempt.of_bind_ok h
    obtain ⟨d, rfl⟩ := exists_datum value hfirst
    obtain ⟨ds, rfl⟩ := exists_entries properties hrest
    exact ⟨(key, d) :: ds, Except.ok.inj h⟩

end

end Value

/-- The data of an expression has a literal, and parsing that gives an expression with the same data. -/
theorem Emit.literal_parses {e : Expr} {label : Text} {v : Value} (hvalue : e.value label = .ok v)
    (element : Text) :
    ∃ t e', Emit.literal element v = .ok t ∧ Expr.parse? t = some e' ∧ ∀ label,
      e'.value label = .ok v := by
  obtain ⟨d, htext, hdata⟩ := (e.isStatic_value hvalue).exists_datum
  exact ⟨d.text, d.expr, htext element, d.parse?_text, hdata⟩

/-- An object with a key that is an index, one that sets prototypes, a signed zero and a regular
expression. -/
theorem Emit.literal_parses_record :
    let pattern : RegexLiteral := ⟨"[/]", "ig", by decide, by decide, by decide, by decide +kernel⟩
    let written : Expr :=
      .object [.entry (.computed (.string "__proto__")) (.unary .minus (.number (.zero false))),
      .entry (.label "default") (.array [.item (.regex pattern), .item (.name "undefined")]),
      .entry (.literal (.string "1")) (.unary .minus (.bigint 7))]
    let value : Value := .object [("1", .bigint (-7)), ("__proto__", .number (.zero true)),
      ("default", .array [.regex pattern.inOrder, .undefined])]
    pattern.inOrder.text = "/[/]/gi" ∧ written.value "value" = .ok value ∧
      ∃ t e', Emit.literal "Box.size" value = .ok t ∧ Expr.parse? t = some e' ∧ ∀ label,
        e'.value label = .ok value := by
  intro pattern written value
  have hvalue : written.value "value" = .ok value := rfl
  exact ⟨by decide, hvalue, literal_parses hvalue "Box.size"⟩

end JsonCompanion
