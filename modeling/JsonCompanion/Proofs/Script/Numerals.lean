import JsonCompanion.Proofs.Number.Numeral
import JsonCompanion.Proofs.Script.Lexing

/-!
# Numbers as tokens

A numeral and an integer with its suffix are one token each, and a minus sign in front of them is
another one.

* `digitRun_digits` finds the end of a run of digits; `fractionAt?_point` and `powerAt?_exponent`
  read the parts of a numeral behind it.
* `Spells.numeral`, `Spells.integer` and `Spells.minus` put such a token in front.
-/

namespace JsonCompanion

/-- A number in front of the text would end there. -/
def Text.endsNumber (t : Text) : Bool := t.endsName && t.head? != some (CodeUnit.ofChar '.')

theorem Text.endsName_of_endsNumber {t : Text} (h : t.endsNumber) : t.endsName :=
  (Bool.and_eq_true_iff.mp h).1

namespace Script

variable {rest : Text} {digits : List Char} {tokens : List Token}

/-! ### What follows -/

/-- No character of an identifier stands behind a name. -/
theorem not_part_of_endsName {u : CodeUnit} {us : Text} (h : Text.endsName (u :: us)) {c : CodeUnit}
    (hc : Text.isIdentifierPart c.toNat) : (u == c) = false := by
  simp only [Text.endsName, Bool.and_eq_true, Bool.not_eq_true'] at h
  refine beq_false_of_ne ?_
  rintro rfl
  rw [h.1.2] at hc
  cases hc

theorem beginsName_of_endsName (h : rest.endsName) : beginsName rest = false := by
  cases rest with
  | nil => rfl
  | cons u us =>
    simp only [Text.endsName, Bool.and_eq_true, decide_eq_true_eq, Bool.not_eq_true', bne_iff_ne] at h
    have hslash : (u == CodeUnit.ofChar '\\') = false := beq_false_of_ne h.2
    have hlead : u.isLeading = false := by
      simp only [CodeUnit.isLeading, Bool.and_eq_false_iff, decide_eq_false_iff_not]
      exact .inl (by omega)
    cases us with
    | nil => simp only [beginsName, hslash, h.1.2, Bool.or_self]
    | cons v vs =>
        simp only [beginsName, hslash, hlead, h.1.2, Bool.false_and, Bool.false_eq_true, if_false,
          Bool.or_self]

/-- No digit of a run stands at the front. -/
def stopsDigits : Text → Bool
  | [] => true
  | u :: _ => !(u == '_' || u.digitValue?.any (decide <| · < 10))

theorem stopsDigits_of_endsName (h : rest.endsName) : stopsDigits rest := by
  cases rest with
  | nil => rfl
  | cons u us =>
    simp only [Text.endsName, Bool.and_eq_true, decide_eq_true_eq, Bool.not_eq_true'] at h
    exact CodeUnit.of_ascii (P := fun u => Text.isIdentifierPart u.toNat = false → stopsDigits [u])
      h.1.1 (by decide)
      h.1.2

/-! ### Runs of digits -/

theorem digitRun_digits (h : ∀ c ∈ digits, c.isDigit) (hrest : stopsDigits rest) :
    digitRun 10 (digits.map CodeUnit.ofChar ++ rest) = digits.map CodeUnit.ofChar := by
  have hall : ∀ d < 10, (CodeUnit.ofChar (Nat.digitChar d) == CodeUnit.ofChar '_' ||
      (CodeUnit.ofChar (Nat.digitChar d)).digitValue?.any (decide <| · < 10)) = true := by decide
  have hdigits : ∀ u ∈ digits.map CodeUnit.ofChar,
      (u == CodeUnit.ofChar '_' || u.digitValue?.any (decide <| · < 10)) = true := by
    intro u hu
    obtain ⟨c, hc, rfl⟩ := List.mem_map.1 hu
    obtain ⟨d, hd, rfl⟩ := Number.exists_digitChar (h c hc)
    exact hall d hd
  rw [digitRun, List.takeWhile_append_of_pos hdigits]
  cases rest with
  | nil => simp
  | cons u us =>
    rw [stopsDigits, Bool.not_eq_true'] at hrest
    rw [List.takeWhile_cons, hrest]
    simp

theorem plainDigits?_digits (h : ∀ c ∈ digits, c.isDigit) :
    plainDigits? (digits.map CodeUnit.ofChar) = some (digits.map CodeUnit.ofChar) := by
  have hne : ∀ u ∈ digits.map CodeUnit.ofChar, u ≠ CodeUnit.ofChar '_' := by
    intro u hu
    obtain ⟨c, hc, rfl⟩ := List.mem_map.1 hu
    obtain ⟨d, hd, rfl⟩ := Number.exists_digitChar (h c hc)
    have hall : ∀ d < 10, CodeUnit.ofChar (Nat.digitChar d) ≠ CodeUnit.ofChar '_' := by decide
    exact hall d hd
  generalize digits.map CodeUnit.ofChar = run at hne
  have hhead : (run.head? != some (CodeUnit.ofChar '_')) = true := by
    match run with
    | [] => rfl
    | u :: us => simpa using hne u (by simp)
  have hseparates : separatesDigits run = true := by
    clear hhead
    fun_induction separatesDigits run with
    | case1 => rfl
    | case2 u => simpa using hne u (by simp)
    | case3 u v us ih =>
      have hu : (u == CodeUnit.ofChar '_') = false := beq_false_of_ne (hne u (by simp))
      simp only [hu, Bool.false_and, Bool.not_false, Bool.true_and]
      exact ih fun w hw => hne w (by simp [hw])
  have hfilter : run.filter (fun u => u != CodeUnit.ofChar '_') = run :=
    List.filter_eq_self.2 fun u hu => bne_iff_ne.2 (hne u hu)
  rw [plainDigits?, hhead, hseparates, Bool.and_self, if_pos rfl, hfilter]

/-! ### Parts of numerals -/

variable (n : Numeral)

theorem fractionAt?_point (hstops : stopsDigits rest)
    (hpoint : (rest.head? == some (CodeUnit.ofChar '.')) = false) :
    fractionAt? (n.point.map CodeUnit.ofChar ++ rest) =
      some (n.point.map CodeUnit.ofChar, n.point.length) := by
  unfold Numeral.point fractionAt?
  split
  · rw [List.map_nil, List.nil_append, hpoint]
    rfl
  · have hrun := digitRun_digits n.isDigit_fraction hstops
    simp only [List.map_cons, List.cons_append, List.head?_cons, beq_self_eq_true, if_true,
      List.drop_succ_cons, List.drop_zero, hrun, plainDigits?_digits n.isDigit_fraction,
      Option.bind_eq_bind, Option.bind_some, List.length_map, List.length_cons]
    rfl

theorem powerAt?_exponent (hrest : rest.endsName) :
    powerAt? (n.exponent.map CodeUnit.ofChar ++ rest) =
      some (n.exponent.map CodeUnit.ofChar, n.exponent.length) := by
  unfold Numeral.exponent
  cases n.power with
  | none =>
    cases rest with
    | nil => rfl
    | cons u us =>
      have hsmall : (u == CodeUnit.ofChar 'e') = false := not_part_of_endsName hrest (by decide)
      have hcapital : (u == CodeUnit.ofChar 'E') = false := not_part_of_endsName hrest (by decide)
      simp [powerAt?, hsmall, hcapital]
  | some power =>
    have hdigits : ∀ c ∈ Nat.toDigits 10 power.natAbs, c.isDigit := fun c hc =>
      Nat.isDigit_of_mem_toDigits (by decide) (by decide) hc
    have hrun := digitRun_digits hdigits (stopsDigits_of_endsName hrest)
    have hplain := plainDigits?_digits hdigits
    have hne : (Nat.toDigits 10 power.natAbs).map CodeUnit.ofChar ≠ [] := by simp [Nat.toDigits_ne_nil]
    have hsign : (CodeUnit.ofChar (if power < 0 then '-' else '+') == CodeUnit.ofChar '+' ||
        CodeUnit.ofChar (if power < 0 then '-' else '+') == CodeUnit.ofChar '-') = true := by
      split <;> rfl
    simp only [List.map_cons, List.cons_append, powerAt?, beq_self_eq_true, Bool.true_or, if_true,
      hsign, hrun, hplain, List.isEmpty_iff, hne, if_false, Option.map_some, List.length_map,
      List.length_cons, List.length_nil]
    simp
    omega

/-! ### Numbers -/

private theorem endNumber_end (t : Text) (token : Token) (hrest : rest.endsName) :
    endNumber (t ++ rest) token t.length = some (token, t.length) := by
  rw [endNumber, List.drop_left, beginsName_of_endsName hrest]
  rfl

/-- What stands behind the whole part of a numeral. -/
private theorem stopsDigits_exponent (hrest : rest.endsNumber) :
    stopsDigits (n.exponent.map CodeUnit.ofChar ++ rest) ∧
      ((n.exponent.map CodeUnit.ofChar ++ rest).head? == some (CodeUnit.ofChar '.')) = false := by
  unfold Numeral.exponent
  cases n.power with
  | none =>
    refine ⟨stopsDigits_of_endsName (Text.endsName_of_endsNumber hrest), ?_⟩
    simpa [Text.endsNumber] using (Bool.and_eq_true_iff.mp hrest).2
  | some power => exact ⟨rfl, rfl⟩

private theorem stopsDigits_point (hrest : rest.endsNumber) :
    stopsDigits (n.point.map CodeUnit.ofChar ++ (n.exponent.map CodeUnit.ofChar ++ rest)) ∧
      ((n.point.map CodeUnit.ofChar ++ (n.exponent.map CodeUnit.ofChar ++ rest)).head? ==
        some (CodeUnit.ofChar 'n')) = false := by
  unfold Numeral.point
  split
  · refine ⟨(stopsDigits_exponent n hrest).1, ?_⟩
    unfold Numeral.exponent
    cases n.power with
    | none =>
      cases rest with
      | nil => rfl
      | cons u us =>
          simpa using not_part_of_endsName (c := 'n') (Text.endsName_of_endsNumber hrest) (by decide)
    | some power => rfl
  · exact ⟨rfl, rfl⟩

theorem decimalAt?_numeral {value : Number} (hvalue : Number.ofUnsigned? n.text false = some value)
    (hrest : rest.endsNumber) :
    decimalAt? (n.text ++ rest) = some (.number value false, n.text.length) := by
  obtain ⟨hstops, hsuffix⟩ := stopsDigits_point n hrest
  obtain ⟨hpower, hpoint⟩ := stopsDigits_exponent n hrest
  have htext : n.text ++ rest = n.whole.map CodeUnit.ofChar ++ (n.point.map CodeUnit.ofChar ++
      (n.exponent.map CodeUnit.ofChar ++ rest)) := by
    rw [n.text_eq, List.append_assoc, List.append_assoc]
  have hrun := digitRun_digits n.isDigit_whole hstops
  have hlength : n.text.length = n.whole.length + n.point.length + n.exponent.length := by
    rw [n.text_eq, List.length_append, List.length_append, List.length_map, List.length_map,
      List.length_map]
  -- what stands behind the digits and behind the point
  have hbehind : (n.text ++ rest).drop (n.whole.length + n.point.length) =
      n.exponent.map CodeUnit.ofChar ++ rest := by
    rw [htext, ← List.append_assoc]
    exact List.drop_left' (by simp)
  have hwhole : (n.text ++ rest).drop n.whole.length = n.point.map CodeUnit.ofChar ++
      (n.exponent.map CodeUnit.ofChar ++ rest) := by
    rw [htext]
    exact List.drop_left' (by simp)
  have hend := endNumber_end n.text (.number value false) (Text.endsName_of_endsNumber hrest)
  have hparts : n.whole.map CodeUnit.ofChar ++ n.point.map CodeUnit.ofChar ++
      n.exponent.map CodeUnit.ofChar = n.text :=
    n.text_eq.symm
  rw [← htext] at hrun
  unfold decimalAt?
  simp only [hrun, plainDigits?_digits n.isDigit_whole, Option.bind_eq_bind, Option.bind_some,
    List.length_map, hwhole, hsuffix, Bool.false_eq_true, if_false,
    fractionAt?_point n hpower hpoint, hbehind,
    powerAt?_exponent n (Text.endsName_of_endsNumber hrest), hparts, hvalue, ← hlength, hend]

/-- The unit behind a zero makes no other form of number of it. -/
def endsZero (u : CodeUnit) : Bool :=
  (Number.baseOf? u).isNone && !(u == '_') && !u.isDigit

private theorem endsZero_of_endsName {u : CodeUnit} {us : Text} (h : Text.endsName (u :: us)) :
    endsZero u := by
  simp only [Text.endsName, Bool.and_eq_true, decide_eq_true_eq, Bool.not_eq_true'] at h
  exact CodeUnit.of_ascii (P := fun u => Text.isIdentifierPart u.toNat = false → endsZero u) h.1.1
    (by decide) h.1.2

/-- A number that begins with a zero only if no other digit follows is a decimal one. -/
private theorem numberAt?_decimal (strict : Bool) {t : Text} {sized : Option Sized}
    (h : decimalAt? t = sized) (hzero : ∀ v us, t = CodeUnit.ofChar '0' :: v :: us → endsZero v) :
    numberAt? strict t = sized := by
  match t with
  | [] => exact h
  | [u] => exact h
  | u :: v :: us =>
    unfold numberAt?
    dsimp only
    split
    · rename_i heq
      have hv := hzero v us (by rw [eq_of_beq heq])
      simp only [endsZero, Bool.and_eq_true, Option.isNone_iff_eq_none, Bool.not_eq_true'] at hv
      simp only [hv.1.1, hv.1.2, hv.2, Bool.false_eq_true, if_false, h]
    · exact h

/-- A number is a token whose first character is a digit. -/
private theorem spells_number {t : Text} {token : Token} (hdigits : ∀ c ∈ digits, c.isDigit)
    (hne : digits ≠ []) (hbegins : ∃ us, t = digits.map CodeUnit.ofChar ++ us)
    (hnumber : ∀ strict, numberAt? strict (t ++ rest) = some (token, t.length))
    (hrest : Spells rest tokens) :
    Spells (t ++ rest) (token :: tokens) := by
  obtain ⟨us, rfl⟩ := hbegins
  obtain ⟨c, digits, rfl⟩ := List.exists_cons_of_ne_nil hne
  obtain ⟨d, hd, rfl⟩ := Number.exists_digitChar (hdigits c (by simp))
  have hfirst : ∀ d < 10, (CodeUnit.ofChar (Nat.digitChar d)).isDigit = true ∧
      beginsToken [CodeUnit.ofChar (Nat.digitChar d)] := by decide
  refine hrest.token _ (hfirst d hd).2 (fun ctx _ => ?_) List.drop_left
  rw [← hnumber ctx.strict]
  simp only [List.map_cons, List.cons_append, tokenAt?, (hfirst d hd).1, Bool.true_or, if_true]

/-- What stands behind a whole part that is a zero. -/
private theorem endsZero_point (hrest : rest.endsName) {v : CodeUnit} {us : Text}
    (heq : n.point.map CodeUnit.ofChar ++ (n.exponent.map CodeUnit.ofChar ++ rest) = v :: us) :
    endsZero v := by
  unfold Numeral.point at heq
  split at heq
  · unfold Numeral.exponent at heq
    cases hpower : n.power with
    | none =>
      rw [hpower] at heq
      obtain rfl : rest = v :: us := heq
      exact endsZero_of_endsName hrest
    | some power =>
      rw [hpower] at heq
      obtain ⟨rfl, -⟩ := List.cons.inj heq
      decide
  · obtain ⟨rfl, -⟩ := List.cons.inj heq
    decide

/-- A whole part that begins with a zero is a zero. -/
private theorem whole_zero {c : Char} {cs : List Char} (hwhole : n.whole = c :: cs)
    (hzero : CodeUnit.ofChar c = CodeUnit.ofChar '0') : cs = [] := by
  have hchar : c = '0' := by
    obtain ⟨d, hd, rfl⟩ := Number.exists_digitChar (n.isDigit_whole c (by simp [hwhole]))
    have hall : ∀ d < 10, CodeUnit.ofChar (Nat.digitChar d) = CodeUnit.ofChar '0' →
        Nat.digitChar d = '0' := by decide
    exact hall d hd hzero
  rcases n.head_whole with h | h
  · rw [h] at hwhole
    exact (List.cons.inj hwhole).2.symm
  · rw [hwhole, hchar] at h
    exact absurd rfl h

/-- A numeral in front of what ends it. -/
theorem Spells.numeral {value : Number} (hrest : Spells rest tokens)
    (hvalue : Number.ofUnsigned? n.text false = some value) (hends : rest.endsNumber) :
    Spells (n.text ++ rest) (.number value false :: tokens) := by
  refine spells_number n.isDigit_whole n.whole_ne_nil ⟨_, by rw [n.text_eq, List.append_assoc]⟩
    (fun strict => ?_) hrest
  refine numberAt?_decimal strict (decimalAt?_numeral n hvalue hends) fun v us heq => ?_
  obtain ⟨c, cs, hwhole⟩ := List.exists_cons_of_ne_nil n.whole_ne_nil
  rw [n.text_eq, List.append_assoc, List.append_assoc, hwhole, List.map_cons, List.cons_append] at heq
  obtain ⟨hzero, hbehind⟩ := List.cons.inj heq
  rw [whole_zero n hwhole hzero, List.map_nil, List.nil_append] at hbehind
  exact endsZero_point n (Text.endsName_of_endsNumber hends) hbehind

/-! ### Integers -/

/-- An integer with its suffix in front of what ends it. -/
theorem Spells.integer (hrest : Spells rest tokens) (value : Nat) (hends : rest.endsName) :
    Spells (Text.ofNat value ++ "n" ++ rest) (.bigint value :: tokens) := by
  have hdigits : ∀ c ∈ Nat.toDigits 10 value, c.isDigit := fun c hc =>
    Nat.isDigit_of_mem_toDigits (by decide) (by decide) hc
  have hne : Nat.toDigits 10 value ≠ [] := Nat.toDigits_ne_nil
  refine spells_number hdigits hne ⟨_, rfl⟩ (fun strict => ?_) hrest
  refine numberAt?_decimal strict ?_ fun v us heq => ?_
  · have htext : Text.ofNat value ++ "n" ++ rest = Text.ofNat value ++ CodeUnit.ofChar 'n' :: rest := by
      rw [List.append_assoc]
      rfl
    have hrun : digitRun 10 (Text.ofNat value ++ CodeUnit.ofChar 'n' :: rest) = Text.ofNat value :=
      digitRun_digits hdigits rfl
    have hplain : plainDigits? (Text.ofNat value) = some (Text.ofNat value) :=
      plainDigits?_digits hdigits
    have hread : Number.ofDigits? 10 (Text.ofNat value) = some value := by
      rw [Text.ofNat, Number.ofDigits?_digits hdigits hne, Nat.ofDigitChars_ten_toDigits]
    have hnonempty : (Text.ofNat value).isEmpty = false := by simp [Text.ofNat]
    have hend := endNumber_end (Text.ofNat value ++ "n") (.bigint value) hends
    have hlength : (Text.ofNat value ++ Text.ofString "n").length = (Text.ofNat value).length + 1 :=
      List.length_append
    rw [hlength] at hend ⊢
    rw [htext] at hend ⊢
    unfold decimalAt?
    simp only [hrun, hplain, Option.bind_eq_bind, Option.bind_some, List.drop_left, List.head?_cons,
      beq_self_eq_true, if_true, hnonempty, Bool.false_eq_true, if_false, hread, hend]
  · -- only zero itself begins with a zero
    rw [List.append_assoc] at heq
    rcases Nat.eq_zero_or_pos value with rfl | hpos
    · obtain ⟨-, hbehind⟩ := List.cons.inj heq
      obtain ⟨rfl, -⟩ := List.cons.inj hbehind
      decide
    · obtain ⟨c, cs, hcons⟩ := List.exists_cons_of_ne_nil hne
      obtain ⟨d, hd, rfl⟩ := Number.exists_digitChar (hdigits c (by simp [hcons]))
      have hhead := Number.head?_toDigits hpos
      rw [Text.ofNat, hcons, List.map_cons, List.cons_append] at heq
      have hall : ∀ d < 10, CodeUnit.ofChar (Nat.digitChar d) = CodeUnit.ofChar '0' →
          Nat.digitChar d = '0' := by decide
      rw [hcons, hall d hd (List.cons.inj heq).1] at hhead
      exact absurd rfl hhead

/-! ### Signs -/

/-- A minus sign in front of what is neither another one nor an equals sign. -/
theorem Spells.minus {u : CodeUnit} {us : Text} (hrest : Spells (u :: us) tokens)
    (hminus : u ≠ CodeUnit.ofChar '-') (hequal : u ≠ CodeUnit.ofChar '=') :
    Spells ("-" ++ u :: us) (.mark "-" :: tokens) := by
  refine hrest.token 1 rfl (fun ctx _ => ?_) rfl
  have hname : beginsName (CodeUnit.ofChar '-' :: u :: us) = false := rfl
  have hmarkAt : markAt? (CodeUnit.ofChar '-' :: u :: us) = some (.mark "-", 1) := by
    show (marks.find? _).map _ = _
    rw [find?_sign 44 [CodeUnit.ofChar '-', CodeUnit.ofChar '='] (by decide) (by decide)
      (by simp [hminus, hequal])]
    rfl
  show tokenAt? ctx (CodeUnit.ofChar '-' :: u :: us) = _
  simp only [tokenAt?, hname, hmarkAt]
  rfl

end Script

end JsonCompanion
