import JsonCompanion.Proofs.Number.Digits
import JsonCompanion.Proofs.Number.Shortest

/-!
# Numerals

A `Numeral` is a decimal number as `Number.text` writes it.

* `layOut_eq`: digits that are laid out are a numeral of the same value.
* `ofUnsigned?_text`: a numeral is read as the number nearest to its value.
-/

namespace JsonCompanion

open Number

/-- A decimal number as written: digits, digits behind a point, a power behind an `e`. -/
structure Numeral where
  whole : List Char
  fraction : List Char
  power : Option Int
  whole_ne_nil : whole ≠ []
  isDigit_whole : ∀ c ∈ whole, c.isDigit
  isDigit_fraction : ∀ c ∈ fraction, c.isDigit
  /-- There is no superfluous zero in front. -/
  head_whole : whole = ['0'] ∨ whole.head? ≠ some '0'

namespace Numeral

/-- The part from the point on. -/
def point (n : Numeral) : List Char := if n.fraction.isEmpty then [] else '.' :: n.fraction

/-- The part from the `e` on. -/
def exponent (n : Numeral) : List Char :=
  match n.power with
  | none => []
  | some power => 'e' :: (if power < 0 then '-' else '+') :: Nat.toDigits 10 power.natAbs

/-- The numeral as text. -/
def text (n : Numeral) : Text := (n.whole ++ n.point ++ n.exponent).map CodeUnit.ofChar

/-- All its digits as one number. -/
def digits (n : Numeral) : Nat := Nat.ofDigitChars 10 (n.whole ++ n.fraction) 0

/-- The power of ten of its last digit. -/
def scale (n : Numeral) : Int := n.power.getD 0 - n.fraction.length

/-- The value that is spelled. -/
def value (n : Numeral) : ℚ := n.digits * 10 ^ n.scale

end Numeral

/-! ### Writing -/

private theorem isDigit_zeros (k : Nat) : ∀ c ∈ List.replicate k '0', c.isDigit := by
  intro c hc
  rw [List.eq_of_mem_replicate hc]
  rfl

private theorem Numeral.value_eq {n : Numeral} {digits : List Char} {scale : Int}
    (hdigits : Nat.ofDigitChars 10 (n.whole ++ n.fraction) 0 = Nat.ofDigitChars 10 digits 0)
    (hscale : n.scale = scale) :
    n.value = Nat.ofDigitChars 10 digits 0 * 10 ^ scale := by
  rw [Numeral.value, Numeral.digits, hdigits, hscale]

/-- Digits that are laid out are a numeral of the same value. -/
theorem Number.layOut_eq {digits : List Char} (hne : digits ≠ []) (hdigits : ∀ c ∈ digits, c.isDigit)
    (hhead : digits.head? ≠ some '0') (point : Int) :
    ∃ n : Numeral, n.text = (layOut digits point).map CodeUnit.ofChar ∧
      n.value = Nat.ofDigitChars 10 digits 0 * 10 ^ (point - digits.length) := by
  have hcount : 0 < digits.length := List.length_pos_iff.2 hne
  have htake (k : Nat) (hk : 0 < k) : (digits.take k).head? ≠ some '0' := by
    rwa [List.head?_take, if_neg (by omega)]
  have hdrop (k : Nat) : ∀ c ∈ digits.drop k, c.isDigit :=
    fun c hc => hdigits c (List.mem_of_mem_drop hc)
  have hfirst (k : Nat) : ∀ c ∈ digits.take k, c.isDigit :=
    fun c hc => hdigits c (List.mem_of_mem_take hc)
  have hjoin (k : Nat) :
      Nat.ofDigitChars 10 (digits.take k ++ digits.drop k) 0 = Nat.ofDigitChars 10 digits 0 := by
    rw [List.take_append_drop]
  unfold layOut
  dsimp only
  split
  · -- zeros up to the point
    obtain ⟨zeros, hzeros⟩ : ∃ zeros : Nat, point - digits.length = zeros :=
      ⟨_, (Int.toNat_of_nonneg (by omega)).symm⟩
    rw [hzeros, Int.toNat_natCast]
    let n : Numeral :=
      { whole := digits ++ List.replicate zeros '0'
        fraction := []
        power := none
        whole_ne_nil := by simp [hne]
        isDigit_whole := fun c hc => (List.mem_append.1 hc).elim (hdigits c) (isDigit_zeros _ c)
        isDigit_fraction := by simp
        head_whole := .inr (by rwa [List.head?_append, Option.or_of_isSome (by simpa using hne)]) }
    refine ⟨n, by simp [n, Numeral.text, Numeral.point, Numeral.exponent], ?_⟩
    simp [n, Numeral.value, Numeral.digits, Numeral.scale, Nat.ofDigitChars_append,
      Nat.ofDigitChars_replicate_zero, mul_comm]
  · split
    · -- the point among the digits
      obtain ⟨k, rfl⟩ : ∃ k : Nat, point = k := ⟨_, (Int.toNat_of_nonneg (by omega)).symm⟩
      have hlt : k < digits.length := by omega
      let n : Numeral :=
        { whole := digits.take k
          fraction := digits.drop k
          power := none
          whole_ne_nil := by simp [hne]; omega
          isDigit_whole := hfirst k
          isDigit_fraction := hdrop k
          head_whole := .inr (htake k (by omega)) }
      refine ⟨n, ?_, Numeral.value_eq (hjoin k) ?_⟩
      · simp [n, Numeral.text, Numeral.point, Numeral.exponent, Nat.not_le.2 hlt]
      · simp only [n, Numeral.scale, Option.getD_none, List.length_drop]
        omega
    · split
      · -- zeros behind the point
        obtain ⟨zeros, hzeros⟩ : ∃ zeros : Nat, -point = zeros :=
          ⟨_, (Int.toNat_of_nonneg (by omega)).symm⟩
        rw [hzeros, Int.toNat_natCast]
        let n : Numeral :=
          { whole := ['0']
            fraction := List.replicate zeros '0' ++ digits
            power := none
            whole_ne_nil := by simp
            isDigit_whole := by simp
            isDigit_fraction := fun c hc => (List.mem_append.1 hc).elim (isDigit_zeros _ c) (hdigits c)
            head_whole := .inl rfl }
        refine ⟨n, ?_, Numeral.value_eq ?_ ?_⟩
        · simp [n, Numeral.text, Numeral.point, Numeral.exponent, hne]
        · simp [n, Nat.ofDigitChars_append, Nat.ofDigitChars_cons, Nat.ofDigitChars_replicate_zero]
        · simp only [n, Numeral.scale, Option.getD_none, List.length_append, List.length_replicate]
          omega
      · -- a power
        let n : Numeral :=
          { whole := digits.take 1
            fraction := digits.drop 1
            power := some (point - 1)
            whole_ne_nil := by simp [hne]
            isDigit_whole := hfirst 1
            isDigit_fraction := hdrop 1
            head_whole := .inr (htake 1 (by omega)) }
        have hsingle : digits.tail = [] ↔ digits.length ≤ 1 := by
          rw [← List.length_eq_zero_iff, List.length_tail, Nat.sub_eq_zero_iff_le]
        refine ⟨n, ?_, Numeral.value_eq (hjoin 1) ?_⟩
        · simp [n, Numeral.text, Numeral.point, Numeral.exponent, hsingle]
        · simp only [n, Numeral.scale, Option.getD_some, List.length_drop]
          omega

/-! ### Reading -/

theorem Number.cutBefore_append {test : CodeUnit → Bool} {t u : Text} (ht : ∀ x ∈ t, test x = false)
    (hu : ∀ x ∈ u.head?, test x = true) : cutBefore test (t ++ u) = (t, u) := by
  have htest : ∀ x ∈ t, (!test x) = true := fun x hx => by rw [ht x hx]; rfl
  have hhead : u.takeWhile (fun x => !test x) = [] ∧ u.dropWhile (fun x => !test x) = u := by
    cases u with
    | nil => exact ⟨rfl, rfl⟩
    | cons x u =>
      have hx := hu x rfl
      simp [hx]
  rw [cutBefore, List.takeWhile_append_of_pos htest, List.dropWhile_append_of_pos htest, hhead.1,
    hhead.2, List.append_nil]

namespace Numeral

variable (n : Numeral)

theorem text_eq : n.text = n.whole.map CodeUnit.ofChar ++ n.point.map CodeUnit.ofChar ++
    n.exponent.map CodeUnit.ofChar := by
  rw [text, List.map_append, List.map_append]

private theorem ofOptionalDigits?_digits {digits : List Char} (h : ∀ c ∈ digits, c.isDigit) :
    ofOptionalDigits? (digits.map CodeUnit.ofChar) = some (Nat.ofDigitChars 10 digits 0) := by
  rcases eq_or_ne digits [] with rfl | hne
  · rfl
  · rw [ofOptionalDigits?, if_neg (by simpa using hne), ofDigits?_digits h hne]

/-- Neither a point nor an `e` is a digit. -/
private theorem not_mark {digits : List Char} (h : ∀ c ∈ digits, c.isDigit) (mark : CodeUnit)
    (hmark : ∀ d < 10, CodeUnit.ofChar (Nat.digitChar d) ≠ mark) :
    ∀ u ∈ digits.map CodeUnit.ofChar, (u == mark) = false := by
  intro u hu
  obtain ⟨c, hc, rfl⟩ := List.mem_map.1 hu
  obtain ⟨d, hd, rfl⟩ := exists_digitChar (h c hc)
  exact beq_false_of_ne (hmark d hd)

private theorem cutBefore_exponent : cutBefore (fun u => u == 'e' || u == 'E') n.text =
    (n.whole.map CodeUnit.ofChar ++ n.point.map CodeUnit.ofChar, n.exponent.map CodeUnit.ofChar) := by
  have hmark (digits : List Char) (h : ∀ c ∈ digits, c.isDigit) :
      ∀ u ∈ digits.map CodeUnit.ofChar, (u == 'e' || u == 'E') = false := fun u hu => by
    rw [not_mark h 'e' (by decide) u hu, not_mark h 'E' (by decide) u hu, Bool.or_false]
  rw [text_eq]
  refine cutBefore_append (fun u hu => ?_) ?_
  · rcases List.mem_append.1 hu with hu | hu
    · exact hmark _ n.isDigit_whole u hu
    · unfold point at hu
      split at hu
      · cases hu
      · rcases List.mem_cons.1 hu with rfl | hu
        · decide
        · exact hmark _ n.isDigit_fraction u hu
  · unfold exponent
    cases n.power <;> simp

private theorem cutBefore_point :
    cutBefore (· == '.') (n.whole.map CodeUnit.ofChar ++ n.point.map CodeUnit.ofChar) =
    (n.whole.map CodeUnit.ofChar, n.point.map CodeUnit.ofChar) := by
  refine cutBefore_append (not_mark n.isDigit_whole '.' (by decide)) ?_
  unfold point
  split <;> simp

theorem drop_point : (n.point.map CodeUnit.ofChar).drop 1 = n.fraction.map CodeUnit.ofChar := by
  unfold point
  split
  · rename_i hempty
    rw [List.isEmpty_iff.1 hempty]
    rfl
  · rfl

private theorem digits_eq :
    Nat.ofDigitChars 10 n.whole 0 * tenTo n.fraction.length + Nat.ofDigitChars 10 n.fraction 0 =
      n.digits := by
  have happend : Nat.ofDigitChars 10 n.fraction (Nat.ofDigitChars 10 n.whole 0) = _ :=
    Nat.ofDigitChars_eq_ofDigitChars_zero
  rw [digits, Nat.ofDigitChars_append, happend, tenTo_eq, Nat.mul_comm]

/-- A numeral is read as the number nearest to its value. -/
theorem ofUnsigned?_text (negative : Bool) :
    ofUnsigned? n.text negative = some (ofDecimal negative n.digits n.scale) := by
  have hwhole : (n.whole.map CodeUnit.ofChar).isEmpty = false := by simpa using n.whole_ne_nil
  unfold ofUnsigned?
  rw [n.cutBefore_exponent]
  dsimp only
  rw [n.cutBefore_point]
  dsimp only
  rw [n.drop_point, hwhole, Bool.false_and, ofOptionalDigits?_digits n.isDigit_whole,
    ofOptionalDigits?_digits n.isDigit_fraction]
  simp only [Bool.false_eq_true, if_false, Option.bind_eq_bind, Option.bind_some, digits_eq,
    List.length_map, scale, exponent]
  cases n.power with
  | none => simp
  | some power =>
    have hread :
        ofDigits? 10 ((Nat.toDigits 10 power.natAbs).map CodeUnit.ofChar) = some power.natAbs := by
      rw [ofDigits?_digits (fun c hc => Nat.isDigit_of_mem_toDigits (by decide) (by decide) hc)
        Nat.toDigits_ne_nil, Nat.ofDigitChars_ten_toDigits]
    have hne : CodeUnit.ofChar '+' ≠ CodeUnit.ofChar '-' := by decide
    rcases lt_or_ge power 0 with h | h
    · simp [h, hread, abs_of_neg h]
    · simp [not_lt.2 h, hread, abs_of_nonneg h, hne]

end Numeral

end JsonCompanion
