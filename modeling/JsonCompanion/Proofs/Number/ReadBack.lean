import JsonCompanion.Proofs.Number.Numeral

/-!
# Reading a number back

The text of a finite number is read as that number.

* `ofDecimal_near`: digits and a scale whose value rounds to a number are read as it.
* `exists_numeral`: the text of a number without a sign is a numeral that spells a value which
  rounds to it.
-/

namespace JsonCompanion.Number

variable {mantissa exponent numerator denominator : Nat}

/-! ### Sizes -/

private theorem twoTo_add (m n : Nat) : twoTo (m + n) = twoTo m * twoTo n := by
  rw [twoTo_eq, twoTo_eq, twoTo_eq, Nat.pow_add]

private theorem twoTo_succ (n : Nat) : twoTo (n + 1) = 2 * twoTo n := by
  rw [twoTo_eq, twoTo_eq, Nat.pow_succ']

/-- A quotient that rounds to a number is neither too small nor too large to be read. -/
theorem near_bounds_tenTo (hcanonical : Canonical mantissa exponent) (hmantissa : 0 < mantissa)
    (hpos : 0 < denominator) (hnear : Near mantissa exponent ((numerator : ℚ) / denominator)) :
    denominator ≤ numerator * tenTo 400 ∧ numerator < denominator * tenTo 400 := by
  obtain ⟨hbits, hexponent, -⟩ := hcanonical
  have hlast : denominator ≤ denominator * 2 ^ exponent := Nat.le_mul_of_pos_right _ (Nat.two_pow_pos _)
  obtain ⟨hlow, hhigh⟩ : (neighbourhood mantissa exponent).low * (denominator * 2 ^ exponent) ≤
        4 * (numerator * twoTo 1074) ∧
      4 * (numerator * twoTo 1074) ≤ (neighbourhood mantissa exponent).high *
        (denominator * 2 ^ exponent) := by
    rw [near_div_iff hpos] at hnear
    dsimp only at hnear
    split at hnear
    · exact hnear
    · exact ⟨hnear.1.le, hnear.2.le⟩
  have hleast : 2 ≤ (neighbourhood mantissa exponent).low := by
    simp only [neighbourhood]
    split <;> omega
  have hgreatest : (neighbourhood mantissa exponent).high ≤ 4 * twoTo 53 := by
    simp only [neighbourhood]
    omega
  constructor
  · have hunit : 2 * twoTo 1074 ≤ tenTo 400 := by
      rw [← twoTo_succ]
      exact (twoTo_le (by decide)).trans (twoTo_le_tenTo 400)
    have hmul := Nat.mul_le_mul_left numerator hunit
    -- arithmetic must not evaluate these powers
    generalize twoTo 1074 = unit at *
    generalize tenTo 400 = limit at *
    nlinarith
  · have hpower : 2 ^ exponent ≤ twoTo 971 * twoTo 1074 := by
      rw [← twoTo_add]
      exact twoTo_le hexponent
    have hlimit : 2 * (twoTo 53 * twoTo 971) ≤ tenTo 400 := by
      rw [← twoTo_add, ← twoTo_succ]
      exact (twoTo_le (by decide)).trans (twoTo_le_tenTo 400)
    have hunit := twoTo_pos 1074
    have hlarge : 0 < twoTo 53 * twoTo 971 := Nat.mul_pos (twoTo_pos _) (twoTo_pos _)
    have hnumerator : numerator * twoTo 1074 ≤ denominator * (twoTo 53 * twoTo 971) * twoTo 1074 := by
      have hall : (neighbourhood mantissa exponent).high * (denominator * 2 ^ exponent) ≤
          4 * twoTo 53 * (denominator * (twoTo 971 * twoTo 1074)) :=
        Nat.mul_le_mul hgreatest (Nat.mul_le_mul_left _ hpower)
      generalize twoTo 1074 = unit at *
      linarith
    calc numerator ≤ denominator * (twoTo 53 * twoTo 971) := Nat.le_of_mul_le_mul_right hnumerator hunit
      _ < denominator * (2 * (twoTo 53 * twoTo 971)) := Nat.mul_lt_mul_of_pos_left (by omega) hpos
      _ ≤ denominator * tenTo 400 := Nat.mul_le_mul_left _ hlimit

/-! ### Decimals -/

private theorem size_bounds {digits : Nat} (hdigits : 0 < digits) :
    0 < digitCount digits ∧ 10 ^ (digitCount digits - 1) ≤ digits ∧ digits < 10 ^ digitCount digits :=
  ⟨Nat.length_toDigits_pos, pow_digitCount_le hdigits,
    (Nat.length_toDigits_le_iff (by decide) Nat.length_toDigits_pos).1 (Nat.le_refl _)⟩

private theorem whole_size {digits scale limit : Nat} (hdigits : 0 < digits)
    (hhigh : digits * tenTo scale < 1 * tenTo limit) : digitCount digits + scale ≤ limit := by
  obtain ⟨hpos, hleast, -⟩ := size_bounds hdigits
  have hlt : 10 ^ (digitCount digits - 1 + scale) < 10 ^ limit :=
    calc 10 ^ (digitCount digits - 1 + scale) = 10 ^ (digitCount digits - 1) * tenTo scale :=
      Nat.pow_add ..
      _ ≤ digits * tenTo scale := Nat.mul_le_mul_right _ hleast
      _ < 10 ^ limit := by rwa [Nat.one_mul] at hhigh
  have := (Nat.pow_lt_pow_iff_right (by decide)).1 hlt
  omega

private theorem fraction_size {digits scale limit : Nat} (hdigits : 0 < digits)
    (hlow : tenTo scale ≤ digits * tenTo limit) (hhigh : digits < tenTo scale * tenTo limit) :
    scale < digitCount digits + limit ∧ digitCount digits ≤ scale + limit := by
  obtain ⟨hpos, hleast, hmost⟩ := size_bounds hdigits
  have hlt : 10 ^ scale < 10 ^ (digitCount digits + limit) :=
    calc 10 ^ scale ≤ digits * tenTo limit := hlow
      _ < 10 ^ digitCount digits * tenTo limit := Nat.mul_lt_mul_of_pos_right hmost (tenTo_pos _)
      _ = 10 ^ (digitCount digits + limit) := (Nat.pow_add ..).symm
  have hlt' : 10 ^ (digitCount digits - 1) < 10 ^ (scale + limit) :=
    calc 10 ^ (digitCount digits - 1) ≤ digits := hleast
      _ < tenTo scale * tenTo limit := hhigh
      _ = 10 ^ (scale + limit) := (Nat.pow_add ..).symm
  have := (Nat.pow_lt_pow_iff_right (by decide)).1 hlt
  have := (Nat.pow_lt_pow_iff_right (by decide)).1 hlt'
  omega

/-- Digits and a scale whose value rounds to a number are read as it. -/
theorem ofDecimal_near {digits : Nat} {scale : Int} (hcanonical : Canonical mantissa exponent)
    (hmantissa : 0 < mantissa) (hnear : Near mantissa exponent (digits * 10 ^ scale)) :
    ofDecimal false digits scale = .finite false mantissa exponent hcanonical := by
  -- a whole number or a fraction of a power of ten; neither is cut off as too large or too small
  rcases Int.le_total 0 scale with h | h
  · obtain ⟨scale, rfl⟩ := Int.eq_ofNat_of_zero_le h
    have hvalue : (digits : ℚ) * 10 ^ (scale : Int) = ((digits * tenTo scale : ℕ) : ℚ) / (1 : ℕ) := by
      simp [tenTo_eq]
    rw [hvalue] at hnear
    obtain ⟨hlow, hhigh⟩ := near_bounds_tenTo hcanonical hmantissa (by decide) hnear
    have hdigits : 0 < digits := Nat.pos_of_ne_zero fun hzero => by simp [hzero] at hlow
    have hsize := whole_size hdigits hhigh
    unfold ofDecimal
    rw [if_neg (Nat.ne_of_gt hdigits)]
    dsimp only
    rw [if_neg, if_neg, if_pos h, Int.toNat_natCast]
    · exact ofRatio_near hcanonical hmantissa (by decide) hnear
    all_goals
      unfold digitCount at hsize
      omega
  · obtain ⟨places, hplaces⟩ := Int.eq_ofNat_of_zero_le (Int.neg_nonneg.2 h)
    obtain rfl : scale = -(places : Int) := by omega
    have hvalue : (digits : ℚ) * 10 ^ (-(places : Int)) = ((digits : ℕ) : ℚ) / (tenTo places : ℕ) := by
      simp [tenTo_eq, div_eq_mul_inv]
    rw [hvalue] at hnear
    obtain ⟨hlow, hhigh⟩ := near_bounds_tenTo hcanonical hmantissa (tenTo_pos _) hnear
    have hdigits : 0 < digits := Nat.pos_of_ne_zero fun hzero => by
      rw [hzero, Nat.zero_mul] at hlow
      exact absurd (tenTo_pos places) (Nat.not_lt.2 hlow)
    obtain ⟨hsmall, hlarge⟩ := fraction_size hdigits hlow hhigh
    unfold ofDecimal
    rw [if_neg (Nat.ne_of_gt hdigits)]
    dsimp only
    rw [if_neg, if_neg]
    · split
      · obtain rfl : places = 0 := by omega
        exact ofRatio_near hcanonical hmantissa (by decide) (by simpa [tenTo_eq] using hnear)
      · rw [neg_neg, Int.toNat_natCast]
        exact ofRatio_near hcanonical hmantissa (tenTo_pos _) hnear
    all_goals
      unfold digitCount at hsmall hlarge
      omega

/-! ### Texts -/

private theorem near_pos {x : ℚ} (hmantissa : 0 < mantissa) (hnear : Near mantissa exponent x) :
    0 < x := by
  have hquarter : (0 : ℚ) < 2 ^ exponent / 2 ^ 1076 := by positivity
  have hlow : 0 < (neighbourhood mantissa exponent).low := by
    simp only [neighbourhood]
    split <;> omega
  have hproduct := mul_pos (Nat.cast_pos.2 hlow) hquarter
  unfold Near at hnear
  dsimp only at hnear
  split at hnear
  · exact hproduct.trans_le hnear.1
  · exact hproduct.trans hnear.1

/-- The digits of a number are laid out as a numeral of its value, with or without the zeros at
their end. -/
private theorem exists_numeral_layOut {digits : Nat} (hdigits : 0 < digits) (scale : Int) :
    let written := Nat.toDigits 10 digits
    ∃ n : Numeral, n.text = (layOut (dropZeros written) (written.length + scale)).map CodeUnit.ofChar ∧
      n.value = digits * 10 ^ scale := by
  dsimp only
  have hhead := head?_toDigits hdigits
  obtain ⟨zeros, hzeros⟩ := dropZeros_append (Nat.toDigits 10 digits)
  have hfirst := head?_dropZeros hhead
  have hall : ∀ c ∈ dropZeros (Nat.toDigits 10 digits), c.isDigit := by
    intro c hc
    have hmem : c ∈ Nat.toDigits 10 digits := by
      rw [hzeros]
      exact List.mem_append_left _ hc
    exact Nat.isDigit_of_mem_toDigits (by decide) (by decide) hmem
  -- the zeros that are dropped at the end are a power of ten
  have hvalue : (digits : ℚ) = Nat.ofDigitChars 10 (dropZeros (Nat.toDigits 10 digits)) 0 *
      10 ^ zeros := by
    have h : Nat.ofDigitChars 10 (Nat.toDigits 10 digits) 0 = digits := Nat.ofDigitChars_ten_toDigits
    rw [hzeros, Nat.ofDigitChars_append, Nat.ofDigitChars_replicate_zero, Nat.mul_comm] at h
    exact_mod_cast h.symm
  have hne : dropZeros (Nat.toDigits 10 digits) ≠ [] := fun hnil => by
    rw [hnil, Nat.ofDigitChars_nil, Nat.cast_zero, zero_mul, Nat.cast_eq_zero] at hvalue
    exact absurd hvalue (Nat.ne_of_gt hdigits)
  have hlength :
      ((Nat.toDigits 10 digits).length : Int) + scale - (dropZeros (Nat.toDigits 10 digits)).length =
      zeros + scale := by
    have h := congrArg List.length hzeros
    rw [List.length_append, List.length_replicate] at h
    omega
  obtain ⟨n, htext, hspelled⟩ := layOut_eq hne hall hfirst ((Nat.toDigits 10 digits).length + scale)
  refine ⟨n, htext, ?_⟩
  rw [hspelled, hlength, hvalue, zpow_add₀ (by norm_num), zpow_natCast, mul_assoc]

/-- The text of a number without a sign is a numeral which is read as that number. -/
theorem exists_numeral (hcanonical : Canonical mantissa exponent) :
    ∃ n : Numeral, (Number.finite false mantissa exponent hcanonical).text = n.text ∧
      ofUnsigned? n.text false = some (.finite false mantissa exponent hcanonical) := by
  rcases Nat.eq_zero_or_pos mantissa with rfl | hmantissa
  · obtain rfl : exponent = 0 :=
      hcanonical.2.2.resolve_right fun h => absurd (twoTo_pos 52) (Nat.not_lt.2 h)
    let zero : Numeral := ⟨['0'], [], none, by simp, by simp, by simp, .inl rfl⟩
    exact ⟨zero, rfl, zero.ofUnsigned?_text false⟩
  · have hnear : Near mantissa exponent _ := shortest_near hcanonical.1 hmantissa
    have hdigits : 0 < (shortest mantissa exponent).1 := Nat.pos_of_ne_zero fun hzero => by
      have hpos := near_pos hmantissa hnear
      rw [hzero, Nat.cast_zero, zero_mul] at hpos
      exact lt_irrefl _ hpos
    obtain ⟨n, htext, hvalue⟩ := exists_numeral_layOut hdigits (shortest mantissa exponent).2
    refine ⟨n, ?_, ?_⟩
    · rw [htext, text, if_neg (Nat.ne_of_gt hmantissa)]
      rfl
    · rw [← hvalue] at hnear
      rw [n.ofUnsigned?_text, ofDecimal_near hcanonical hmantissa hnear]

end JsonCompanion.Number
