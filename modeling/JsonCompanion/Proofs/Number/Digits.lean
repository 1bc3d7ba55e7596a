import JsonCompanion.Number.Decimal

/-!
# Decimal digits

The digits of a natural number as units of a text.

* `ofDigits?_digits` reads decimal digits.
* `dropZeros_append` says what `dropZeros` leaves out of the digits of a number, and
  `head?_dropZeros` that the first digit stays.
-/

namespace JsonCompanion

theorem CodeUnit.digitValue?_digitChar :
    ∀ d < 16, CodeUnit.digitValue? (CodeUnit.ofChar (Nat.digitChar d)) = some d := by
  decide

namespace Number

variable {digits : List Char}

/-- A decimal digit is one of ten characters. -/
theorem exists_digitChar {c : Char} (h : c.isDigit) : ∃ d < 10, c = Nat.digitChar d := by
  obtain ⟨hlow, hhigh⟩ : 48 ≤ c.toNat ∧ c.toNat ≤ 57 := by
    simpa [Char.isDigit, Char.le_def, UInt32.le_iff_toNat_le] using h
  have hall : ∀ d < 10, Char.ofNat (d + 48) = Nat.digitChar d := by decide
  refine ⟨c.toNat - 48, by omega, ?_⟩
  rw [← hall _ (by omega), Nat.sub_add_cancel hlow, Char.ofNat_toNat]

/-- Decimal digits are read as the number that they spell. -/
theorem ofDigits?_digits (h : ∀ c ∈ digits, c.isDigit) (hne : digits ≠ []) :
    ofDigits? 10 (digits.map CodeUnit.ofChar) = some (Nat.ofDigitChars 10 digits 0) := by
  have hfold (total : Nat) : (digits.map CodeUnit.ofChar).foldl (fun total u => do
      let total ← total
      let digit ← u.digitValue?
      if digit < 10 then some (total * 10 + digit) else none) (some total) =
      some (Nat.ofDigitChars 10 digits total) := by
    clear hne
    induction digits generalizing total with
    | nil => rfl
    | cons c digits ih =>
      obtain ⟨d, hd, rfl⟩ := exists_digitChar (h c (by simp))
      have hstep : (do
          let total ← some total
          let digit ← CodeUnit.digitValue? (CodeUnit.ofChar (Nat.digitChar d))
          if digit < 10 then some (total * 10 + digit) else none) = some (10 * total + d) := by
        simp [CodeUnit.digitValue?_digitChar d (by omega), hd, Nat.mul_comm]
      rw [List.map_cons, List.foldl_cons, hstep, ih (fun c hc => h c (by simp [hc])),
        Nat.ofDigitChars_cons_digitChar_of_lt_ten hd]
  rw [ofDigits?, if_neg (by simpa using hne)]
  exact hfold 0

/-! ### The first digit and the last ones -/

theorem head?_toDigits {n : Nat} (hn : 0 < n) : (Nat.toDigits 10 n).head? ≠ some '0' := by
  have hdigit : ∀ d < 10, 0 < d → Nat.digitChar d ≠ '0' := by decide
  induction n using Nat.strongRecOn with
  | ind n ih =>
    rcases Nat.lt_or_ge n 10 with h | h
    · rw [Nat.toDigits_of_lt_base h]
      simpa using hdigit n h hn
    · rw [Nat.toDigits_of_base_le (by decide) h, List.head?_append,
        Option.or_of_isSome (by simp [Nat.toDigits_ne_nil])]
      exact ih _ (by omega) (by omega)

/-- Only zeros at the end are dropped. -/
theorem dropZeros_append (digits : List Char) :
    ∃ k, digits = dropZeros digits ++ List.replicate k '0' := by
  refine ⟨(digits.reverse.takeWhile (· == '0')).length, ?_⟩
  have hzeros : (digits.reverse.takeWhile (· == '0')).reverse =
      List.replicate (digits.reverse.takeWhile (· == '0')).length '0' := by
    refine List.eq_replicate_iff.2 ⟨List.length_reverse, fun c hc => ?_⟩
    simpa using List.all_eq_true.1 List.all_takeWhile c (List.mem_reverse.1 hc)
  rw [← hzeros, dropZeros, ← List.reverse_append, List.takeWhile_append_dropWhile, List.reverse_reverse]

theorem head?_dropZeros (h : digits.head? ≠ some '0') : (dropZeros digits).head? ≠ some '0' := by
  obtain ⟨k, hk⟩ := dropZeros_append digits
  cases hdropped : dropZeros digits with
  | nil => simp
  | cons c cs =>
    rw [hdropped] at hk
    rwa [hk] at h

end Number

end JsonCompanion
