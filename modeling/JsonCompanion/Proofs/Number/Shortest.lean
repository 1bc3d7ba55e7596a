import Mathlib.Data.Nat.Digits.Lemmas
import Mathlib.Tactic.FieldSimp
import JsonCompanion.Proofs.Number.Rounding

/-!
# Shortest digits

`Number.shortest` tries one grid of decimals after another.

* `gridHit?_near`: what it finds on a grid rounds to the number.
* `gridHit?_isSome`: on a grid that is fine enough it finds something, and `pointOf_le` says where
  that is.
* `shortest_near`: the digits and the scale that it ends with round to the number.
-/

namespace JsonCompanion.Number

/-! ### Powers of ten -/

theorem zpow_eq (scale : Int) :
    (10 : ℚ) ^ scale = (tenTo scale.toNat : ℚ) / (tenTo (-scale).toNat : ℚ) := by
  rcases Int.le_total 0 scale with h | h
  · obtain ⟨n, rfl⟩ := Int.eq_ofNat_of_zero_le h
    simp [tenTo_eq]
  · obtain ⟨n, hn⟩ := Int.eq_ofNat_of_zero_le (Int.neg_nonneg.2 h)
    obtain rfl : scale = -(n : Int) := by omega
    simp [tenTo_eq]

theorem tenTo_pos (n : Nat) : 0 < tenTo n := Nat.pow_pos (by decide)

theorem twoTo_le {m n : Nat} (h : m ≤ n) : twoTo m ≤ twoTo n := Nat.pow_le_pow_right (by decide) h

theorem twoTo_add_two (n : Nat) : twoTo (n + 2) = 4 * twoTo n := by
  rw [twoTo_eq, twoTo_eq, Nat.pow_add, Nat.mul_comm]

/-! ### Grids -/

variable {mantissa exponent n : Nat} {scale : Int}

private theorem near_grid_iff : Near mantissa exponent (n * 10 ^ scale) ↔
    let range := neighbourhood mantissa exponent
    let quarter := twoTo exponent * tenTo (-scale).toNat
    let x := n * (twoTo 1076 * tenTo scale.toNat)
    if range.closed then range.low * quarter ≤ x ∧ x ≤ range.high * quarter
    else range.low * quarter < x ∧ x < range.high * quarter := by
  have hx : (n : ℚ) * 10 ^ scale = ((n * tenTo scale.toNat : ℕ) : ℚ) / (tenTo (-scale).toNat : ℕ) := by
    rw [zpow_eq, Nat.cast_mul, mul_div_assoc]
  have htop : 4 * (n * tenTo scale.toNat * twoTo 1074) = n * (twoTo 1076 * tenTo scale.toNat) := by
    have hpow : twoTo 1076 = 4 * twoTo 1074 := twoTo_add_two 1074
    rw [hpow]
    generalize twoTo 1074 = unit
    ring
  rw [hx, near_div_iff (tenTo_pos _), htop, Nat.mul_comm (tenTo _) (2 ^ exponent)]
  rfl

/-- What is found on a grid rounds to the number. -/
theorem gridHit?_near (h : gridHit? (neighbourhood mantissa exponent) exponent scale = some n) :
    Near mantissa exponent (n * 10 ^ scale) := by
  rw [near_grid_iff]
  unfold gridHit? at h
  dsimp only at h ⊢
  generalize twoTo exponent * tenTo (-scale).toNat = quarter at h ⊢
  generalize twoTo 1076 * tenTo scale.toNat = step at h ⊢
  generalize (neighbourhood mantissa exponent).value * quarter / step = below at h
  -- whichever neighbour is found has passed the test
  have hinside : (if (neighbourhood mantissa exponent).closed then
      decide ((neighbourhood mantissa exponent).low * quarter ≤ n * step) &&
        decide (n * step ≤ (neighbourhood mantissa exponent).high * quarter)
      else decide ((neighbourhood mantissa exponent).low * quarter < n * step) &&
        decide (n * step < (neighbourhood mantissa exponent).high * quarter)) = true := by
    split at h
    · rename_i hbelow hnext
      obtain rfl := Option.some.inj h
      split_ifs at hbelow hnext ⊢ <;> assumption
    · rename_i hbelow _
      exact Option.some.inj h ▸ hbelow
    · rename_i _ hnext
      exact Option.some.inj h ▸ hnext
    · cases h
  split
  · rename_i hclosed
    simpa [hclosed] using hinside
  · rename_i hopen
    simpa [hopen] using hinside

/-- On a grid whose step is no longer than a quarter of the last place something is found. -/
theorem gridHit?_isSome (hmantissa : 0 < mantissa)
    (hfine : twoTo 1076 * tenTo scale.toNat ≤ twoTo exponent * tenTo (-scale).toNat) :
    (gridHit? (neighbourhood mantissa exponent) exponent scale).isSome := by
  have hstep : 0 < twoTo 1076 * tenTo scale.toNat := Nat.mul_pos (twoTo_pos _) (tenTo_pos _)
  unfold gridHit?
  dsimp only
  generalize twoTo exponent * tenTo (-scale).toNat = quarter at hfine ⊢
  generalize twoTo 1076 * tenTo scale.toNat = step at hfine hstep ⊢
  have hdiv := Nat.div_add_mod ((neighbourhood mantissa exponent).value * quarter) step
  have hmod := Nat.mod_lt ((neighbourhood mantissa exponent).value * quarter) hstep
  generalize (neighbourhood mantissa exponent).value * quarter / step = below at hdiv ⊢
  generalize (neighbourhood mantissa exponent).value * quarter % step = rest at hdiv hmod
  -- a step of the grid is no longer than the way from the value to its bounds
  have hlow : (neighbourhood mantissa exponent).low * quarter + quarter ≤
      (neighbourhood mantissa exponent).value * quarter := by
    rw [← Nat.succ_mul]
    refine Nat.mul_le_mul_right _ ?_
    simp only [neighbourhood]
    split <;> omega
  have hhigh : (neighbourhood mantissa exponent).value * quarter + quarter ≤
      (neighbourhood mantissa exponent).high * quarter := by
    rw [← Nat.succ_mul]
    refine Nat.mul_le_mul_right _ ?_
    simp only [neighbourhood]
    omega
  have habove : (neighbourhood mantissa exponent).low * quarter < below * step := by nlinarith
  have hunder : below * step < (neighbourhood mantissa exponent).high * quarter := by nlinarith
  simp only [habove, habove.le, hunder, hunder.le, decide_true, Bool.and_self, ite_self]
  split
  · rfl
  · rfl
  · rename_i h _
    cases h
  · rename_i h _
    cases h

/-! ### The decimal point -/

theorem leadingPlaces_le {limit numerator denominator : Nat}
    (h : denominator ≤ numerator * tenTo limit) :
    denominator ≤ numerator * 10 ^ leadingPlaces numerator denominator limit := by
  rw [tenTo_eq] at h
  induction limit generalizing numerator with
  | zero => simpa [leadingPlaces] using h
  | succ limit ih =>
    unfold leadingPlaces
    split
    · simpa
    · have hnext : denominator ≤ numerator * 10 * 10 ^ limit := by rwa [Nat.mul_assoc, ← Nat.pow_succ']
      simpa [Nat.pow_succ', Nat.mul_assoc] using ih hnext

theorem pow_digitCount_le {n : Nat} (hn : 0 < n) : 10 ^ (digitCount n - 1) ≤ n := by
  rcases Nat.eq_zero_or_pos (digitCount n - 1) with h | h
  · rwa [h]
  · refine Nat.le_of_not_lt fun hlt => ?_
    have hcount : digitCount n ≤ digitCount n - 1 := (Nat.length_toDigits_le_iff (by decide) h).2 hlt
    omega

/-- The first significant digit of a quotient stands just before the point that `pointOf` finds. -/
theorem pointOf_le {numerator denominator : Nat} (hpos : 0 < denominator)
    (hlimit : denominator ≤ numerator * tenTo 400) :
    (10 : ℚ) ^ (pointOf numerator denominator - 1) ≤ numerator / denominator := by
  have hden : (0 : ℚ) < denominator := by exact_mod_cast hpos
  rw [le_div_iff₀ hden]
  unfold pointOf
  split
  · rename_i hle
    have hwhole := pow_digitCount_le (Nat.div_pos hle hpos)
    have hcount : 1 ≤ digitCount (numerator / denominator) := Nat.length_toDigits_pos
    have hpow : (10 : ℚ) ^ ((digitCount (numerator / denominator) : Int) - 1) =
        (10 ^ (digitCount (numerator / denominator) - 1) : ℕ) := by
      rw [← Nat.cast_pred hcount, zpow_natCast, Nat.cast_pow, Nat.cast_ofNat]
    rw [hpow]
    exact_mod_cast (Nat.le_div_iff_mul_le hpos).1 hwhole
  · have hplaces := leadingPlaces_le hlimit
    generalize leadingPlaces numerator denominator 400 = places at hplaces ⊢
    have hpow : (10 : ℚ) ^ (1 - (places : Int) - 1) = ((10 ^ places : ℕ) : ℚ)⁻¹ := by
      rw [show 1 - (places : Int) - 1 =
        -(places : Int) by omega, zpow_neg, zpow_natCast, Nat.cast_pow, Nat.cast_ofNat]
    rw [hpow, inv_mul_le_iff₀ (by positivity), mul_comm]
    exact_mod_cast hplaces

/-! ### The search -/

/-- The search ends on a grid on which something is found if there is one in reach. -/
theorem firstHit_near {point : Int} {digits tries : Nat}
    (h : ∃ k < tries,
      (gridHit? (neighbourhood mantissa exponent) exponent (point - (digits + k : ℕ))).isSome) :
    let found := firstHit (neighbourhood mantissa exponent) exponent point digits tries
    Near mantissa exponent (found.1 * 10 ^ found.2) := by
  induction tries generalizing digits with
  | zero => simp at h
  | succ tries ih =>
    obtain ⟨k, hk, hsome⟩ := h
    unfold firstHit
    split
    · rename_i n hn
      exact gridHit?_near hn
    · rename_i hnone
      cases k with
      | zero =>
        rw [Nat.add_zero, hnone] at hsome
        cases hsome
      | succ k => exact ih ⟨k, by omega, by rwa [Nat.add_right_comm, Nat.add_assoc]⟩

theorem twoTo_le_tenTo (n : Nat) : twoTo (3 * n) ≤ tenTo n := by
  rw [twoTo_eq, tenTo_eq, Nat.pow_mul]
  exact Nat.pow_le_pow_left (by decide) n

private theorem zpow_eighteen (point : Int) : (10 : ℚ) ^ (point - 1) = 10 ^ (point - 18) * 10 ^ 17 := by
  rw [← zpow_natCast, ← zpow_add₀ (by norm_num)]
  congr 1
  omega

/-- A step of which seventeen places fill no more than a mantissa is shorter than a quarter of the
last place. -/
private theorem fine_of_le {unit last up down : Nat} (hbits : mantissa < 2 ^ 53)
    (h : up * 10 ^ 17 * unit ≤ mantissa * last * down) : 4 * unit * up ≤ last * down := by
  have hall : mantissa * (last * down) ≤ 2 ^ 53 * (last * down) := Nat.mul_le_mul_right _ hbits.le
  nlinarith

/-- With eighteen digits a grid is fine enough for every number. -/
private theorem fine_of_point_le {point : Int} (hbits : mantissa < 2 ^ 53)
    (hpoint : (10 : ℚ) ^ (point - 1) ≤ (mantissa * twoTo exponent : ℕ) / (twoTo 1074 : ℕ)) :
    twoTo 1076 * tenTo (point - 18).toNat ≤ twoTo exponent * tenTo (-(point - 18)).toNat := by
  have hunit : (0 : ℚ) < (twoTo 1074 : ℕ) := by exact_mod_cast twoTo_pos 1074
  have hdown : (0 : ℚ) < (tenTo (-(point - 18)).toNat : ℕ) := by exact_mod_cast tenTo_pos _
  have hquarter : twoTo 1076 = 4 * twoTo 1074 := twoTo_add_two 1074
  rw [zpow_eighteen, zpow_eq, le_div_iff₀ hunit, div_mul_eq_mul_div, div_mul_eq_mul_div,
    div_le_iff₀ hdown] at hpoint
  rw [hquarter]
  exact fine_of_le hbits (by exact_mod_cast hpoint)

/-- The shortest digits of a number round to it. -/
theorem shortest_near (hbits : mantissa < 2 ^ 53) (hmantissa : 0 < mantissa) :
    Near mantissa exponent ((shortest mantissa exponent).1 * 10 ^ (shortest mantissa exponent).2) := by
  have hlimit : twoTo 1074 ≤ mantissa * twoTo exponent * tenTo 400 :=
    calc twoTo 1074 ≤ twoTo (3 * 400) := twoTo_le (by decide)
      _ ≤ tenTo 400 := twoTo_le_tenTo _
      _ ≤ mantissa * twoTo exponent * tenTo 400 :=
        Nat.le_mul_of_pos_left _ (Nat.mul_pos hmantissa (twoTo_pos _))
  have hpoint := pointOf_le (twoTo_pos 1074) hlimit
  exact firstHit_near ⟨17, by decide, gridHit?_isSome hmantissa (fine_of_point_le hbits hpoint)⟩

end JsonCompanion.Number
