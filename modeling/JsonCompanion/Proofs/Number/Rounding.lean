import Mathlib.Data.Nat.Log
import Mathlib.Data.Rat.Cast.Order
import Mathlib.Tactic.Linarith
import Mathlib.Tactic.NormNum
import Mathlib.Tactic.Positivity
import Mathlib.Tactic.Ring
import JsonCompanion.Number.Decimal

/-!
# Rounding to a number

* `Number.Near` says that a rational number lies in the range of values that round to a number.
* `Number.ofRatio_near`: a quotient in that range is rounded to the number.
-/

namespace JsonCompanion.Number

/-! ### Halves -/

/-- A quotient that is at most half a unit away from a number is rounded to it, a tie only to an
even one. -/
theorem roundQuotient_eq {numerator denominator n : Nat}
    (hlow : 2 * n * denominator ≤ 2 * numerator + denominator)
    (hhigh : 2 * numerator ≤ 2 * n * denominator + denominator)
    (htie : n % 2 = 1 → 2 * n * denominator < 2 * numerator + denominator ∧
      2 * numerator < 2 * n * denominator + denominator) (hpos : 0 < denominator) :
    roundQuotient numerator denominator = n := by
  have hdiv := Nat.div_add_mod numerator denominator
  have hmod := Nat.mod_lt numerator hpos
  unfold roundQuotient
  dsimp only
  generalize numerator / denominator = quotient at hdiv ⊢
  generalize numerator % denominator = rest at hdiv hmod ⊢
  -- the bounds leave the quotient and the number above it
  have hcases : quotient = n ∨ quotient + 1 = n := by
    rcases Nat.lt_trichotomy quotient n with hlt | heq | hgt
    · refine .inr (Nat.le_antisymm hlt (Nat.le_of_not_lt fun h => ?_))
      have hmul : denominator * (quotient + 2) ≤ denominator * n := Nat.mul_le_mul_left _ h
      linarith
    · exact .inl heq
    · have hmul : denominator * (n + 1) ≤ denominator * quotient := Nat.mul_le_mul_left _ hgt
      linarith
  rcases hcases with rfl | rfl
  · have hrest : 2 * rest ≤ denominator := by linarith
    have hstrict : quotient % 2 = 1 → 2 * rest < denominator := fun hodd => by linarith [htie hodd]
    split_ifs <;> omega
  · have hrest : denominator ≤ 2 * rest := by linarith
    have hstrict : (quotient + 1) % 2 = 1 → denominator < 2 * rest := fun hodd => by linarith [htie hodd]
    split_ifs <;> omega

/-! ### Exponents -/

theorem twoTo_eq (n : Nat) : twoTo n = 2 ^ n := rfl

theorem tenTo_eq (n : Nat) : tenTo n = 10 ^ n := rfl

/-- The exponent of a quotient: the least one for which the quotient has at most 53 bits. -/
def exponentOf (top denominator : Nat) : Nat :=
  let low := Nat.log2 top - Nat.log2 denominator - 53
  if top / (denominator * twoTo low) < twoTo 53 then low else low + 1

theorem ofRatio_eq (negative : Bool) (numerator denominator : Nat) :
    ofRatio negative numerator denominator =
    let exponent := exponentOf (numerator * twoTo 1074) denominator
    let mantissa := roundQuotient (numerator * twoTo 1074) (denominator * twoTo exponent)
    if mantissa = twoTo 53 then ofParts negative (twoTo 52) (exponent + 1) else ofParts negative
      mantissa exponent := rfl

private theorem log2_bounds {n : Nat} (hn : n ≠ 0) : 2 ^ n.log2 ≤ n ∧ n < 2 ^ (n.log2 + 1) :=
  ⟨Nat.log2_self_le hn, Nat.lt_log2_self⟩

theorem exponentOf_high {top denominator : Nat} (htop : top ≠ 0) (hpos : 0 < denominator) :
    top < 2 ^ 53 * (denominator * 2 ^ exponentOf top denominator) := by
  unfold exponentOf
  dsimp only
  generalize hlow : top.log2 - denominator.log2 - 53 = low
  split
  · rename_i hlt
    exact (Nat.div_lt_iff_lt_mul (Nat.mul_pos hpos (Nat.two_pow_pos _))).1 hlt
  · have hexponent : top.log2 + 1 ≤ 53 + denominator.log2 + (low + 1) := by omega
    calc top < 2 ^ (top.log2 + 1) := (log2_bounds htop).2
      _ ≤ 2 ^ (53 + denominator.log2 + (low + 1)) := Nat.pow_le_pow_right (by decide) hexponent
      _ = 2 ^ 53 *
        (2 ^ denominator.log2 * 2 ^ (low + 1)) := by rw [Nat.pow_add, Nat.pow_add, Nat.mul_assoc]
      _ ≤ 2 ^ 53 * (denominator * 2 ^ (low + 1)) :=
        Nat.mul_le_mul_left _ (Nat.mul_le_mul_right _ (log2_bounds (Nat.ne_of_gt hpos)).1)

theorem exponentOf_low {top denominator : Nat} (htop : top ≠ 0) (hpos : 0 < denominator)
    (hexponent : exponentOf top denominator ≠ 0) :
    2 ^ 52 * (denominator * 2 ^ exponentOf top denominator) ≤ top := by
  unfold exponentOf at hexponent ⊢
  dsimp only at hexponent ⊢
  generalize hlow : top.log2 - denominator.log2 - 53 = low at hexponent ⊢
  split
  · rename_i hlt
    rw [if_pos hlt] at hexponent
    have hsum : 52 + (denominator.log2 + 1 + low) ≤ top.log2 := by omega
    calc 2 ^ 52 * (denominator * 2 ^ low) ≤ 2 ^ 52 * (2 ^ (denominator.log2 + 1) * 2 ^ low) :=
          Nat.mul_le_mul_left _ (Nat.mul_le_mul_right _ (log2_bounds (Nat.ne_of_gt hpos)).2.le)
      _ = 2 ^ (52 + (denominator.log2 + 1 + low)) := by
          rw [Nat.pow_add 2 52, Nat.pow_add 2 (denominator.log2 + 1)]
      _ ≤ 2 ^ top.log2 := Nat.pow_le_pow_right (by decide) hsum
      _ ≤ top := (log2_bounds htop).1
  · rename_i hge
    have hmul : 2 ^ 53 * (denominator * 2 ^ low) ≤ top :=
      (Nat.le_div_iff_mul_le (Nat.mul_pos hpos (Nat.two_pow_pos _))).1 (Nat.le_of_not_lt hge)
    calc 2 ^ 52 * (denominator * 2 ^ (low + 1)) = 2 ^ 53 * (denominator * 2 ^ low) := by
          rw [Nat.pow_succ 2 low]; ring
      _ ≤ top := hmul

/-! ### Ranges -/

/-- A rational number lies in the range of values that round to a number; an end of it belongs to
the range if the mantissa is even. -/
def Near (mantissa exponent : Nat) (x : ℚ) : Prop :=
  let range := neighbourhood mantissa exponent
  let quarter : ℚ := 2 ^ exponent / 2 ^ 1076
  if range.closed then range.low * quarter ≤ x ∧ x ≤ range.high * quarter
  else range.low * quarter < x ∧ x < range.high * quarter

/-- The range in natural numbers. -/
theorem near_div_iff {mantissa exponent numerator denominator : Nat} (hpos : 0 < denominator) :
    Near mantissa exponent ((numerator : ℚ) / denominator) ↔
      let range := neighbourhood mantissa exponent
      let last := denominator * 2 ^ exponent
      if range.closed then range.low * last ≤ 4 * (numerator * twoTo 1074) ∧
        4 * (numerator * twoTo 1074) ≤ range.high * last
      else range.low * last < 4 * (numerator * twoTo 1074) ∧
        4 * (numerator * twoTo 1074) < range.high * last := by
  have hden : (0 : ℚ) < denominator := by exact_mod_cast hpos
  have hscale : (0 : ℚ) < 2 ^ 1076 := by positivity
  have hpow : (2 : ℚ) ^ 1076 = 4 * (twoTo 1074 : ℕ) := by
    rw [twoTo_eq, show (1076 : Nat) = 2 + 1074 from rfl, pow_add, Nat.cast_pow]
    norm_num only
  have hle (k : Nat) : (k : ℚ) * (2 ^ exponent / 2 ^ 1076) ≤ (numerator : ℚ) / denominator ↔
      k * (denominator * 2 ^ exponent) ≤ 4 * (numerator * twoTo 1074) := by
    rw [← mul_div_assoc, div_le_div_iff₀ hscale hden, hpow, ← Nat.cast_le (α := ℚ)]
    push_cast
    constructor <;> intro h <;> linarith
  have hge (k : Nat) : (numerator : ℚ) / denominator ≤ (k : ℚ) * (2 ^ exponent / 2 ^ 1076) ↔
      4 * (numerator * twoTo 1074) ≤ k * (denominator * 2 ^ exponent) := by
    rw [← mul_div_assoc, div_le_div_iff₀ hden hscale, hpow, ← Nat.cast_le (α := ℚ)]
    push_cast
    constructor <;> intro h <;> linarith
  unfold Near
  dsimp only
  split
  · rw [hle, hge]
  · rw [← not_le, ← not_le, hle, hge, not_le, not_le]

/-! ### Quotients in range -/

private theorem mul_pow_lt (denominator : Nat) {low high : Nat} (h : low < high) :
    2 * (denominator * 2 ^ low) ≤ denominator * 2 ^ high := by
  calc 2 * (denominator * 2 ^ low) = denominator * 2 ^ (low + 1) := by rw [Nat.pow_succ]; ring
    _ ≤ denominator * 2 ^ high := Nat.mul_le_mul_left _ (Nat.pow_le_pow_right (by decide) h)

variable {mantissa exponent numerator denominator : Nat}

/-- Half a unit of the last place bounds a quotient in range; only at a power of two the lower half
is finer. -/
private theorem near_bounds (hpos : 0 < denominator)
    (hnear : Near mantissa exponent ((numerator : ℚ) / denominator)) :
    let top := numerator * twoTo 1074
    let last := denominator * 2 ^ exponent
    (2 * mantissa * last ≤ 2 * top + last ∧ 2 * top ≤ 2 * mantissa * last + last) ∧
      (mantissa % 2 = 1 → 2 * mantissa * last < 2 * top + last ∧ 2 * top < 2 * mantissa * last + last) ∧
      (mantissa = 2 ^ 52 → 0 < exponent → 4 * mantissa * last ≤ 4 * top + last) := by
  rw [near_div_iff hpos] at hnear
  dsimp only at hnear ⊢
  generalize numerator * twoTo 1074 = top at hnear ⊢
  generalize denominator * 2 ^ exponent = last at hnear ⊢
  -- adding again what was taken away gives no less, also where the difference stops at zero
  have hsub (k : Nat) : 4 * mantissa * last ≤ (4 * mantissa - k) * last + k * last := by
    rw [← Nat.add_mul]
    exact Nat.mul_le_mul_right _ (by omega)
  have hone := hsub 1
  have htwo := hsub 2
  have hhigh : (neighbourhood mantissa exponent).high = 4 * mantissa + 2 := rfl
  have hlow : (neighbourhood mantissa exponent).low =
      4 * mantissa - if mantissa = 2 ^ 52 ∧ 0 < exponent then 1 else 2 := rfl
  have hclosed : (neighbourhood mantissa exponent).closed = (mantissa % 2 == 0) := rfl
  rw [hhigh, hlow, hclosed] at hnear
  by_cases hpower : mantissa = 2 ^ 52 ∧ 0 < exponent
  · rw [if_pos hpower] at hnear
    split at hnear
    · refine ⟨⟨by linarith, by linarith⟩, fun hodd => by simp_all, fun _ _ => by linarith⟩
    · refine ⟨⟨by linarith, by linarith⟩, fun hodd => ⟨by linarith, by linarith⟩, fun _ _ => by linarith⟩
  · rw [if_neg hpower] at hnear
    split at hnear
    · refine ⟨⟨by linarith, by linarith⟩, fun hodd => by simp_all, fun h h' => absurd ⟨h, h'⟩ hpower⟩
    · refine ⟨⟨by linarith, by linarith⟩, fun hodd => ⟨by linarith, by linarith⟩, fun h h' =>
        absurd ⟨h, h'⟩ hpower⟩

/-- A quotient whose exponent is smaller than that of a number near it lies below the least mantissa
of the next exponent. -/
private theorem least_of_exponent_lt {top found : Nat} (hpos : 0 < denominator)
    (hleast : 2 ^ 52 ≤ mantissa) (hlt : found < exponent)
    (hbelow : top < 2 ^ 53 * (denominator * 2 ^ found))
    (hlow : 2 * mantissa * (denominator * 2 ^ exponent) ≤ 2 * top + denominator * 2 ^ exponent)
    (hpower : mantissa = 2 ^ 52 → 0 < exponent →
      4 * mantissa * (denominator * 2 ^ exponent) ≤ 4 * top + denominator * 2 ^ exponent) :
    mantissa = 2 ^ 52 ∧ exponent = found + 1 := by
  have hlast : 0 < denominator * 2 ^ found := Nat.mul_pos hpos (Nat.two_pow_pos _)
  have hdouble := mul_pow_lt denominator hlt
  have heq : mantissa = 2 ^ 52 := by
    refine Nat.le_antisymm (Nat.le_of_not_lt fun hgt => ?_) hleast
    have hmul : (2 ^ 52 + 1) * (denominator * 2 ^ exponent) ≤ mantissa * (denominator * 2 ^ exponent) :=
      Nat.mul_le_mul_right _ hgt
    linarith
  refine ⟨heq, Nat.le_antisymm (Nat.le_of_not_lt fun hgt => ?_) hlt⟩
  have hfine := hpower heq (by omega)
  have hdouble' := mul_pow_lt denominator (show found < found + 1 by omega)
  have hfourth := mul_pow_lt denominator (show found + 1 < exponent by omega)
  rw [heq] at hfine
  linarith

/-- A quotient that rounds to a number is rounded to it. -/
theorem ofRatio_near (hcanonical : Canonical mantissa exponent) (hmantissa : 0 < mantissa)
    (hpos : 0 < denominator) (hnear : Near mantissa exponent ((numerator : ℚ) / denominator)) :
    ofRatio false numerator denominator = .finite false mantissa exponent hcanonical := by
  obtain ⟨⟨hlow, hhigh⟩, htie, hpower⟩ := near_bounds hpos hnear
  obtain ⟨hbits, -, hnormal⟩ := id hcanonical
  simp only [twoTo_eq] at hbits hnormal
  rw [ofRatio_eq]
  dsimp only at hlow hhigh htie hpower ⊢
  generalize numerator * twoTo 1074 = top at hlow hhigh htie hpower ⊢
  have hlast : 0 < denominator * 2 ^ exponent := Nat.mul_pos hpos (Nat.two_pow_pos _)
  have hne : top ≠ 0 := by
    rintro rfl
    linarith [Nat.mul_le_mul_right (denominator * 2 ^ exponent) hmantissa]
  have hbelow := exponentOf_high hne hpos
  have habove := exponentOf_low hne hpos
  generalize exponentOf top denominator = found at hbelow habove ⊢
  have hmax : mantissa * (denominator * 2 ^ exponent) ≤ (2 ^ 53 - 1) * (denominator * 2 ^ exponent) :=
    Nat.mul_le_mul_right _ (Nat.le_sub_one_of_lt hbits)
  -- a greater exponent asks for more than the largest mantissa
  have hle : found ≤ exponent := by
    by_contra hlt
    have hdouble := mul_pow_lt denominator (Nat.lt_of_not_le hlt)
    have hlarge := habove (by omega)
    nlinarith
  rcases Nat.eq_or_lt_of_le hle with rfl | hlt
  · have hround : roundQuotient top (denominator * twoTo found) = mantissa :=
      roundQuotient_eq hlow hhigh htie hlast
    rw [hround, twoTo_eq 53, if_neg (Nat.ne_of_lt hbits), ofParts, dif_pos hcanonical]
  · -- the quotient is rounded up to the least mantissa of the next exponent
    obtain ⟨rfl, rfl⟩ :=
      least_of_exponent_lt hpos (hnormal.resolve_left (by omega)) hlt hbelow hlow hpower
    have hfine := hpower rfl (Nat.succ_pos _)
    have hnext :
        denominator * 2 ^ (found + 1) = 2 * (denominator * 2 ^ found) := by rw [Nat.pow_succ]; ring
    rw [hnext] at hfine
    have hround : roundQuotient top (denominator * twoTo found) = 2 ^ 53 := by
      refine roundQuotient_eq ?_ ?_ (fun hodd => absurd hodd (by decide))
        (Nat.mul_pos hpos (Nat.two_pow_pos _))
      · rw [twoTo_eq]
        omega
      · rw [twoTo_eq]
        omega
    rw [hround, twoTo_eq 53, if_pos rfl, ofParts]
    exact dif_pos hcanonical

end JsonCompanion.Number
