/-!
# Numbers

Numbers of the 64-bit binary floating point format, as exact data.

* A finite number is `± mantissa · 2 ^ (exponent - 1074)`, and `Number.Canonical` makes the pair
  unique.
* `Number.ofRatio` rounds a quotient of naturals to the nearest number, a tie to the even mantissa.
* `Number.toInt?` tells the integers among the numbers, and `Number.below` is the order.
-/

namespace JsonCompanion

/-- A power of two. -/
def twoTo (n : Nat) : Nat := Nat.pow 2 n

theorem twoTo_pos (n : Nat) : 0 < twoTo n := Nat.pow_pos (by decide)

/-- A power of ten. -/
def tenTo (n : Nat) : Nat := Nat.pow 10 n

/-- A mantissa of at most 53 bits, of exactly 53 unless the exponent is the least one. -/
def Number.Canonical (mantissa exponent : Nat) : Prop :=
  mantissa < twoTo 53 ∧ exponent ≤ 2045 ∧ (exponent = 0 ∨ twoTo 52 ≤ mantissa)

instance (mantissa exponent : Nat) : Decidable (Number.Canonical mantissa exponent) := by
  unfold Number.Canonical; infer_instance

/-- A number in 64-bit binary floating point. -/
inductive Number
  | nan
  | infinity (negative : Bool)
  | finite (negative : Bool) (mantissa exponent : Nat)
      (canonical : Number.Canonical mantissa exponent)
  deriving DecidableEq

namespace Number

/-- Zero with a sign. -/
def zero (negative : Bool) : Number := .finite negative 0 0 (by decide)

instance : Inhabited Number := ⟨zero false⟩

/-- The number with the given parts, infinity if they are too large. -/
def ofParts (negative : Bool) (mantissa exponent : Nat) : Number :=
  if h : Canonical mantissa exponent then .finite negative mantissa exponent h
  else .infinity negative

/-- The integer nearest to a quotient, the even one of two. -/
def roundQuotient (numerator denominator : Nat) : Nat :=
  let quotient := numerator / denominator
  let rest := 2 * (numerator % denominator)
  if rest < denominator then quotient
  else if denominator < rest then quotient + 1
  else if quotient % 2 = 0 then quotient
  else quotient + 1

/-- The number nearest to `± numerator / denominator`, the one of even mantissa if two are. -/
def ofRatio (negative : Bool) (numerator denominator : Nat) : Number :=
  let top := numerator * twoTo 1074
  let low := Nat.log2 top - Nat.log2 denominator - 53
  let exponent := if top / (denominator * twoTo low) < twoTo 53 then low else low + 1
  let mantissa := roundQuotient top (denominator * twoTo exponent)
  if mantissa = twoTo 53 then ofParts negative (twoTo 52) (exponent + 1)
  else ofParts negative mantissa exponent

/-- The number nearest to a natural number. -/
def ofNat (n : Nat) : Number := ofRatio false n 1

/-- The number nearest to an integer. -/
def ofInt : Int → Number
  | .ofNat n => ofNat n
  | .negSucc n => ofRatio true (n + 1) 1

/-- The number nearest to `± digits · 10 ^ scale`. -/
def ofDecimal (negative : Bool) (digits : Nat) (scale : Int) : Number :=
  if digits = 0 then zero negative
  else
    let size : Int := (Nat.toDigits 10 digits).length + scale
    if 400 < size then .infinity negative
    else if size < -400 then zero negative
    else if 0 ≤ scale then ofRatio negative (digits * tenTo scale.toNat) 1
    else ofRatio negative digits (tenTo (-scale).toNat)

/-- Changes the sign. -/
def negate : Number → Number
  | .nan => .nan
  | .infinity negative => .infinity !negative
  | .finite negative mantissa exponent h => .finite (!negative) mantissa exponent h

/-- Zero of either sign. -/
def isZero : Number → Bool
  | .finite _ mantissa _ _ => mantissa == 0
  | _ => false

/-- Zero with a minus sign. -/
def isNegativeZero : Number → Bool
  | .finite negative mantissa _ _ => negative && mantissa == 0
  | _ => false

/-- An integer with its sign. -/
def signed (negative : Bool) (n : Nat) : Int := if negative then -(n : Int) else n

/-- The value of a finite number in units of the least one. -/
def units? : Number → Option Int
  | .finite negative mantissa exponent _ => some (signed negative (mantissa * twoTo exponent))
  | _ => none

/-- The integer that a number is. -/
def toInt? : Number → Option Int
  | .finite negative mantissa exponent _ =>
    let units := mantissa * twoTo exponent
    if units % twoTo 1074 = 0 then some (signed negative (units / twoTo 1074)) else none
  | _ => none

/-- The greatest integer that is not above a finite number. -/
def floor? (n : Number) : Option Int := n.units?.map fun units => units / twoTo 1074

/-- The order of numbers, in which `nan` has no place. -/
def below : Number → Number → Bool
  | .nan, _ => false
  | _, .nan => false
  | .infinity a, .infinity b => a && !b
  | .infinity a, .finite .. => a
  | .finite .., .infinity b => !b
  | .finite n m e _, .finite n' m' e' _ =>
    decide (signed n (m * twoTo e) < signed n' (m' * twoTo e'))

/-- The difference of a natural number and a number, rounded. -/
def differenceFrom (n : Nat) : Number → Number
  | .nan => .nan
  | .infinity negative => .infinity !negative
  | .finite negative mantissa exponent _ =>
    let units : Int := (n : Int) * twoTo 1074 - signed negative (mantissa * twoTo exponent)
    ofRatio (decide (units < 0)) units.natAbs (twoTo 1074)

end Number

end JsonCompanion
