import JsonCompanion.Number.Basic
import JsonCompanion.Text.Basic

/-!
# Decimal text of numbers

* `Number.shortest` has the fewest significant digits that round back to the number, and of those
  digits the nearest ones.
* `Number.text` writes them positionally for values from `10 ^ -6` to below `10 ^ 21`, with an
  exponent outside.
* `Number.ofText` reads a number in any spelling: decimal, hexadecimal, octal, binary.
-/

namespace JsonCompanion

namespace Number

/-- The range of values that round to a number, in quarters of its last place. -/
structure Neighbourhood where
  low : Nat
  value : Nat
  high : Nat
  closed : Bool

/-- Ends belong to the range of an even mantissa; below a power of two the places are finer. -/
def neighbourhood (mantissa exponent : Nat) : Neighbourhood where
  low := 4 * mantissa - if mantissa = twoTo 52 ∧ 0 < exponent then 1 else 2
  value := 4 * mantissa
  high := 4 * mantissa + 2
  closed := mantissa % 2 == 0

/-- The number of decimal digits. -/
def digitCount (n : Nat) : Nat := (Nat.toDigits 10 n).length

/-- The least power `j` up to a limit for which `numerator · 10 ^ j` reaches `denominator`. -/
def leadingPlaces (numerator denominator : Nat) : (limit : Nat) → Nat
  | 0 => 0
  | limit + 1 =>
    if denominator ≤ numerator then 0 else leadingPlaces (numerator * 10) denominator limit + 1

/-- The place of the decimal point relative to the first significant digit of a quotient. -/
def pointOf (numerator denominator : Nat) : Int :=
  if denominator ≤ numerator then digitCount (numerator / denominator)
  else 1 - (leadingPlaces numerator denominator 400 : Int)

/-- The neighbour on the grid of step `10 ^ scale` that rounds back to the number. -/
def gridHit? (range : Neighbourhood) (exponent : Nat) (scale : Int) : Option Nat :=
  let up := tenTo scale.toNat
  let down := tenTo (-scale).toNat
  -- A quarter place is `2 ^ exponent / 2 ^ 1076`, a grid step `up / down`.
  let quarter := twoTo exponent * down
  let step := twoTo 1076 * up
  let inside (n : Nat) : Bool :=
    let x := n * step
    if range.closed then decide (range.low * quarter ≤ x) && decide (x ≤ range.high * quarter)
    else decide (range.low * quarter < x) && decide (x < range.high * quarter)
  let below := range.value * quarter / step
  let gap := range.value * quarter - below * step
  let nearer :=
    if 2 * gap < step then below
    else if step < 2 * gap then below + 1
    else if below % 2 = 0 then below else below + 1
  match inside below, inside (below + 1) with
  | true, true => some nearer
  | true, false => some below
  | false, true => some (below + 1)
  | false, false => none

/-- Tries grids from the given number of digits on; the last resort is the value itself. -/
def firstHit (range : Neighbourhood) (exponent : Nat) (point : Int) (digits : Nat) :
    (tries : Nat) → Nat × Int
  | 0 => (range.value * twoTo exponent / twoTo 1076, 0)
  | tries + 1 =>
    match gridHit? range exponent (point - digits) with
    | some n => (n, point - digits)
    | none => firstHit range exponent point (digits + 1) tries

/-- The fewest digits that round back to a number, with their decimal scale. -/
def shortest (mantissa exponent : Nat) : Nat × Int :=
  firstHit (neighbourhood mantissa exponent) exponent
    (pointOf (mantissa * twoTo exponent) (twoTo 1074)) 1 20

/-- Drops zeros at the end of a digit string. -/
def dropZeros (digits : List Char) : List Char :=
  (digits.reverse.dropWhile (· == '0')).reverse

/-- Digits with the decimal point after the given number of places. -/
def layOut (digits : List Char) (point : Int) : List Char :=
  let count : Int := digits.length
  if count ≤ point ∧ point ≤ 21 then digits ++ List.replicate (point - count).toNat '0'
  else if 0 < point ∧ point ≤ 21 then
    digits.take point.toNat ++ '.' :: digits.drop point.toNat
  else if -6 < point ∧ point ≤ 0 then
    '0' :: '.' :: List.replicate (-point).toNat '0' ++ digits
  else
    let power := point - 1
    let sign := if power < 0 then '-' else '+'
    let fraction := if digits.length ≤ 1 then [] else '.' :: digits.drop 1
    digits.take 1 ++ fraction ++ 'e' :: sign :: Nat.toDigits 10 power.natAbs

/-- The decimal text of a number; both zeros are written alike. -/
def text : Number → Text
  | .nan => "NaN"
  | .infinity negative => if negative then "-Infinity" else "Infinity"
  | .finite negative mantissa exponent _ =>
    if mantissa = 0 then "0"
    else
      let (digits, scale) := shortest mantissa exponent
      let written := Nat.toDigits 10 digits
      let body := (layOut (dropZeros written) (written.length + scale)).map CodeUnit.ofChar
      if negative then CodeUnit.ofChar '-' :: body else body

/-- The value of digits in a base; no other unit and at least one digit. -/
def ofDigits? (base : Nat) (t : Text) : Option Nat :=
  if t.isEmpty then none
  else t.foldl (fun total u => do
    let total ← total
    let digit ← u.digitValue?
    if digit < base then some (total * base + digit) else none) (some 0)

/-- The value of decimal digits, none for none. -/
def ofOptionalDigits? (t : Text) : Option Nat := if t.isEmpty then some 0 else ofDigits? 10 t

/-- Cuts a text before the first unit that satisfies a test. -/
def cutBefore (test : CodeUnit → Bool) (t : Text) : Text × Text :=
  (t.takeWhile fun u => !test u, t.dropWhile fun u => !test u)

/-- The number of `digits[.digits][e[±]digits]` with digits before or after the point. -/
def ofUnsigned? (t : Text) (negative : Bool) : Option Number := do
  let (significand, power) := cutBefore (fun u => u == 'e' || u == 'E') t
  let (whole, rest) := cutBefore (· == '.') significand
  let fraction := rest.drop 1
  if whole.isEmpty && fraction.isEmpty then none
  let wholeValue ← ofOptionalDigits? whole
  let fractionValue ← ofOptionalDigits? fraction
  let scale : Int ← match power.drop 1 with
    | [] => if power.isEmpty then some 0 else none
    | u :: digits =>
      if u == '-' then (ofDigits? 10 digits).map fun n => -(n : Int)
      else if u == '+' then (ofDigits? 10 digits).map fun n => (n : Int)
      else (ofDigits? 10 (u :: digits)).map fun n => (n : Int)
  some (ofDecimal negative (wholeValue * tenTo fraction.length + fractionValue)
    (scale - fraction.length))

/-- Reads an optional sign and a decimal number or `Infinity`. -/
def ofSigned? (t : Text) : Option Number :=
  let (negative, body) := match t with
    | [] => (false, [])
    | u :: r => if u == '-' then (true, r) else if u == '+' then (false, r) else (false, u :: r)
  if body == ("Infinity" : Text) then some (.infinity negative) else ofUnsigned? body negative

/-- The base that a letter after a leading zero announces. -/
def baseOf? (u : CodeUnit) : Option Nat :=
  if u == 'x' || u == 'X' then some 16
  else if u == 'o' || u == 'O' then some 8
  else if u == 'b' || u == 'B' then some 2
  else none

/-- The number that a text spells, `nan` if it spells none; blanks around are ignored. -/
def ofText (t : Text) : Number :=
  match t.trim with
  | [] => zero false
  | u :: v :: digits =>
    match (if u == '0' then baseOf? v else none) with
    | some base => ((ofDigits? base digits).map ofNat).getD .nan
    | none => (ofSigned? (u :: v :: digits)).getD .nan
  | t => (ofSigned? t).getD .nan

end Number

end JsonCompanion
