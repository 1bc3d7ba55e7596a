/-!
# Text

A text is the list of its UTF-16 code units: lengths, offsets and cuts count units, and a cut may
leave one half of a surrogate pair behind.

* `Text.ofString` gives the units of a string, so a string literal may stand for a text.
* `Text.codePoints` pairs surrogates again and keeps a lone one as it is.
* `Text.trim` removes blanks at both ends; `CodeUnit.isBlank` says what a blank is.
-/

namespace JsonCompanion

/-- One unit of the UTF-16 form of a text. -/
abbrev CodeUnit := UInt16

/-- A text as its UTF-16 code units. -/
abbrev Text := List CodeUnit

namespace CodeUnit

/-- The unit of a character of the basic plane. -/
def ofChar (c : Char) : CodeUnit := UInt16.ofNat c.toNat

instance : Coe Char CodeUnit := ⟨ofChar⟩

/-- The unit lies between two characters, both included. -/
def between (low high : Char) (u : CodeUnit) : Bool :=
  decide (low.toNat ≤ u.toNat) && decide (u.toNat ≤ high.toNat)

/-- An ASCII decimal digit. -/
def isDigit (u : CodeUnit) : Bool := u.between '0' '9'

/-- An ASCII capital letter. -/
def isCapital (u : CodeUnit) : Bool := u.between 'A' 'Z'

/-- An ASCII small letter. -/
def isSmall (u : CodeUnit) : Bool := u.between 'a' 'z'

/-- An ASCII letter, digit or underscore. -/
def isWord (u : CodeUnit) : Bool := u.isSmall || u.isCapital || u.isDigit || u == '_'

/-- The first half of a surrogate pair. -/
def isLeading (u : CodeUnit) : Bool := decide (0xD800 ≤ u.toNat) && decide (u.toNat < 0xDC00)

/-- The second half of a surrogate pair. -/
def isTrailing (u : CodeUnit) : Bool := decide (0xDC00 ≤ u.toNat) && decide (u.toNat < 0xE000)

/-- Line feed, carriage return and the two Unicode separators end a line. -/
def isLineEnd (u : CodeUnit) : Bool :=
  u == 0x0A || u == 0x0D || u == 0x2028 || u == 0x2029

/-- Blanks are the ASCII controls from tab to carriage return, the space separators of Unicode,
its line and paragraph separators and the byte order mark. -/
def isBlank (u : CodeUnit) : Bool :=
  (decide (0x09 ≤ u.toNat) && decide (u.toNat ≤ 0x0D)) || u == 0x20 || u == 0xA0 || u == 0x1680 ||
  (decide (0x2000 ≤ u.toNat) && decide (u.toNat ≤ 0x200A)) || u == 0x2028 || u == 0x2029 ||
  u == 0x202F || u == 0x205F || u == 0x3000 || u == 0xFEFF

/-- The small form of an ASCII capital; any other unit is kept. -/
def toSmall (u : CodeUnit) : CodeUnit := if u.isCapital then u + 32 else u

/-- The value of a digit in a base up to sixteen. -/
def digitValue? (u : CodeUnit) : Option Nat :=
  if u.isDigit then some (u.toNat - 48)
  else if u.between 'a' 'f' then some (u.toNat - 87)
  else if u.between 'A' 'F' then some (u.toNat - 55)
  else none

end CodeUnit

namespace Text

/-- The one or two units of a code point. -/
def ofCodePoint (n : Nat) : Text :=
  if n < 0x10000 then [UInt16.ofNat n]
  else
    let m := n - 0x10000
    [UInt16.ofNat (0xD800 + m / 0x400), UInt16.ofNat (0xDC00 + m % 0x400)]

/-- The units of a string. -/
def ofString (s : String) : Text := s.toList.flatMap fun c => ofCodePoint c.toNat

instance : Coe String Text := ⟨ofString⟩

/-- The code point of a surrogate pair. -/
def pairValue (leading trailing : CodeUnit) : Nat :=
  0x10000 + (leading.toNat - 0xD800) * 0x400 + (trailing.toNat - 0xDC00)

/-- The code points of a text; a surrogate without partner counts as itself. -/
def codePoints : Text → List Nat
  | [] => []
  | [u] => [u.toNat]
  | u :: v :: r =>
    if u.isLeading && v.isTrailing then pairValue u v :: codePoints r
    else u.toNat :: codePoints (v :: r)

/-- Every surrogate of the text belongs to a pair. -/
def isWellFormed (t : Text) : Bool :=
  t.codePoints.all fun n => decide (n < 0xD800) || decide (0xE000 ≤ n)

/-- The decimal digits of a natural number. -/
def ofNat (n : Nat) : Text := (Nat.toDigits 10 n).map CodeUnit.ofChar

/-- The decimal form of an integer. -/
def ofInt : Int → Text
  | .ofNat n => ofNat n
  | .negSucc n => CodeUnit.ofChar '-' :: ofNat (n + 1)

/-- The part from one offset up to another. -/
def slice (t : Text) (start stop : Nat) : Text := (t.drop start).take (stop - start)

/-- Removes blanks in front. -/
def trimStart (t : Text) : Text := t.dropWhile CodeUnit.isBlank

/-- Removes blanks behind. -/
def trimEnd (t : Text) : Text := (trimStart t.reverse).reverse

/-- Removes blanks at both ends. -/
def trim (t : Text) : Text := trimEnd (trimStart t)

/-- Some text holds no unit but blanks. -/
def isBlank (t : Text) : Bool := t.all CodeUnit.isBlank

/-- What follows a given beginning. -/
def dropBeginning? : (beginning : Text) → Text → Option Text
  | [], t => some t
  | _ :: _, [] => none
  | b :: bs, u :: us => if b == u then dropBeginning? bs us else none

/-- The text begins with the given one. -/
def beginsWith (t beginning : Text) : Bool := (dropBeginning? beginning t).isSome

/-- The parts between the places where a unit stands. -/
def splitOn (separator : CodeUnit) : Text → List Text
  | [] => [[]]
  | u :: us =>
    match splitOn separator us with
    | [] => [[u]]
    | part :: parts => if u == separator then [] :: part :: parts else (u :: part) :: parts

/-- The parts in order with a separator between neighbours. -/
def join (separator : Text) : List Text → Text
  | [] => []
  | [part] => part
  | part :: next :: parts => part ++ separator ++ join separator (next :: parts)

/-- Puts a text in place of each occurrence of a unit. -/
def replace (t : Text) (wanted : CodeUnit) (replacement : Text) : Text :=
  t.flatMap fun u => if u == wanted then replacement else [u]

/-- Comparison by code units, a beginning before its continuations. -/
def precedes : Text → Text → Bool
  | [], _ => true
  | _ :: _, [] => false
  | u :: us, v :: vs => if u == v then precedes us vs else decide (u.toNat < v.toNat)

/-- The text between double quotes, as messages name things. -/
def quoted (t : Text) : Text := "\"" ++ t ++ "\""

end Text

end JsonCompanion
