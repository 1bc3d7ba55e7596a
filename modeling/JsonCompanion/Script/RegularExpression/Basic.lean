import JsonCompanion.Script.RegularExpression.Property

/-!
# Characters in patterns

* `Mode` says how a pattern is read.
* `character?` is the character that a pattern begins with, `characterEscape?` the one that an
  escape sequence stands for, and `classEscape?` is a class of characters behind a backslash.
-/

namespace JsonCompanion.RegularExpression

/-- How a pattern is read: its Unicode mode, whether classes are sets that may be nested, the number
of its groups and their names. -/
structure Mode where
  isUnicode : Bool
  hasSets : Bool
  groups : Nat
  names : List Text

/-- Groups may be referred to by name. -/
def Mode.hasNames (mode : Mode) : Bool := mode.isUnicode || !mode.names.isEmpty

/-- The number that digits spell, if there are digits. -/
def number? (t : Text) : Option (Nat × Text) :=
  let digits := t.takeWhile CodeUnit.isDigit
  if digits.isEmpty then none
  else some (digits.foldl (fun n u => 10 * n + (u.toNat - 48)) 0, t.dropWhile CodeUnit.isDigit)

/-! ### Escape sequences -/

/-- The value of exactly so many hexadecimal digits. -/
def hex? (count : Nat) (t : Text) : Option (Nat × Text) :=
  let digits := (t.take count).filterMap CodeUnit.digitValue?
  if digits.length = count then some (digits.foldl (fun n d => 16 * n + d) 0, t.drop count)
  else none

/-- The value of hexadecimal digits in braces, behind the opening one. -/
def braced? (t : Text) : Option (Nat × Text) :=
  let digits := t.takeWhile fun (u : CodeUnit) => u != '\x7d'
  if digits.isEmpty || digits.length = t.length then none
  else do
    let (n, _) ← hex? digits.length digits
    if n ≤ 0x10FFFF then some (n, t.drop (digits.length + 1)) else none

/-- The code point that a text begins with in a Unicode mode, else the unit. -/
def character? (mode : Mode) : Text → Option (Nat × Text)
  | [] => none
  | [u] => some (u.toNat, [])
  | u :: v :: rest =>
    if mode.isUnicode && u.isLeading && v.isTrailing then some (Text.pairValue u v, rest)
    else some (u.toNat, v :: rest)

/-- The trailing half of a pair of escapes. -/
def trailing? : Text → Option (Nat × Text)
  | u :: v :: rest =>
    if u == '\\' && v == 'u' then do
      let (n, rest) ← hex? 4 rest
      if CodeUnit.isTrailing (UInt16.ofNat n) then some (n, rest) else none
    else none
  | _ => none

/-- The value of an escape behind `u` in a Unicode mode. -/
def unicode? (t : Text) : Option (Nat × Text) :=
  match t with
  | [] => none
  | u :: us =>
    if u == '\x7b' then braced? us
    else do
      let (n, rest) ← hex? 4 t
      match trailing? rest with
      | some (m, behind) =>
        if CodeUnit.isLeading (UInt16.ofNat n) then
          some (Text.pairValue (UInt16.ofNat n) (UInt16.ofNat m), behind)
        else some (n, rest)
      | none => some (n, rest)

/-- Units that are part of the syntax of patterns. -/
def isSyntax (u : CodeUnit) : Bool := ("^$\\.*+?()[]\x7b\x7d|/" : Text).contains u

/-- A character that an escape stands for by its letter. -/
def control? (u : CodeUnit) : Option Nat :=
  if u == 'f' then some 12
  else if u == 'n' then some 10
  else if u == 'r' then some 13
  else if u == 't' then some 9
  else if u == 'v' then some 11
  else none

/-- The control character behind `c`; without Unicode mode the backslash may stand for itself. -/
def controlLetter? (mode : Mode) (inClass : Bool) (t : Text) : Option (Nat × Text) :=
  let stays : Option (Nat × Text) := if mode.isUnicode then none else some (0x5C, 'c' :: t)
  match t with
  | [] => stays
  | u :: us =>
    let isLetter := u.isSmall || u.isCapital
    let isLoose := inClass && !mode.isUnicode && u.isWord
    if isLetter || isLoose then some (u.toNat % 32, us) else stays

/-- The octal escape that a text of digits begins with. -/
def octal (t : Text) : Nat × Text :=
  let isOctal (u : CodeUnit) : Bool := u.between '0' '7'
  let limit := if t.head?.any fun (u : CodeUnit) => u.between '0' '3' then 3 else 2
  let digits := (t.take limit).takeWhile isOctal
  (digits.foldl (fun n u => 8 * n + (u.toNat - 48)) 0, t.drop digits.length)

/-- The escape of a digit. -/
def digitEscape? (mode : Mode) (u : CodeUnit) (us : Text) : Option (Nat × Text) :=
  if u == '0' && !us.head?.any CodeUnit.isDigit then some (0, us)
  else if mode.isUnicode then none
  else if u.between '0' '7' then some (octal (u :: us))
  else some (u.toNat, us)

/-- The value of an escape, unless it stands for itself. -/
def valueOrSelf (mode : Mode) (u : CodeUnit) (us : Text) (value : Option (Nat × Text)) :
    Option (Nat × Text) :=
  value.or (if mode.isUnicode then none else some (u.toNat, us))

/-- A character that stands for itself behind a backslash. -/
def selfEscape? (mode : Mode) (inClass : Bool) (u : CodeUnit) (us : Text) : Option (Nat × Text) :=
  if mode.isUnicode then
    if isSyntax u || inClass && u == '-' then some (u.toNat, us) else none
  else if u == 'k' && mode.hasNames then none
  else some (u.toNat, us)

/-- The character that an escape behind a backslash stands for. -/
def characterEscape? (mode : Mode) (inClass : Bool) : Text → Option (Nat × Text)
  | [] => none
  | u :: us =>
    match control? u with
    | some n => some (n, us)
    | none =>
      if u == 'c' then controlLetter? mode inClass us
      else if u.isDigit then digitEscape? mode u us
      else if u == 'x' then valueOrSelf mode u us (hex? 2 us)
      else if u == 'u' then
        valueOrSelf mode u us (if mode.isUnicode then unicode? us else hex? 4 us)
      else selfEscape? mode inClass u us

/-- A class of characters that an escape stands for. -/
def isClassLetter (u : CodeUnit) : Bool := ("dDsSwW" : Text).contains u

/-- A property in braces. -/
def property? : Text → Option (Property × Text)
  | [] => none
  | u :: us =>
    let name := us.takeWhile fun (w : CodeUnit) => w != '\x7d'
    if u == '\x7b' && name.length < us.length then
      (Property.ofText? name).map fun property => (property, us.drop (name.length + 1))
    else none

/-- A class of characters behind a backslash, and what it is a class of.  Sequences of characters
occur in sets only, and have no complement. -/
def classEscape? (mode : Mode) : Text → Option (Property × Text)
  | [] => none
  | u :: us =>
    if isClassLetter u then some (.ofCharacters, us)
    else if mode.isUnicode && (u == 'p' || u == 'P') then do
      let (property, rest) ← property? us
      if property = .ofSequences && (u == 'P' || !mode.hasSets) then none
      some (property, rest)
    else none

end JsonCompanion.RegularExpression
