import JsonCompanion.Script.RegularExpression.Basic

/-!
# Classes of characters

What stands between the brackets of a class.

* `classEnd?` passes the items of a plain class: characters, ranges in order, and escapes.
* `setEnd?` passes a set: a union, an intersection or a difference of operands, which may be sets
  themselves.  A complement holds single characters only.
* `class?` takes the one or the other.
-/

namespace JsonCompanion.RegularExpression

/-! ### Plain classes -/

/-- An item of a class: a character, or a class in the place of one. -/
def classItem? (mode : Mode) (t : Text) : Option (Option Nat × Text) :=
  match t with
  | [] => none
  | u :: us =>
    if u == '\\' then
      match us, classEscape? mode us with
      | _, some (_, rest) => some (none, rest)
      | v :: rest, none =>
        if v == 'b' then some (some 8, rest)
        else (characterEscape? mode true us).map fun (n, rest) => (some n, rest)
      | [], none => none
    else (character? mode t).map fun (n, rest) => (some n, rest)

/-- A range may go from one item to another. -/
def isRange (mode : Mode) : Option Nat → Option Nat → Bool
  | some low, some high => decide (low ≤ high)
  | _, _ => !mode.isUnicode

/-- The end of a range behind its dash, none if the dash is the last item. -/
def rangeEnd? (t : Text) : Option Text :=
  match t with
  | dash :: u :: rest => if dash == '-' && u != ']' then some (u :: rest) else none
  | _ => none

/-- The text behind a class; the first argument bounds the number of its items. -/
def classEnd? (mode : Mode) : (bound : Nat) → Text → Option Text
  | 0, _ => none
  | _, [] => none
  | bound + 1, u :: us =>
    if u == ']' then some us
    else do
      let (low, rest) ← classItem? mode (u :: us)
      match rangeEnd? rest with
      | none => classEnd? mode bound rest
      | some rest => do
        let (high, rest) ← classItem? mode rest
        if isRange mode low high then classEnd? mode bound rest else none

/-! ### Sets -/

/-- Two units in a row that sets keep for later use. -/
def isReservedPair (u v : CodeUnit) : Bool :=
  u == v && ("&!#$%*+,.:;<=>?@^\x60~" : Text).contains u

/-- Units that a set takes only behind a backslash. -/
def isSetSyntax (u : CodeUnit) : Bool := ("()[]\x7b\x7d/-\\|" : Text).contains u

/-- A character of a set, perhaps behind a backslash. -/
def setCharacter? (mode : Mode) : Text → Option (Nat × Text)
  | [] => none
  | u :: us =>
    if u == '\\' then
      match us with
      | [] => none
      | v :: rest =>
        if v == 'b' then some (8, rest)
        else if ("&-!#%,:;<=>@\x60~" : Text).contains v then some (v.toNat, rest)
        else characterEscape? mode false us
    else if isSetSyntax u || us.head?.any (isReservedPair u) then none
    else character? mode (u :: us)

/-- The text behind alternative sequences in braces, given the length of the one at hand, and
whether there is one of another length than one; the first argument bounds the number of
characters. -/
def sequencesEnd? (mode : Mode) : (bound length : Nat) → (hasSequences : Bool) → Text →
    Option (Bool × Text)
  | 0, _, _, _ => none
  | _, _, _, [] => none
  | bound + 1, length, hasSequences, u :: us =>
    if u == '\x7d' then some (hasSequences || length != 1, us)
    else if u == '|' then sequencesEnd? mode bound 0 (hasSequences || length != 1) us
    else do
      let (_, rest) ← setCharacter? mode (u :: us)
      sequencesEnd? mode bound (length + 1) hasSequences rest

/-- An operand of a set: a character or something else, which may hold sequences of characters, and
the text behind it. -/
structure SetOperand where
  character : Option Nat
  hasSequences : Bool
  rest : Text

/-- An operand of a set; the argument passes a set behind its bracket. -/
def setOperand? (mode : Mode) (nested : Text → Option (Bool × Text)) (t : Text) :
    Option SetOperand :=
  match t with
  | [] => none
  | u :: us =>
    if u == '[' then (nested us).map fun (hasSequences, rest) => ⟨none, hasSequences, rest⟩
    else
      let escaped : Text := if u == '\\' then us else []
      match classEscape? mode escaped, Text.dropBeginning? "q\x7b" escaped with
      | some (property, rest), _ => some ⟨none, property == .ofSequences, rest⟩
      | none, some sequences =>
        (sequencesEnd? mode (sequences.length + 1) 0 false sequences).map
          fun (hasSequences, rest) => ⟨none, hasSequences, rest⟩
      | none, none => (setCharacter? mode t).map fun (n, rest) => ⟨some n, false, rest⟩

/-- The text behind an operand that may be the beginning of a range. -/
def unionItem? (mode : Mode) (first : SetOperand) : Option Text :=
  match first.rest with
  | [] => none
  | dash :: rest =>
    if dash == '-' then
      match first.character, setCharacter? mode rest with
      | some low, some (high, behind) => if low ≤ high then some behind else none
      | _, _ => none
    else some first.rest

/-- The text behind a union; the first argument bounds the number of operands. -/
def unionEnd? (mode : Mode) (operand : Text → Option SetOperand) : (bound : Nat) →
    (hasSequences : Bool) → Text → Option (Bool × Text)
  | 0, _, _ => none
  | _, _, [] => none
  | bound + 1, hasSequences, u :: us =>
    if u == ']' then some (hasSequences, us)
    else do
      let first ← operand (u :: us)
      unionEnd? mode operand bound (hasSequences || first.hasSequences) (← unionItem? mode first)

/-- The text behind operands with a doubled sign between them; an intersection holds sequences if
all its operands do, a difference if its first one does. -/
def chainEnd? (operand : Text → Option SetOperand) (sign : CodeUnit) : (bound : Nat) →
    (hasSequences : Bool) → Text → Option (Bool × Text)
  | 0, _, _ => none
  | bound + 1, hasSequences, t =>
    match t with
    | u :: v :: rest =>
      if u == ']' then some (hasSequences, v :: rest)
      else if u == sign && v == sign && rest.head? != some sign then do
        let next ← operand rest
        chainEnd? operand sign bound (hasSequences && (sign == '-' || next.hasSequences)) next.rest
      else none
    | [u] => if u == ']' then some (hasSequences, []) else none
    | [] => none

/-- The text behind a set, given that behind its bracket, and whether the set may hold sequences of
characters; the first argument bounds how deep sets are nested. -/
def setEnd? (mode : Mode) : (bound : Nat) → Text → Option (Bool × Text)
  | 0, _ => none
  | bound + 1, t => do
    let isComplement := t.head? == some (CodeUnit.ofChar '^')
    let items := if isComplement then t.drop 1 else t
    let operand := setOperand? mode (setEnd? mode bound)
    let limit := items.length + 1
    let (hasSequences, rest) ←
      match operand items with
      | none => unionEnd? mode operand limit false items
      | some first =>
        if first.rest.beginsWith "&&" then chainEnd? operand '&' limit first.hasSequences first.rest
        else if first.rest.beginsWith "--" then
          chainEnd? operand '-' limit first.hasSequences first.rest
        else unionEnd? mode operand limit false items
    if isComplement && hasSequences then none
    some (hasSequences && !isComplement, rest)

/-! ### Either -/

/-- The text behind a class, given that behind its bracket. -/
def class? (mode : Mode) (t : Text) : Option Text :=
  if mode.hasSets then (setEnd? mode (t.length + 1) t).map Prod.snd
  else classEnd? mode (t.length + 1) (if t.head? == some (CodeUnit.ofChar '^') then t.drop 1 else t)

end JsonCompanion.RegularExpression
