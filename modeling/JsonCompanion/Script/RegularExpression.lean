import JsonCompanion.Script.RegularExpression.CharacterClass
import JsonCompanion.Script.RegularExpression.GroupName

/-!
# Patterns of regular expressions

`RegularExpression.isValid` says whether a pattern is one: every group is closed, every repetition
follows something that can be repeated, bounds and ranges are in order, and every escape sequence
has a meaning.

* A pattern is read in pieces: atoms, assertions, brackets of groups, bars and repetitions.
* In the two Unicode modes a pattern is read by code points and nothing is taken literally that
  could be part of a piece; without them it is.
-/

namespace JsonCompanion.RegularExpression

/-- A piece of a pattern.  A group says whether it can be repeated. -/
inductive Piece
  | atom
  | assertion
  | opening (isRepeatable : Bool)
  | closing
  | bar
  | repetition

/-! ### Groups -/

/-- The names of the capturing groups in order, empty for those without one; the first argument is
the depth of classes. -/
def captures (hasSets : Bool) : (depth : Nat) → Text → List Text
  | _, [] => []
  | depth, u :: us =>
    if u == '\\' then
      match us with
      | [] => []
      | _ :: rest => captures hasSets depth rest
    else if u == '[' then captures hasSets (if hasSets then depth + 1 else 1) us
    else if u == ']' then captures hasSets (depth - 1) us
    else if u == '(' && depth == 0 then
      match us with
      | q :: angle :: look :: _ =>
        if q == '?' then
          if angle == '<' && look != '=' && look != '!' then
            ((angled? (us.drop 1)).map Prod.fst).getD [] :: captures hasSets 0 us
          else captures hasSets 0 us
        else [] :: captures hasSets 0 us
      | _ => [] :: captures hasSets 0 us
    else captures hasSets depth us

/-- The opening of a group behind its bracket. -/
def opening? (mode : Mode) : Text → Option (Piece × Text)
  | [] => some (.opening true, [])
  | q :: us =>
    if q != '?' then some (.opening true, q :: us)
    else match us with
      | [] => none
      | u :: rest =>
        if u == ':' then some (.opening true, rest)
        else if u == '=' || u == '!' then some (.opening !mode.isUnicode, rest)
        else if u == '<' && rest.head?.any fun (w : CodeUnit) => w == '=' || w == '!' then
          some (.opening false, rest.tail)
        else (angled? us).map fun (_, behind) => (.opening true, behind)

/-! ### Repetitions -/

/-- The bounds of a repetition behind its brace: whether they are in order. -/
def bounds? (t : Text) : Option (Bool × Text) := do
  let (low, t) ← number? t
  let u :: us := t | none
  if u == '\x7d' then return (true, us)
  else if u != ',' then none
  else
    let v :: vs := us | none
    if v == '\x7d' then return (true, vs)
    else
      let (high, t) ← number? us
      let w :: ws := t | none
      if w == '\x7d' then return (decide (low ≤ high), ws) else none

/-- Drops the mark of a short repetition. -/
def dropLazy : Text → Text
  | [] => []
  | u :: us => if u == '?' then us else u :: us

/-! ### Patterns -/

/-- An escape behind a backslash outside of classes. -/
def escape? (mode : Mode) (t : Text) : Option (Piece × Text) :=
  match t with
  | [] => none
  | u :: us =>
    if u == 'b' || u == 'B' then some (.assertion, us)
    else match classEscape? mode t with
      | some (_, rest) => some (.atom, rest)
      | none =>
        if u == 'k' && mode.hasNames then do
          let (name, rest) ← angled? us
          if mode.names.contains name then some (.atom, rest) else none
        else if u.between '1' '9' && mode.isUnicode then do
          let (n, rest) ← number? t
          if n ≤ mode.groups then some (.atom, rest) else none
        else (characterEscape? mode false t).map fun (_, rest) => (.atom, rest)

/-- The repetition behind a brace, or the brace itself. -/
def brace? (mode : Mode) (us : Text) : Option (Piece × Text) :=
  match bounds? us with
  | some (true, rest) => some (.repetition, dropLazy rest)
  | some (false, _) => none
  | none => if mode.isUnicode then none else some (.atom, us)

/-- The first piece of a text that is not empty. -/
def piece? (mode : Mode) : Text → Option (Piece × Text)
  | [] => none
  | u :: us =>
    if u == '^' || u == '$' then some (.assertion, us)
    else if u == '|' then some (.bar, us)
    else if u == ')' then some (.closing, us)
    else if u == '(' then opening? mode us
    else if u == '*' || u == '+' || u == '?' then some (.repetition, dropLazy us)
    else if u == '\x7b' then brace? mode us
    else if u == '\x7d' || u == ']' then if mode.isUnicode then none else some (.atom, us)
    else if u == '[' then (class? mode us).map fun rest => (.atom, rest)
    else if u == '\\' then escape? mode us
    else (character? mode (u :: us)).map fun (_, rest) => (.atom, rest)

/-- The pieces of a text fit together, given whether the last piece can be repeated and the open
groups; the first argument bounds the number of pieces. -/
def fits (mode : Mode) : (bound : Nat) → (isRepeatable : Bool) → (groups : List Bool) → Text → Bool
  | 0, _, _, _ => false
  | _ + 1, _, groups, [] => groups.isEmpty
  | bound + 1, isRepeatable, groups, u :: us =>
    match piece? mode (u :: us), groups with
    | none, _ => false
    | some (.atom, rest), _ => fits mode bound true groups rest
    | some (.assertion, rest), _ | some (.bar, rest), _ => fits mode bound false groups rest
    | some (.opening group, rest), _ => fits mode bound false (group :: groups) rest
    | some (.closing, _), [] => false
    | some (.closing, rest), group :: groups => fits mode bound group groups rest
    | some (.repetition, rest), _ => isRepeatable && fits mode bound false groups rest

/-- A pattern is valid under flags. -/
def isValid (pattern flags : Text) : Bool :=
  let hasSets := flags.contains (CodeUnit.ofChar 'v')
  let groups := captures hasSets 0 pattern
  let names := groups.filter fun name => !name.isEmpty
  let mode : Mode := {
    isUnicode := hasSets || flags.contains (CodeUnit.ofChar 'u')
    hasSets
    groups := groups.length
    names }
  decide names.Nodup && fits mode (pattern.length + 1) false [] pattern

end JsonCompanion.RegularExpression
