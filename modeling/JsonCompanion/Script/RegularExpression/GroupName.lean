import JsonCompanion.Script.RegularExpression.Basic
import JsonCompanion.Text.Letter

/-!
# Names of groups

The name of a group in a pattern is an identifier, in which characters may be escaped.  It may have
letters that are too recent for the identifiers of a script.

* `recentStartRanges` and `recentPartRanges` hold those letters, marks and digits.
* `isGroupName` tells the names, and `angled?` reads one between angle brackets.
-/

namespace JsonCompanion.RegularExpression

/-- Recent code points that may begin the name of a group. -/
def recentStartRanges : Array (Nat × Nat) :=
  #[(2191, 2191), (3164, 3164), (3292, 3292), (42958, 42959), (42962, 42962), (42964, 42964),
   (42993, 42993), (67904, 67929), (69317, 69319), (73136, 73179), (93856, 93880), (93883, 93907),
   (94194, 94198), (100344, 100351), (101641, 101662), (101760, 101874), (124608, 124638),
   (124640, 124642), (124644, 124645), (124647, 124653), (124656, 124660), (124670, 124671),
   (177978, 177983), (183970, 183981), (205744, 210041)]

/-- Recent code points that may only continue the name of a group. -/
def recentPartRanges : Array (Nat × Nat) :=
  #[(6863, 6877), (6880, 6891), (69370, 69371), (72544, 72551), (73184, 73193), (124643, 124643),
   (124646, 124646), (124654, 124655), (124661, 124661)]

/-- The code point may begin the name of a group. -/
def beginsGroupName (n : Nat) : Bool :=
  Text.isIdentifierStart n || Text.inRanges recentStartRanges n

/-- The code point may continue the name of a group. -/
def continuesGroupName (n : Nat) : Bool :=
  beginsGroupName n || Text.isIdentifierPart n || Text.inRanges recentPartRanges n

/-- The code points of a name in which characters may be escaped, and the text behind the bracket
that closes it, which may be escaped as well; the first argument counts units that belong to a
character already taken. -/
def nameCodePoints? : (pending : Nat) → Text → Option (List Nat × Text)
  | _, [] => none
  | pending + 1, _ :: us => nameCodePoints? pending us
  | 0, u :: us =>
    let push (n pending : Nat) : Option (List Nat × Text) :=
      (nameCodePoints? pending us).map fun (ns, rest) => (n :: ns, rest)
    if u == '>' then some ([], us)
    else if u == '\\' then
      match us with
      | [] => none
      | v :: rest =>
        if v == 'u' then do
          let (n, behind) ← unicode? rest
          if n = 0x3E then some ([], behind) else push n (us.length - behind.length)
        else none
    else
      match us with
      | [] => none
      | v :: _ =>
        if u.isLeading && v.isTrailing then push (Text.pairValue u v) 1 else push u.toNat 0

/-- The name of a group is an identifier. -/
def isGroupName : List Nat → Bool
  | [] => false
  | n :: ns => beginsGroupName n && ns.all continuesGroupName

/-- A name between angle brackets. -/
def angled? : Text → Option (Text × Text)
  | [] => none
  | u :: us => do
    if u != '<' then none
    let (name, rest) ← nameCodePoints? 0 us
    if isGroupName name then some (name.flatMap Text.ofCodePoint, rest) else none

end JsonCompanion.RegularExpression
