import JsonCompanion.Failure
import JsonCompanion.Text.Letter

/-!
# Type references

A declared type is a text of the grammar

    union   := postfix ('|' postfix)*
    postfix := primary ('[' ']')*
    primary := NAME ('<' union (',' union)* '>')? | '(' union ')'

* `TypeRef` is what such a text means: a name with arguments, whether it may be null, and its text
  in normal form.
* `TypeRef.ofUnion` takes `null` and `undefined` out of a union; one member that is left stands for
  itself, several form the type `|`.
* `TypeRef.parse` reads a text, and fails with an unsupported type if it is not in the grammar.
-/

namespace JsonCompanion

/-- A type: its name, its arguments, whether it may be null, and its text. -/
structure TypeRef where
  name : Text
  args : List TypeRef
  nullable : Bool
  text : Text

instance : Inhabited TypeRef := ⟨⟨[], [], false, []⟩⟩

namespace TypeRef

/-- The name of a union of several types. -/
def unionName : Text := "|"

/-! ### Tokens -/

/-- A token of a type. -/
inductive Token
  | name (name : Text)
  | mark (unit : CodeUnit)

/-- The units that are tokens by themselves. -/
def isMark (u : CodeUnit) : Bool :=
  u == '<' || u == '>' || u == ',' || u == '|' || u == '(' || u == ')' || u == '[' || u == ']'

/-- The name read so far, last unit first, as a token. -/
def flush (taken : Text) : List Token := if taken.isEmpty then [] else [.name taken.reverse]

/-- The unit continues a name; a point does so before another name. -/
def continuesName (taken : Text) (u : CodeUnit) (rest : Text) : Bool :=
  !taken.isEmpty &&
  (Text.continuesPlainIdentifier u || (u == '.' && rest.head?.any Text.beginsPlainIdentifier))

/-- The tokens of a text behind a name read so far; nothing but blanks may stand between them. -/
def tokens? : (taken : Text) → Text → Option (List Token)
  | taken, [] => some (flush taken)
  | taken, u :: us =>
    if continuesName taken u us then tokens? (u :: taken) us
    else
      let rest :=
        if Text.beginsPlainIdentifier u then tokens? [u] us
        else if isMark u then (tokens? [] us).map (.mark u :: ·)
        else if u.isBlank then tokens? [] us
        else none
      rest.map (flush taken ++ ·)

/-! ### Meaning -/

/-- The type says that a value is missing. -/
def isNullish (type : TypeRef) : Bool :=
  type.name == ("null" : Text) || type.name == ("undefined" : Text)

/-- The type or null. -/
def orNull (type : TypeRef) : TypeRef :=
  if type.nullable then type
  else { type with nullable := true, text := type.text ++ " | null" }

/-- The union of some members. -/
def ofUnion (members : List TypeRef) : TypeRef :=
  let present := members.filter fun member => !member.isNullish
  let nullable := present.length != members.length
  match present with
  | [single] => if nullable then single.orNull else single
  | _ =>
    { name := unionName
      args := if present.isEmpty then members else present
      nullable
      text := Text.join " | " (members.map TypeRef.text) }

/-- An array of a type, as a suffix writes it. -/
def arrayOf (type : TypeRef) : TypeRef := ⟨"Array", [type], false, type.text ++ "[]"⟩

/-- A type without arguments. -/
def plain (name : Text) : TypeRef := ⟨name, [], false, name⟩

/-- A type with arguments. -/
def applied (name : Text) (args : List TypeRef) : TypeRef :=
  ⟨name, args, false, name ++ "<" ++ Text.join ", " (args.map TypeRef.text) ++ ">"⟩

/-! ### Grammar -/

/-- The tokens begin with a mark. -/
def begins (c : Char) : List Token → Bool
  | .mark u :: _ => u == c
  | _ => false

/-- The tokens behind a mark. -/
def behind? (c : Char) (tokens : List Token) : Option (List Token) :=
  if begins c tokens then some tokens.tail else none

/-- Array suffixes behind a type. -/
def suffixes : TypeRef → List Token → Option (TypeRef × List Token)
  | type, .mark u :: .mark v :: tokens =>
    if u == '[' then
      if v == ']' then suffixes type.arrayOf tokens else none
    else some (type, .mark u :: .mark v :: tokens)
  | type, tokens => if begins '[' tokens then none else some (type, tokens)

mutual

/-- A union; the first argument bounds the depth. -/
def union : Nat → List Token → Option (TypeRef × List Token)
  | 0, _ => none
  | depth + 1, tokens => do
    let (members, tokens) ← list '|' depth tokens
    some (ofUnion members, tokens)

/-- Postfix types with a bar between neighbours, or unions with a comma. -/
def list : Char → Nat → List Token → Option (List TypeRef × List Token)
  | _, 0, _ => none
  | separator, depth + 1, tokens => do
    let (first, tokens) ← if separator = '|' then postfixed depth tokens else union depth tokens
    match behind? separator tokens with
    | some tokens => do
      let (members, tokens) ← list separator depth tokens
      some (first :: members, tokens)
    | none => some ([first], tokens)

/-- A primary type with array suffixes. -/
def postfixed : Nat → List Token → Option (TypeRef × List Token)
  | 0, _ => none
  | depth + 1, tokens => do
    let (type, tokens) ← primary depth tokens
    suffixes type tokens

/-- A name with or without arguments, or a union between parentheses. -/
def primary : Nat → List Token → Option (TypeRef × List Token)
  | 0, _ => none
  | depth + 1, tokens =>
    match tokens with
    | .name name :: tokens =>
      match behind? '<' tokens with
      | some tokens => do
        let (args, tokens) ← list ',' depth tokens
        some (applied name args, ← behind? '>' tokens)
      | none => some (plain name, tokens)
    | _ => do
      let (type, tokens) ← union depth (← behind? '(' tokens)
      some (type, ← behind? ')' tokens)

end

/-- The type that all of some tokens form.  Every token needs at most four levels. -/
def ofTokens? (tokens : List Token) : Option TypeRef :=
  match union (4 * tokens.length + 4) tokens with
  | some (type, []) => some type
  | _ => none

/-- Reads the declared type of an element. -/
def parse (text element : Text) : Attempt TypeRef :=
  match (tokens? [] text).bind ofTokens? with
  | some type => .ok type
  | none => .error (.unsupportedType text element)

end TypeRef

end JsonCompanion
