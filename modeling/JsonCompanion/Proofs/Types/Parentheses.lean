import JsonCompanion.Proofs.Types.Rereading

/-!
# Another pair of parentheses in a type

* `TypeExpr.Place` is where a union may stand in a type, `TypeExpr.Member.Place` is where a member
  of a union may.
* `TypeExpr.Place.type_fill` and `TypeExpr.Place.args_fill_ne`: unions of one type stand for the
  same type at any place, and those with other arguments for another one.
* `TypeRef.parse_parenthesized`: parentheses around the whole type, around an argument, or around
  what stands between parentheses make no difference.  Around a member they make none either, unless
  it is `null` or `undefined` beside other members: such a member no longer makes the union
  nullable.
-/

namespace JsonCompanion

open TypeRef

namespace TypeExpr

/-! ### Unions and arguments from their parts -/

/-- The union of a member and those behind it. -/
def ofMember : Member → List Member → TypeExpr
  | member, [] => .single member
  | member, next :: rest => .union member (ofMember next rest)

/-- The union of a member and those in front of it and behind it. -/
def between (before : List Member) (member : Member) (after : List Member) : TypeExpr :=
  before.foldr .union (ofMember member after)

/-- An argument and those behind it. -/
def Arguments.ofArgument : TypeExpr → List TypeExpr → Arguments
  | argument, [] => .single argument
  | argument, next :: rest => .more argument (ofArgument next rest)

/-- An argument and those in front of it and behind it. -/
def Arguments.between (before : List TypeExpr) (argument : TypeExpr) (after : List TypeExpr) :
    Arguments :=
  before.foldr .more (ofArgument argument after)

private theorem tokens_ofMember (member : Member) (after : List Member) :
    (ofMember member after).tokens = member.tokens ++ after.flatMap fun other =>
      .mark '|' :: other.tokens := by
  induction after generalizing member with
  | nil => rw [ofMember, tokens, List.flatMap_nil, List.append_nil]
  | cons next rest ih => rw [ofMember, tokens, ih next, List.flatMap_cons, List.cons_append]

theorem tokens_between (before : List Member) (member : Member) (after : List Member) :
    (between before member after).tokens =
      before.flatMap (fun other => other.tokens ++ [.mark '|']) ++
        (member.tokens ++ after.flatMap fun other => .mark '|' :: other.tokens) := by
  rw [between, ← tokens_ofMember]
  induction before with
  | nil => rfl
  | cons first before ih =>
    rw [List.foldr_cons, tokens, ih, List.flatMap_cons, List.append_assoc, List.append_assoc,
      List.singleton_append]

private theorem members_ofMember (member : Member) (after : List Member) :
    (ofMember member after).members = member :: after := by
  induction after generalizing member with
  | nil => rw [ofMember, members]
  | cons next rest ih => rw [ofMember, members, ih next]

theorem members_between (before : List Member) (member : Member) (after : List Member) :
    (between before member after).members = before ++ member :: after := by
  rw [between, ← members_ofMember]
  induction before with
  | nil => rfl
  | cons first before ih => rw [List.foldr_cons, members, ih, List.cons_append]

theorem type_between (before : List Member) (member : Member) (after : List Member) :
    (between before member after).type =
      ofUnion (before.map Member.type ++ member.type :: after.map Member.type) := by
  rw [TypeExpr.type, memberTypes_eq, members_between, List.map_append, List.map_cons]

private theorem Arguments.tokens_ofArgument (argument : TypeExpr) (after : List TypeExpr) :
    (ofArgument argument after).tokens = argument.tokens ++ after.flatMap fun other =>
      .mark ',' :: other.tokens := by
  induction after generalizing argument with
  | nil => rw [ofArgument, Arguments.tokens, List.flatMap_nil, List.append_nil]
  | cons next rest ih => rw [ofArgument, Arguments.tokens, ih next, List.flatMap_cons, List.cons_append]

theorem Arguments.tokens_between (before : List TypeExpr) (argument : TypeExpr) (after : List TypeExpr) :
    (Arguments.between before argument after).tokens =
      before.flatMap (fun other => other.tokens ++ [.mark ',']) ++
        (argument.tokens ++ after.flatMap fun other => .mark ',' :: other.tokens) := by
  rw [Arguments.between, ← tokens_ofArgument]
  induction before with
  | nil => rfl
  | cons first before ih =>
    rw [List.foldr_cons, Arguments.tokens, ih, List.flatMap_cons, List.append_assoc, List.append_assoc,
      List.singleton_append]

private theorem Arguments.types_ofArgument (argument : TypeExpr) (after : List TypeExpr) :
    (ofArgument argument after).types = argument.type :: after.map TypeExpr.type := by
  induction after generalizing argument with
  | nil =>
    rw [ofArgument, Arguments.types]
    rfl
  | cons next rest ih =>
    rw [ofArgument, Arguments.types, ih next]
    rfl

theorem Arguments.types_between (before : List TypeExpr) (argument : TypeExpr) (after : List TypeExpr) :
    (Arguments.between before argument after).types =
      before.map TypeExpr.type ++ argument.type :: after.map TypeExpr.type := by
  rw [Arguments.between, ← types_ofArgument]
  induction before with
  | nil => rfl
  | cons first before ih =>
    rw [List.foldr_cons, Arguments.types, ih]
    rfl

/-! ### Places -/

mutual

/-- A place of a union: the whole type, between parentheses, or among the arguments of a name. -/
inductive Place
  | whole
  | group (outer : Member.Place)
  | argument (label : Text) (before after : List TypeExpr) (outer : Member.Place)

/-- A place of a member: in front of an array suffix, or among the members of a union. -/
inductive Member.Place
  | element (outer : Member.Place)
  | among (before after : List Member) (outer : Place)

end

mutual

/-- The type with a union at a place. -/
def Place.fill : Place → TypeExpr → TypeExpr
  | .whole, inner => inner
  | .group outer, inner => outer.fill (.plain (.group inner))
  | .argument label before after outer, inner =>
      outer.fill (.plain (.applied label (.between before inner after)))

/-- The type with a member at a place. -/
def Member.Place.fill : Member.Place → Member → TypeExpr
  | .element outer, member => outer.fill (.array member)
  | .among before after outer, member => outer.fill (.between before member after)

end

mutual

/-- The tokens in front of a place. -/
def Place.front : Place → List Token
  | .whole => []
  | .group outer => outer.front ++ [.mark '(']
  | .argument label before _ outer =>
    outer.front ++ .name label :: .mark '<' :: before.flatMap fun other => other.tokens ++ [.mark ',']

@[inherit_doc Place.front]
def Member.Place.front : Member.Place → List Token
  | .element outer => outer.front
  | .among before _ outer => outer.front ++ before.flatMap fun other => other.tokens ++ [.mark '|']

end

mutual

/-- The tokens behind a place. -/
def Place.back : Place → List Token
  | .whole => []
  | .group outer => .mark ')' :: outer.back
  | .argument _ _ after outer =>
      after.flatMap (fun other => .mark ',' :: other.tokens) ++ .mark '>' :: outer.back

@[inherit_doc Place.back]
def Member.Place.back : Member.Place → List Token
  | .element outer => .mark '[' :: .mark ']' :: outer.back
  | .among _ after outer => after.flatMap (fun other => .mark '|' :: other.tokens) ++ outer.back

end

mutual

/-- The place is inside of an argument of `null` or `undefined`. -/
def Place.isInsideNull : Place → Bool
  | .whole => false
  | .group outer => outer.isInsideNull
  | .argument label _ _ outer => (TypeRef.plain label).isNullish || outer.isInsideNull

@[inherit_doc Place.isInsideNull]
def Member.Place.isInsideNull : Member.Place → Bool
  | .element outer => outer.isInsideNull
  | .among _ _ outer => outer.isInsideNull

end

/-- The place is that of the only member of a union. -/
def Member.Place.isAlone : Member.Place → Bool
  | .among [] [] _ => true
  | _ => false

mutual

theorem Place.tokens_fill : ∀ (place : Place) (inner : TypeExpr),
    (place.fill inner).tokens = place.front ++ (inner.tokens ++ place.back)
  | .whole, inner => by rw [Place.fill, Place.front, Place.back, List.nil_append, List.append_nil]
  | .group outer, inner => by
    rw [Place.fill, outer.tokens_fill, Member.tokens, Primary.tokens, Place.front, Place.back]
    simp only [List.append_assoc, List.cons_append, List.nil_append]
  | .argument label before after outer, inner => by
    rw [Place.fill, outer.tokens_fill, Member.tokens, Primary.tokens, Arguments.tokens_between,
      Place.front, Place.back]
    simp only [List.append_assoc, List.cons_append, List.nil_append]

theorem Member.Place.tokens_fill : ∀ (place : Member.Place) (member : Member),
    (place.fill member).tokens = place.front ++ (member.tokens ++ place.back)
  | .element outer, member => by
    rw [Member.Place.fill, outer.tokens_fill, Member.tokens, Member.Place.front, Member.Place.back]
    simp only [List.append_assoc, List.cons_append, List.nil_append]
  | .among before after outer, member => by
    rw [Member.Place.fill, outer.tokens_fill, TypeExpr.tokens_between, Member.Place.front,
      Member.Place.back]
    simp only [List.append_assoc]

end

mutual

/-- Unions of one type stand for the same type at any place. -/
theorem Place.type_fill : ∀ (place : Place) {inner other : TypeExpr}, inner.type = other.type →
    (place.fill inner).type = (place.fill other).type
  | .whole, inner, other, h => by rwa [Place.fill, Place.fill]
  | .group outer, inner, other, h => by
    rw [Place.fill, Place.fill]
    refine outer.type_fill ?_
    rw [Member.type, Member.type, Primary.type, Primary.type]
    exact h
  | .argument label before after outer, inner, other, h => by
    rw [Place.fill, Place.fill]
    refine outer.type_fill ?_
    rw [Member.type, Member.type, Primary.type, Primary.type, Arguments.types_between,
      Arguments.types_between, h]

/-- Members of one type stand for the same type at any place. -/
theorem Member.Place.type_fill :
    ∀ (place : Member.Place) {member other : Member}, member.type = other.type →
    (place.fill member).type = (place.fill other).type
  | .element outer, member, other, h => by
    rw [Member.Place.fill, Member.Place.fill]
    refine outer.type_fill ?_
    rw [Member.type, Member.type, h]
  | .among before after outer, member, other, h => by
    rw [Member.Place.fill, Member.Place.fill]
    refine outer.type_fill ?_
    rw [type_between, type_between, h]

end

end TypeExpr

namespace TypeRef

open TypeExpr

/-! ### Members of a union -/

private theorem present_between {type : TypeRef} (h : type.isNullish = false)
    (front behind : List TypeRef) :
    present (front ++ type :: behind) = present front ++ type :: present behind := by
  rw [present, List.filter_append, List.filter_cons_of_pos (by simp [h])]
  rfl

private theorem present_between_missing {type : TypeRef} (h : type.isNullish = true)
    (front behind : List TypeRef) :
    present (front ++ type :: behind) = present front ++ present behind := by
  rw [present, List.filter_append, List.filter_cons_of_neg (by simp [h])]
  rfl

private theorem args_ofUnion_of_one {types : List TypeRef} {only : TypeRef}
    (h : present types = [only]) :
    (ofUnion types).args = only.args := by
  rw [ofUnion_of_present h]
  split
  · rfl
  · rw [orNull]
    split <;> rfl

private theorem args_ofUnion_of_none {types : List TypeRef} (h : present types = []) :
    (ofUnion types).args = types := by
  rw [ofUnion_of_several (by simp [h]), h]
  rfl

private theorem args_ofUnion_of_several {types : List TypeRef} (h : 1 < (present types).length) :
    (ofUnion types).args = present types := by
  have hseveral : ∀ only, present types ≠ [only] := by
    intro only heq
    rw [heq] at h
    exact absurd h (by simp)
  have hsome : (present types).isEmpty = false := by
    rw [List.isEmpty_eq_false_iff]
    exact List.ne_nil_of_length_pos (Nat.zero_lt_of_lt h)
  rw [ofUnion_of_several hseveral, hsome]
  rfl

/-- The arguments of a union with one more member: those of this member if no other one is left. -/
private theorem args_ofUnion_between {type : TypeRef} (h : type.isNullish = false)
    (front behind : List TypeRef) :
    (ofUnion (front ++ type :: behind)).args =
      if present front ++ present behind = [] then type.args else present front ++ type ::
        present behind := by
  have hpresent := present_between h front behind
  split
  · next hnone =>
    obtain ⟨hfront, hbehind⟩ := List.append_eq_nil_iff.mp hnone
    rw [hfront, hbehind, List.nil_append] at hpresent
    exact args_ofUnion_of_one hpresent
  · next hsome =>
    have hpos := List.length_pos_iff.mpr hsome
    rw [List.length_append] at hpos
    refine (args_ofUnion_of_several ?_).trans hpresent
    rw [hpresent, List.length_append, List.length_cons]
    omega

/-- Unions are different if members at the same place have different arguments. -/
private theorem args_ofUnion_ne {type other : TypeRef} (htype : type.isNullish = false)
    (hother : other.isNullish = false) (h : type.args ≠ other.args) (front behind : List TypeRef) :
    (ofUnion (front ++ type :: behind)).args ≠ (ofUnion (front ++ other :: behind)).args := by
  rw [args_ofUnion_between htype, args_ofUnion_between hother]
  split
  · exact h
  · exact fun heq => h (congrArg args (List.cons.inj (List.append_cancel_left heq)).1)

/-- A union is another one if `null` or `undefined` is between parentheses beside other members. -/
private theorem args_ofUnion_grouped_ne {type : TypeRef} (hnull : type.isNullish = true)
    {front behind : List TypeRef} (hothers : front ++ behind ≠ []) :
    (ofUnion (front ++ type :: behind)).args ≠ (ofUnion (front ++ ofUnion [type] :: behind)).args := by
  have hpresent := present_between_missing hnull front behind
  rw [args_ofUnion_between (isNullish_ofUnion [type])]
  intro heq
  have hlength := congrArg List.length heq
  rcases hrest : present front ++ present behind with _ | ⟨only, _ | ⟨next, more⟩⟩
  · -- all members are arguments, or else the one between parentheses is the union
    have hpos := List.length_pos_iff.mpr hothers
    rw [if_pos hrest, args_ofUnion_of_none (hpresent.trans hrest), ofUnion_single, if_pos hnull,
      List.length_append, List.length_cons, List.length_singleton] at hlength
    rw [List.length_append] at hpos
    omega
  · -- the only one that is left would be an argument of itself
    have hmem : only ∈ present front ++ present behind := hrest ▸ List.mem_singleton.mpr rfl
    rw [if_neg (by simp [hrest]), args_ofUnion_of_one (hpresent.trans hrest)] at heq
    have harg : only ∈ only.args := by
      rw [heq]
      exact List.mem_append.mpr ((List.mem_append.mp hmem).imp_right (List.mem_cons_of_mem _))
    exact Nat.lt_irrefl _ (sizeOf_lt_of_mem_args harg)
  · -- the one between parentheses is one more member
    have hseveral : 1 < (present (front ++ type :: behind)).length := by
      rw [hpresent, hrest, List.length_cons, List.length_cons]
      omega
    rw [if_neg (by simp [hrest]), args_ofUnion_of_several hseveral, hpresent, List.length_append,
      List.length_append, List.length_cons] at hlength
    omega

/-- A union may be null exactly if `null` or `undefined` is one of its members, or if the only other
one may be null. -/
theorem nullable_ofUnion (types : List TypeRef) : (ofUnion types).nullable = true ↔
    (∃ type ∈ types, type.isNullish = true) ∨ ∃ only, present types = [only] ∧ only.nullable = true := by
  have hmissing : (present types).length ≠ types.length ↔ ∃ type ∈ types, type.isNullish = true := by
    rw [present, ne_eq, List.length_filter_eq_length_iff]
    simp
  by_cases hone : ∃ only, present types = [only]
  · obtain ⟨only, hpresent⟩ := hone
    rw [← hmissing, hpresent, List.length_singleton, ofUnion_of_present hpresent]
    by_cases hlength : types.length = 1
    · simp [hlength]
    · rw [if_neg hlength]
      exact iff_of_true (nullable_orNull only) (.inl (Ne.symm hlength))
  · have hseveral := not_exists.mp hone
    rw [ofUnion_of_several hseveral, ← hmissing]
    simp [hseveral]

end TypeRef

namespace TypeExpr

/-! ### Parentheses around a part -/

/-- A union between parentheses. -/
def grouped (expression : TypeExpr) : TypeExpr := .single (.plain (.group expression))

/-- A member between parentheses. -/
def Member.grouped (member : Member) : Member := .plain (.group (.single member))

theorem type_grouped (expression : TypeExpr) : expression.grouped.type = expression.type := by
  rw [grouped, TypeExpr.type, memberTypes, Member.type, Primary.type, ofUnion_single, isNullish_ofUnion]
  rfl

theorem Member.type_grouped (member : Member) : member.grouped.type = ofUnion [member.type] := by
  rw [Member.grouped, Member.type, Primary.type, memberTypes]

mutual

/-- Unions with different arguments stand for different types at a place that is not inside of `null`. -/
theorem Place.args_fill_ne : ∀ (place : Place) {inner other : TypeExpr}, place.isInsideNull = false →
    inner.type.args ≠ other.type.args → (place.fill inner).type.args ≠ (place.fill other).type.args
  | .whole, inner, other, _, h => by rwa [Place.fill, Place.fill]
  | .group outer, inner, other, hplace, h => by
    rw [Place.isInsideNull] at hplace
    rw [Place.fill, Place.fill]
    refine outer.args_fill_ne hplace ?_ ?_ ?_
    · exact isNullish_ofUnion inner.memberTypes
    · exact isNullish_ofUnion other.memberTypes
    · rw [Member.type, Member.type, Primary.type, Primary.type]
      exact h
  | .argument label before after outer, inner, other, hplace, h => by
    rw [Place.isInsideNull, Bool.or_eq_false_iff] at hplace
    rw [Place.fill, Place.fill]
    refine outer.args_fill_ne hplace.2 hplace.1 hplace.1 ?_
    rw [Member.type, Member.type, Primary.type, Primary.type, Arguments.types_between,
      Arguments.types_between]
    intro heq
    exact h (congrArg TypeRef.args (List.cons.inj (List.append_cancel_left heq)).1)

/-- Members with different arguments stand for different types at a place that is not inside of
`null`, unless they are `null` or `undefined`. -/
theorem Member.Place.args_fill_ne :
    ∀ (place : Member.Place) {member other : Member}, place.isInsideNull = false →
    member.type.isNullish = false → other.type.isNullish = false → member.type.args ≠ other.type.args →
      (place.fill member).type.args ≠ (place.fill other).type.args
  | .element outer, member, other, hplace, _, _, h => by
    rw [Member.Place.isInsideNull] at hplace
    rw [Member.Place.fill, Member.Place.fill]
    refine outer.args_fill_ne hplace ?_ ?_ ?_
    · rw [Member.type]
      rfl
    · rw [Member.type]
      rfl
    · rw [Member.type, Member.type]
      exact fun heq => h (congrArg TypeRef.args (List.singleton_inj.mp heq))
  | .among before after outer, member, other, hplace, hmember, hother, h => by
    rw [Member.Place.isInsideNull] at hplace
    rw [Member.Place.fill, Member.Place.fill]
    refine outer.args_fill_ne hplace ?_
    rw [type_between, type_between]
    exact args_ofUnion_ne hmember hother h _ _

end

/-- Parentheses around a member make no difference unless it is `null` or `undefined` beside others. -/
theorem Member.Place.type_fill_grouped {place : Member.Place} {member : Member}
    (h : member.type.isNullish = false ∨ place.isAlone = true) :
    (place.fill member.grouped).type = (place.fill member).type := by
  rcases h with hmember | halone
  · refine place.type_fill ?_
    rw [Member.type_grouped, ofUnion_single, if_neg (by simp [hmember])]
  · unfold Member.Place.isAlone at halone
    split at halone
    · next outer =>
      rw [Member.Place.fill, Member.Place.fill]
      refine outer.type_fill ?_
      rw [type_between, type_between, Member.type_grouped]
      exact (ofUnion_single _).trans (if_neg (by simp [isNullish_ofUnion]))
    · cases halone

/-- Parentheses around `null` or `undefined` beside other members make a difference. -/
theorem Member.Place.type_fill_grouped_ne {place : Member.Place} {member : Member}
    (hplace : place.isInsideNull = false) (hnull : member.type.isNullish = true)
    (halone : place.isAlone = false) :
    (place.fill member.grouped).type ≠ (place.fill member).type := by
  refine fun heq => absurd (congrArg TypeRef.args heq.symm) ?_
  cases place with
  | element outer =>
    refine outer.args_fill_ne hplace ?_ ?_ ?_
    · rw [Member.type]
      rfl
    · rw [Member.type]
      rfl
    · rw [Member.type, Member.type, Member.type_grouped]
      intro heq
      have hsame := congrArg TypeRef.isNullish (List.singleton_inj.mp heq)
      rw [hnull, isNullish_ofUnion] at hsame
      cases hsame
  | among before after outer =>
    refine outer.args_fill_ne hplace ?_
    rw [type_between, type_between, Member.type_grouped]
    refine args_ofUnion_grouped_ne hnull fun hnil => ?_
    obtain ⟨hbefore, hafter⟩ := List.append_eq_nil_iff.mp hnil
    rw [List.map_eq_nil_iff.mp hbefore, List.map_eq_nil_iff.mp hafter] at halone
    cases halone

end TypeExpr

namespace TypeRef

open TypeExpr

/-! ### Texts with another pair of parentheses -/

/-- The second text is the first one with another pair of parentheses around a part: both are cut
alike into texts with the tokens in front of the part, of the part, and behind it. -/
def Parenthesizes (text grouped : Text) (front part back : List Token) : Prop :=
  ∃ before inside after : Text, Splits before front ∧ Splits inside part ∧ Splits after back ∧
    text = before ++ (inside ++ after) ∧ grouped = before ++ ("(" ++ (inside ++ (")" ++ after)))

variable {text grouped : Text} {front part back : List Token}

theorem Splits.exists_parenthesizes (h : Splits text (front ++ (part ++ back))) :
    ∃ grouped, Parenthesizes text grouped front part back := by
  obtain ⟨before, rest, rfl, hbefore, hrest⟩ := h.cut
  obtain ⟨inside, after, rfl, hinside, hafter⟩ := hrest.cut
  exact ⟨_, before, inside, after, hbefore, hinside, hafter, rfl, rfl⟩

theorem Parenthesizes.splits (h : Parenthesizes text grouped front part back) :
    Splits grouped (front ++ (.mark '(' :: (part ++ [.mark ')']) ++ back)) := by
  obtain ⟨before, inside, after, hbefore, hinside, hafter, -, rfl⟩ := h
  have hclosed : Splits (inside ++ (")" ++ after)) (part ++ .mark ')' :: back) :=
    hinside.append (splits_mark rfl hafter) rfl
  have hopened : Splits ("(" ++ (inside ++ (")" ++ after))) (.mark '(' :: (part ++ .mark ')' :: back)) :=
    splits_mark rfl hclosed
  rw [List.cons_append, List.append_assoc, List.singleton_append]
  exact hbefore.append hopened rfl

/-- A type that is read has the following property however it is derived.  It may be null exactly if
`null` or `undefined` is a member, or if the only other member may be null.  Another pair of
parentheses around the whole type, an argument or what stands between parentheses gives the same
type.  Around a member it gives a type again, which is the same one if the member is neither `null`
nor `undefined` or is the only one; and only then, except inside of an argument of `null` or
`undefined`. -/
theorem parse_parenthesized {text element : Text} {type : TypeRef}
    (hread : parse text element = .ok type) :
    (∃ expression : TypeExpr, Splits text expression.tokens) ∧
    ∀ expression : TypeExpr, Splits text expression.tokens →
      (type.nullable = true ↔ (∃ missing ∈ expression.memberTypes, missing.isNullish = true) ∨
        ∃ only, present expression.memberTypes = [only] ∧ only.nullable = true) ∧
      (∀ (place : Place) (inner : TypeExpr), place.fill inner = expression →
        (∃ grouped, Parenthesizes text grouped place.front inner.tokens place.back) ∧
        ∀ grouped, Parenthesizes text grouped place.front inner.tokens place.back →
          parse grouped element = .ok type) ∧
      (∀ (place : Member.Place) (member : Member), place.fill member = expression →
        (∃ grouped, Parenthesizes text grouped place.front member.tokens place.back) ∧
        ∀ grouped, Parenthesizes text grouped place.front member.tokens place.back →
          ∃ again, parse grouped element = .ok again ∧
            (member.type.isNullish = false ∨ place.isAlone = true → again = type) ∧
            (place.isInsideNull = false → again = type →
              member.type.isNullish = false ∨ place.isAlone = true)) := by
  obtain ⟨derivation, hderivation, -⟩ := parse_eq_ok_iff.mp hread
  refine ⟨⟨derivation, hderivation⟩, fun expression hsplits => ?_⟩
  obtain rfl : expression.type = type :=
    Except.ok.inj ((parse_eq_ok_iff.mpr ⟨expression, hsplits, rfl⟩).symm.trans hread)
  refine ⟨nullable_ofUnion expression.memberTypes, ?_, ?_⟩
  · -- around a type the parentheses are those of a group
    rintro place inner rfl
    rw [place.tokens_fill] at hsplits
    refine ⟨hsplits.exists_parenthesizes, fun grouped hgrouped => ?_⟩
    refine parse_eq_ok_iff.mpr ⟨place.fill inner.grouped, ?_, place.type_fill inner.type_grouped⟩
    rw [place.tokens_fill, TypeExpr.grouped, TypeExpr.tokens, Member.tokens, Primary.tokens]
    exact hgrouped.splits
  · -- around a member they make a union of this member alone
    rintro place member rfl
    rw [place.tokens_fill] at hsplits
    refine ⟨hsplits.exists_parenthesizes, fun grouped hgrouped => ?_⟩
    refine ⟨(place.fill member.grouped).type, parse_eq_ok_iff.mpr ⟨_, ?_, rfl⟩,
      Member.Place.type_fill_grouped, ?_⟩
    · rw [place.tokens_fill, Member.grouped, Member.tokens, Primary.tokens, TypeExpr.tokens]
      exact hgrouped.splits
    · refine fun hplace heq => Decidable.byContradiction fun hneither => ?_
      rw [not_or, Bool.not_eq_false, Bool.not_eq_true] at hneither
      exact Member.Place.type_fill_grouped_ne hplace hneither.1 hneither.2 heq

/-- A map to dates: parentheses around the argument make no difference, those around its member
`null` do. -/
theorem parse_parenthesized_map :
    let read : TypeRef :=
      ⟨"Map", [.plain "string", ⟨"Date", [], true, "Date | null"⟩], false, "Map<string, Date | null>"⟩
    parse "Map<string, Date | null>" "field" = .ok read ∧
      parse "Map<string, (Date | null)>" "field" = .ok read ∧
      parse "Map<string, Date | (null)>" "field" ≠ .ok read := by
  intro read
  let date : Member := .plain (.name "Date")
  let missing : Member := .plain (.name "null")
  let place : Place := .argument "Map" [.single (.plain (.name "string"))] [] (.among [] [] .whole)
  let written : TypeExpr := place.fill (.between [date] missing [])
  have hsplits : Splits "Map<string, Date | null>" written.tokens := tokens?_eq_some_iff.mp rfl
  have hread : parse "Map<string, Date | null>" "field" = .ok read :=
    parse_eq_ok_iff.mpr ⟨written, hsplits, rfl⟩
  obtain ⟨-, hunions, hmembers⟩ := (parse_parenthesized hread).2 written hsplits
  refine ⟨hread, (hunions place (.between [date] missing []) rfl).2 _ ?_, fun heq => ?_⟩
  · exact ⟨"Map<string, ", "Date | null", ">", tokens?_eq_some_iff.mp rfl, tokens?_eq_some_iff.mp rfl,
      tokens?_eq_some_iff.mp rfl, rfl, rfl⟩
  · have hgrouped : Parenthesizes "Map<string, Date | null>" "Map<string, Date | (null)>"
        (Member.Place.among [date] [] place).front missing.tokens
          (Member.Place.among [date] [] place).back :=
      ⟨"Map<string, Date | ", "null", ">", tokens?_eq_some_iff.mp rfl, tokens?_eq_some_iff.mp rfl,
        tokens?_eq_some_iff.mp rfl, rfl, rfl⟩
    obtain ⟨again, hagain, -, honly⟩ := (hmembers (.among [date] [] place) missing rfl).2 _ hgrouped
    rcases honly rfl (Except.ok.inj (hagain.symm.trans heq)) with hmember | halone
    · exact absurd hmember (by decide)
    · cases halone

end TypeRef

end JsonCompanion
