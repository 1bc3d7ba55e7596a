import JsonCompanion.Proofs.Text.Join
import JsonCompanion.Proofs.Types.Grammar

/-!
# Texts of types, read again

The text of a type leaves parentheses out.  Read again it gives the same type, unless the type was
written with parentheses that matter.

* `TypeExpr.needsGroup` tells where they do: a union between them is the element of an array, or
  stands beside another member that is not `null`.
* `TypeRef.StandsFor` and `TypeRef.StandsForMember` say which type a text stands for, in a place of
  its own and as a member of a union.
* `TypeRef.parse_text`: the text of a type and those of its parts, each read again, give the type
  and these parts.
-/

namespace JsonCompanion

open TypeRef

/-! ### Parentheses that matter -/

/-- A union of several types, of one type and `null`, or of nothing but `null`. -/
def TypeRef.isUnion (type : TypeRef) : Bool := type.nullable || type.name == unionName

/-- The members of a union that are not `null`. -/
def TypeRef.present (members : List TypeRef) : List TypeRef :=
  members.filter fun member => !member.isNullish

namespace TypeExpr

/-- The members of a union as they are written. -/
def members : TypeExpr → List Member
  | .single member => [member]
  | .union member rest => member :: rest.members

/-- Parentheses around a union. -/
def Member.isGroupedUnion : Member → Bool
  | .plain (.group inner) => inner.type.isUnion
  | _ => false

/-- A union between parentheses is a member beside another one that is not `null`. -/
def joinsGroup (expression : TypeExpr) : Bool :=
  decide (1 < (present expression.memberTypes).length) && expression.members.any Member.isGroupedUnion

mutual

/-- There are parentheses that matter inside of the members. -/
def membersNeedGroup : TypeExpr → Bool
  | .single member => member.needsGroup
  | .union member rest => member.needsGroup || rest.membersNeedGroup

/-- There are parentheses that matter in a member. -/
def Member.needsGroup : Member → Bool
  | .plain base => base.needsGroup
  | .array element => element.isGroupedUnion || element.needsGroup

/-- There are parentheses that matter inside of a primary type. -/
def Primary.needsGroup : Primary → Bool
  | .name _ => false
  | .applied _ arguments => arguments.needGroup
  | .group inner => inner.joinsGroup || inner.membersNeedGroup

/-- There are parentheses that matter in an argument. -/
def Arguments.needGroup : Arguments → Bool
  | .single argument => argument.joinsGroup || argument.membersNeedGroup
  | .more argument rest => (argument.joinsGroup || argument.membersNeedGroup) || rest.needGroup

end

/-- There are parentheses that matter: a union between them is the element of an array, or a member
beside another one that is not `null`. -/
def needsGroup (expression : TypeExpr) : Bool := expression.joinsGroup || expression.membersNeedGroup

/-- The members of two unions in one. -/
def append : TypeExpr → TypeExpr → TypeExpr
  | .single member, more => .union member more
  | .union member rest, more => .union member (rest.append more)

theorem tokens_append (expression more : TypeExpr) :
    (expression.append more).tokens = expression.tokens ++ .mark '|' :: more.tokens := by
  fun_induction append expression more with
  | case1 member => rw [tokens, tokens]
  | case2 member rest more ih => rw [tokens, ih, tokens, List.append_assoc, List.cons_append]

theorem memberTypes_append (expression more : TypeExpr) :
    (expression.append more).memberTypes = expression.memberTypes ++ more.memberTypes := by
  fun_induction append expression more with
  | case1 member => rw [memberTypes, memberTypes, List.singleton_append]
  | case2 member rest more ih => rw [memberTypes, ih, memberTypes, List.cons_append]

theorem memberTypes_eq (expression : TypeExpr) :
    expression.memberTypes = expression.members.map Member.type := by
  induction expression using members.induct with
  | case1 member => rw [memberTypes, members, List.map_singleton]
  | case2 member rest ih => rw [memberTypes, members, List.map_cons, ih]

theorem memberTypes_ne_nil (expression : TypeExpr) : expression.memberTypes ≠ [] := by
  cases expression <;> simp [memberTypes]

end TypeExpr

namespace TypeRef

open TypeExpr

/-! ### The type of a union -/

theorem ofUnion_of_present {types : List TypeRef} {only : TypeRef} (h : present types = [only]) :
    ofUnion types = if types.length = 1 then only else only.orNull := by
  unfold ofUnion
  rw [show types.filter (fun type => !type.isNullish) = [only] from h]
  by_cases hlength : types.length = 1
  · simp [hlength]
  · simp [hlength, Ne.symm hlength]

theorem ofUnion_of_several {types : List TypeRef} (h : ∀ only, present types ≠ [only]) :
    ofUnion types = ⟨unionName, if (present types).isEmpty then types else present types,
      (present types).length != types.length, Text.join " | " (types.map TypeRef.text)⟩ := by
  unfold ofUnion
  dsimp only
  split
  · next only hpresent => exact absurd hpresent (h only)
  · rfl

theorem nullable_orNull (type : TypeRef) : type.orNull.nullable = true := by
  unfold orNull
  split
  · next hnullable => exact hnullable
  · rfl

theorem name_orNull (type : TypeRef) : type.orNull.name = type.name := by
  unfold orNull
  split <;> rfl

theorem args_orNull (type : TypeRef) : type.orNull.args = type.args := by
  unfold orNull
  split <;> rfl

theorem isNullish_orNull (type : TypeRef) : type.orNull.isNullish = type.isNullish := by
  unfold orNull
  split <;> rfl

private theorem not_isNullish_of_present {types : List TypeRef} {type : TypeRef}
    (h : type ∈ present types) :
    type.isNullish = false := by
  simpa using (List.mem_filter.mp h).2

/-- A union is not `null`, even if all its members are. -/
theorem isNullish_ofUnion (types : List TypeRef) : (ofUnion types).isNullish = false := by
  by_cases hone : ∃ only, present types = [only]
  · obtain ⟨only, hpresent⟩ := hone
    have honly : only.isNullish = false :=
      not_isNullish_of_present (hpresent ▸ List.mem_singleton.mpr rfl)
    rw [ofUnion_of_present hpresent]
    split
    · exact honly
    · rw [isNullish_orNull, honly]
  · rw [ofUnion_of_several (not_exists.mp hone)]
    rfl

/-- A union of one member is that member, and a union by itself if that is `null`. -/
theorem ofUnion_single (type : TypeRef) :
    ofUnion [type] = if type.isNullish then ⟨unionName, [type], true, type.text⟩ else type := by
  cases hnull : type.isNullish with
  | true =>
    have hpresent : present [type] = [] := by simp [present, hnull]
    rw [ofUnion_of_several (by simp [hpresent]), hpresent]
    rfl
  | false =>
    have hpresent : present [type] = [type] := by simp [present, hnull]
    rw [ofUnion_of_present hpresent]
    rfl

private theorem ofUnion_concat_null {types : List TypeRef} (hne : types ≠ [])
    (h : (ofUnion types).nullable = false) :
    ofUnion (types ++ [TypeRef.plain "null"]) = (ofUnion types).orNull := by
  have hpresent : present (types ++ [TypeRef.plain "null"]) = present types := by
    rw [present, List.filter_append]
    exact List.append_nil _
  have hlength : (types ++ [TypeRef.plain "null"]).length = types.length + 1 := by simp
  by_cases hone : ∃ only, present types = [only]
  · obtain ⟨only, honly⟩ := hone
    have hpos := List.length_pos_iff.mpr hne
    rw [ofUnion_of_present honly] at h
    -- with others beside its only member the union would be nullable
    have hsame : types.length = 1 := by
      refine Decidable.byContradiction fun hlonger => ?_
      rw [if_neg hlonger, nullable_orNull] at h
      cases h
    rw [ofUnion_of_present (hpresent.trans honly), if_neg (by omega), ofUnion_of_present honly,
      if_pos hsame]
  · have hseveral := not_exists.mp hone
    rw [ofUnion_of_several hseveral] at h
    have hall : present types = types := List.Sublist.eq_of_length List.filter_sublist (by simpa using h)
    have htext : Text.join " | " ((types ++ [TypeRef.plain "null"]).map TypeRef.text) =
        Text.join " | " (types.map TypeRef.text) ++ " | null" := by
      rw [List.map_append, List.map_singleton, Text.join_concat (by simpa using hne), List.append_assoc]
      rfl
    have hempty : types.isEmpty = false := by simpa using hne
    rw [ofUnion_of_several (hpresent ▸ hseveral), ofUnion_of_several hseveral, hpresent, htext,
      hlength, hall, hempty]
    simp [orNull]

/-- Only a union of one member is none. -/
private theorem exists_single {expression : TypeExpr} (h : expression.type.isUnion = false) :
    ∃ member, expression = .single member ∧ member.type = expression.type := by
  rw [isUnion, Bool.or_eq_false_iff, beq_eq_false_iff_ne] at h
  rw [TypeExpr.type] at h ⊢
  by_cases hone : ∃ only, present expression.memberTypes = [only]
  · obtain ⟨only, hpresent⟩ := hone
    rw [ofUnion_of_present hpresent] at h ⊢
    cases expression with
    | single member =>
      have hsublist : [only].Sublist [member.type] := hpresent ▸ List.filter_sublist
      exact ⟨member, rfl, (List.singleton_sublist.mp hsublist |> List.mem_singleton.mp).symm⟩
    | union member rest =>
      have hpos := List.length_pos_iff.mpr rest.memberTypes_ne_nil
      rw [memberTypes, List.length_cons, if_neg (by omega), nullable_orNull] at h
      cases h.1
  · rw [ofUnion_of_several (not_exists.mp hone)] at h
    exact absurd rfl h.2

/-! ### What a text stands for -/

/-- A text stands for a type in a place of its own. -/
def StandsFor (text : Text) (type : TypeRef) : Prop :=
  ∃ expression : TypeExpr, Splits text expression.tokens ∧ expression.type = type

/-- A text stands for a type also as a member of a union and in front of an array suffix. -/
def StandsForMember (text : Text) (type : TypeRef) : Prop :=
  ∃ member : Member, Splits text member.tokens ∧ member.type = type

variable {text : Text} {type : TypeRef}

/-- A member is a union of one member. -/
theorem StandsForMember.standsFor (h : StandsForMember text type) : StandsFor text (ofUnion [type]) := by
  obtain ⟨member, hsplits, rfl⟩ := h
  exact ⟨.single member, by rwa [TypeExpr.tokens], by rw [TypeExpr.type, memberTypes]⟩

theorem StandsFor.member (h : StandsFor text type) (hunion : type.isUnion = false) :
    StandsForMember text type := by
  obtain ⟨expression, hsplits, rfl⟩ := h
  obtain ⟨member, rfl, htype⟩ := exists_single hunion
  exact ⟨member, by rwa [TypeExpr.tokens] at hsplits, htype⟩

theorem standsForMember_plain {label : Text} (h : label.isDotted) :
    StandsForMember label (.plain label) :=
  ⟨.plain (.name
    label), by rw [Member.tokens, Primary.tokens]; exact splits_name h, by rw [Member.type, Primary.type]⟩

theorem StandsForMember.array (h : StandsForMember text type) :
    StandsForMember (text ++ "[]") type.arrayOf := by
  obtain ⟨member, hsplits, rfl⟩ := h
  have hsuffix : Splits "[]" [.mark '[', .mark ']'] := splits_mark rfl (splits_mark rfl (.done rfl))
  exact ⟨.array member, by rw [Member.tokens]; exact hsplits.append hsuffix rfl, by rw [Member.type]⟩

theorem splits_bar {tokens : List Token} (h : Splits text tokens) :
    Splits (" | " ++ text) (.mark '|' :: tokens) :=
  (splits_mark rfl (h.gap " " rfl)).gap " " rfl

theorem splits_comma {tokens : List Token} (h : Splits text tokens) :
    Splits (", " ++ text) (.mark ',' :: tokens) :=
  splits_mark rfl (h.gap " " rfl)

/-- Texts of members with bars between them. -/
private theorem exists_union {types : List TypeRef} (hne : types ≠ [])
    (h : ∀ type ∈ types, StandsForMember type.text type) :
    ∃ expression : TypeExpr, Splits (Text.join " | " (types.map TypeRef.text)) expression.tokens ∧
      expression.memberTypes = types := by
  induction types with
  | nil => exact absurd rfl hne
  | cons type types ih =>
    obtain ⟨⟨member, hsplits, htype⟩, htypes⟩ := List.forall_mem_cons.mp h
    by_cases hnil : types = []
    · subst hnil
      exact ⟨.single member, by rwa [TypeExpr.tokens], by rw [memberTypes, htype]⟩
    · obtain ⟨rest, hrest, hmembers⟩ := ih hnil htypes
      refine ⟨.union member rest, ?_, by rw [memberTypes, htype, hmembers]⟩
      rw [List.map_cons, Text.join_cons (by simpa using hnil), List.append_assoc, TypeExpr.tokens]
      exact hsplits.append (splits_bar hrest) rfl

/-- Texts of arguments with commas between them. -/
private theorem exists_arguments {types : List TypeRef} (hne : types ≠ [])
    (h : ∀ type ∈ types, StandsFor type.text type) :
    ∃ arguments : Arguments, Splits (Text.join ", " (types.map TypeRef.text)) arguments.tokens ∧
      arguments.types = types := by
  induction types with
  | nil => exact absurd rfl hne
  | cons type types ih =>
    obtain ⟨⟨argument, hsplits, htype⟩, htypes⟩ := List.forall_mem_cons.mp h
    rw [TypeExpr.type] at htype
    by_cases hnil : types = []
    · subst hnil
      exact ⟨.single argument, by rwa [Arguments.tokens], by rw [Arguments.types, htype]⟩
    · obtain ⟨rest, hrest, harguments⟩ := ih hnil htypes
      refine ⟨.more argument rest, ?_, by rw [Arguments.types, htype, harguments]⟩
      rw [List.map_cons, Text.join_cons (by simpa using hnil), List.append_assoc, Arguments.tokens]
      exact hsplits.append (splits_comma hrest) rfl

theorem standsForMember_applied {label : Text} {types : List TypeRef} (hlabel : label.isDotted)
    (hne : types ≠ []) (h : ∀ type ∈ types, StandsFor type.text type) :
    StandsForMember (applied label types).text (.applied label types) := by
  obtain ⟨arguments, hsplits, rfl⟩ := exists_arguments hne h
  have hclose : Splits ">" [.mark '>'] := splits_mark rfl (.done rfl)
  have hinside : Splits ("<" ++ (Text.join ", " (arguments.types.map TypeRef.text) ++ ">"))
      (.mark '<' :: (arguments.tokens ++ [.mark '>'])) := splits_mark rfl (hsplits.append hclose rfl)
  refine ⟨.plain (.applied label arguments), ?_, by rw [Member.type, Primary.type]⟩
  rw [Member.tokens, Primary.tokens, applied, List.append_assoc, List.append_assoc]
  exact (splits_name hlabel).append hinside rfl

/-- A type or `null`, written with a bar. -/
theorem StandsFor.orNull (h : StandsFor type.text type) : StandsFor type.orNull.text type.orNull := by
  cases hnullable : type.nullable with
  | true => rwa [TypeRef.orNull, hnullable]
  | false =>
    obtain ⟨expression, hsplits, htype⟩ := h
    have hsplitsNull : Splits (" | " ++ "null") [.mark '|', .name "null"] :=
      splits_bar (splits_name (by decide))
    have htext : type.orNull.text = type.text ++ (" | " ++ "null") := by
      rw [TypeRef.orNull, hnullable]
      rfl
    refine ⟨expression.append (.single (.plain (.name "null"))), ?_, ?_⟩
    · rw [htext, tokens_append, TypeExpr.tokens, Member.tokens, Primary.tokens]
      exact hsplits.append hsplitsNull rfl
    · rw [← htype, TypeExpr.type] at hnullable
      rw [TypeExpr.type, memberTypes_append, memberTypes, Member.type, Primary.type,
        ofUnion_concat_null expression.memberTypes_ne_nil hnullable, ← htype, TypeExpr.type]

/-! ### Parts of a type -/

/-- A type itself, or a part of one of its arguments. -/
inductive IsPartOf : TypeRef → TypeRef → Prop
  | whole {type : TypeRef} : IsPartOf type type
  | argument {part arg type : TypeRef} (harg : arg ∈ type.args) (h : IsPartOf part arg) : IsPartOf
      part type

/-- The texts of a type and of its parts, each in a place of its own, stand for these. -/
def RoundTrips (type : TypeRef) : Prop :=
  ∀ part, IsPartOf part type → StandsFor part.text (ofUnion [part])

theorem RoundTrips.intro (h : StandsFor type.text (ofUnion [type]))
    (hargs : ∀ arg ∈ type.args, RoundTrips arg) :
    RoundTrips type := by
  intro part hpart
  cases hpart with
  | whole => exact h
  | argument harg hpart => exact hargs _ harg part hpart

theorem RoundTrips.args (h : RoundTrips type) : ∀ arg ∈ type.args, RoundTrips arg :=
  fun _ harg part hpart => h part (.argument harg hpart)

theorem RoundTrips.standsFor (h : RoundTrips type) (hnull : type.isNullish = false) :
    StandsFor type.text type := by
  have htype := h type .whole
  rwa [ofUnion_single, if_neg (by simp [hnull])] at htype

theorem RoundTrips.of_standsFor (h : StandsFor type.text type) (hnull : type.isNullish = false)
    (hargs : ∀ arg ∈ type.args, RoundTrips arg) : RoundTrips type := by
  refine .intro ?_ hargs
  rwa [ofUnion_single, if_neg (by simp [hnull])]

/-- The text of a member stands for its type, also among other members if the member is no union between
parentheses. -/
def ReadsBack (member : Member) : Prop :=
  RoundTrips member.type ∧ (member.isGroupedUnion = false → StandsForMember member.type.text member.type)

theorem ReadsBack.of_member {member : Member} (h : StandsForMember member.type.text member.type)
    (hargs : ∀ arg ∈ member.type.args, RoundTrips arg) : ReadsBack member :=
  ⟨.intro h.standsFor hargs, fun _ => h⟩

private theorem exists_grouped {member : Member} (h : member.isGroupedUnion = true) :
    ∃ inner : TypeExpr, member = .plain (.group inner) ∧ inner.type.isUnion = true := by
  cases member with
  | array element => cases h
  | plain base =>
    cases base with
    | group inner => exact ⟨inner, rfl, h⟩
    | _ => cases h

/-- A union between parentheses is a union, also if all its members are `null`. -/
theorem isUnion_of_grouped {member : Member} (h : member.isGroupedUnion = true) :
    member.type.isUnion = true ∧ member.type.isNullish = false := by
  obtain ⟨inner, rfl, hunion⟩ := exists_grouped h
  rw [Member.type, Primary.type]
  exact ⟨hunion, isNullish_ofUnion inner.memberTypes⟩

theorem mem_present_of_grouped {expression : TypeExpr} {member : Member}
    (hmem : member ∈ expression.members) (h : member.isGroupedUnion = true) :
    member.type ∈ present expression.memberTypes := by
  refine List.mem_filter.mpr ⟨memberTypes_eq expression ▸ List.mem_map_of_mem hmem, ?_⟩
  rw [(isUnion_of_grouped h).2]
  rfl

private theorem not_isGroupedUnion {expression : TypeExpr} (hjoins : expression.joinsGroup = false)
    (hseveral : ∀ only, present expression.memberTypes ≠ [only]) {member : Member}
    (hmem : member ∈ expression.members) : member.isGroupedUnion = false := by
  rw [← Bool.not_eq_true]
  intro hgrouped
  -- such a member is not null, so it stands beside another one that is not
  have hpresent := mem_present_of_grouped hmem hgrouped
  have hany : expression.members.any Member.isGroupedUnion = true :=
    List.any_eq_true.mpr ⟨member, hmem, hgrouped⟩
  rw [joinsGroup, hany, Bool.and_true, decide_eq_false_iff_not, Nat.not_lt] at hjoins
  rcases hlist : present expression.memberTypes with _ | ⟨only, _ | ⟨next, rest⟩⟩
  · rw [hlist] at hpresent
    cases hpresent
  · exact hseveral only hlist
  · rw [hlist] at hjoins
    simp at hjoins

/-- The text of a union stands for it if those of its members do. -/
theorem roundTrips_union {expression : TypeExpr} (hjoins : expression.joinsGroup = false)
    (hmembers : ∀ member ∈ expression.members, ReadsBack member) : RoundTrips expression.type := by
  have htypes : ∀ type ∈ expression.memberTypes, RoundTrips type := by
    rw [memberTypes_eq]
    exact List.forall_mem_map.mpr fun member hmem => (hmembers member hmem).1
  have hnull : expression.type.isNullish = false := isNullish_ofUnion expression.memberTypes
  by_cases hone : ∃ only, present expression.memberTypes = [only]
  · -- the union is the type of its only member, with a bar and `null` behind the text if there were others
    obtain ⟨only, hpresent⟩ := hone
    have hmem : only ∈ present expression.memberTypes := hpresent ▸ List.mem_singleton.mpr rfl
    have honly : RoundTrips only := htypes only (List.mem_filter.mp hmem).1
    have honlyNull : only.isNullish = false := not_isNullish_of_present hmem
    have htype := ofUnion_of_present hpresent
    rw [← TypeExpr.type] at htype
    rw [htype]
    split
    · exact honly
    · exact .of_standsFor (honly.standsFor honlyNull).orNull ((isNullish_orNull only).trans honlyNull)
        (args_orNull only ▸ honly.args)
  · -- the text joins those of all members, so that each has to stand for its type beside the others
    have hseveral := not_exists.mp hone
    have hall : ∀ type ∈ expression.memberTypes, StandsForMember type.text type := by
      rw [memberTypes_eq]
      exact List.forall_mem_map.mpr fun member hmem =>
        (hmembers member hmem).2 (not_isGroupedUnion hjoins hseveral hmem)
    obtain ⟨again, hsplits, hsame⟩ := exists_union expression.memberTypes_ne_nil hall
    have htype := ofUnion_of_several hseveral
    rw [← TypeExpr.type] at htype
    refine .of_standsFor ⟨again, by rwa [htype], by rw [TypeExpr.type, hsame, TypeExpr.type]⟩ hnull ?_
    rw [htype]
    intro arg harg
    dsimp only at harg
    split at harg
    · exact htypes arg harg
    · exact htypes arg (List.mem_filter.mp harg).1

mutual

private theorem readsBack_members :
    ∀ expression : TypeExpr, (∀ token ∈ expression.tokens, token.IsWord) →
    expression.membersNeedGroup = false → ∀ member ∈ expression.members, ReadsBack member
  | .single member, hwords, hneeds => by
    rw [TypeExpr.tokens] at hwords
    rw [membersNeedGroup] at hneeds
    rw [members]
    exact List.forall_mem_singleton.mpr (readsBack_member member hwords hneeds)
  | .union member rest, hwords, hneeds => by
    rw [TypeExpr.tokens, List.forall_mem_append, List.forall_mem_cons] at hwords
    rw [membersNeedGroup, Bool.or_eq_false_iff] at hneeds
    rw [members]
    exact List.forall_mem_cons.mpr
      ⟨readsBack_member member hwords.1 hneeds.1, readsBack_members rest hwords.2.2 hneeds.2⟩

private theorem readsBack_member : ∀ member : Member, (∀ token ∈ member.tokens, token.IsWord) →
    member.needsGroup = false → ReadsBack member
  | .plain base, hwords, hneeds => by
    rw [Member.tokens] at hwords
    rw [Member.needsGroup] at hneeds
    exact readsBack_primary base hwords hneeds
  | .array element, hwords, hneeds => by
    rw [Member.tokens, List.forall_mem_append] at hwords
    rw [Member.needsGroup, Bool.or_eq_false_iff] at hneeds
    obtain ⟨helement, hmember⟩ := readsBack_member element hwords.1 hneeds.2
    refine .of_member ?_ ?_
    · rw [Member.type]
      exact (hmember hneeds.1).array
    · rw [Member.type]
      exact List.forall_mem_singleton.mpr helement

private theorem readsBack_primary : ∀ base : Primary, (∀ token ∈ base.tokens, token.IsWord) →
    base.needsGroup = false → ReadsBack (.plain base)
  | .name label, hwords, _ => by
    rw [Primary.tokens] at hwords
    have hlabel : label.isDotted := hwords (.name label) List.mem_cons_self
    refine .of_member ?_ ?_
    · rw [Member.type, Primary.type]
      exact standsForMember_plain hlabel
    · rw [Member.type, Primary.type]
      exact fun _ harg => absurd harg List.not_mem_nil
  | .applied label arguments, hwords, hneeds => by
    rw [Primary.tokens, List.forall_mem_cons, List.forall_mem_cons, List.forall_mem_append] at hwords
    rw [Primary.needsGroup] at hneeds
    have harguments := roundTrips_arguments arguments hwords.2.2.1 hneeds
    have hne : arguments.types ≠ [] := by cases arguments <;> simp [Arguments.types]
    refine .of_member ?_ ?_
    · rw [Member.type, Primary.type]
      exact standsForMember_applied hwords.1 hne fun type htype => (harguments type htype).2
    · rw [Member.type, Primary.type]
      exact fun type htype => (harguments type htype).1
  | .group inner, hwords, hneeds => by
    rw [Primary.tokens, List.forall_mem_cons, List.forall_mem_append] at hwords
    rw [Primary.needsGroup, Bool.or_eq_false_iff] at hneeds
    have hinner : RoundTrips inner.type :=
      roundTrips_union hneeds.1 (readsBack_members inner hwords.2.1 hneeds.2)
    rw [ReadsBack, Member.type, Primary.type]
    exact ⟨hinner, fun hunion => (hinner.standsFor (isNullish_ofUnion inner.memberTypes)).member hunion⟩

private theorem roundTrips_arguments :
    ∀ arguments : Arguments, (∀ token ∈ arguments.tokens, token.IsWord) →
    arguments.needGroup = false → ∀ type ∈ arguments.types, RoundTrips type ∧ StandsFor type.text type
  | .single argument, hwords, hneeds => by
    rw [Arguments.tokens] at hwords
    rw [Arguments.needGroup, Bool.or_eq_false_iff] at hneeds
    have hargument : RoundTrips argument.type :=
      roundTrips_union hneeds.1 (readsBack_members argument hwords hneeds.2)
    rw [Arguments.types]
    exact List.forall_mem_singleton.mpr
      ⟨hargument, hargument.standsFor (isNullish_ofUnion argument.memberTypes)⟩
  | .more argument rest, hwords, hneeds => by
    rw [Arguments.tokens, List.forall_mem_append, List.forall_mem_cons] at hwords
    rw [Arguments.needGroup, Bool.or_eq_false_iff, Bool.or_eq_false_iff] at hneeds
    have hargument : RoundTrips argument.type :=
      roundTrips_union hneeds.1.1 (readsBack_members argument hwords.1 hneeds.1.2)
    rw [Arguments.types]
    exact List.forall_mem_cons.mpr
      ⟨⟨hargument, hargument.standsFor (isNullish_ofUnion argument.memberTypes)⟩,
      roundTrips_arguments rest hwords.2.2 hneeds.2⟩

end

/-- The text of a type that was written without parentheses that matter, read again, gives the same
type, and so do the texts of its parts; only a mere `null` among them is read as the union of
nothing else. -/
theorem parse_text {text element : Text} {type : TypeRef} {expression : TypeExpr}
    (hwritten : Splits text expression.tokens) (hgroup : expression.needsGroup = false)
    (hread : parse text element = .ok type) {part : TypeRef} (hpart : IsPartOf part type)
    (element' : Text) :
    parse part.text element' =
      .ok (if part.isNullish then ⟨unionName, [part], true, part.text⟩ else part) := by
  have htype : parse text element = .ok expression.type :=
    parse_eq_ok_iff.mpr ⟨expression, hwritten, rfl⟩
  obtain rfl : expression.type = type := Except.ok.inj (htype.symm.trans hread)
  obtain ⟨hjoins, hmembers⟩ := Bool.or_eq_false_iff.mp hgroup
  have hroundTrips : RoundTrips expression.type :=
    roundTrips_union hjoins (readsBack_members expression hwritten.isWord hmembers)
  rw [← ofUnion_single]
  exact parse_eq_ok_iff.mpr (hroundTrips part hpart)

end TypeRef

end JsonCompanion
