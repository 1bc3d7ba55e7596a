import JsonCompanion.Proofs.Types.Rereading

/-!
# Types whose texts lose parentheses

The text of every type can be read again, but it has no parentheses, so that it is read by a
derivation without them.

* `TypeExpr.isFree`: a type is written without parentheses.  No member of such a union is a union.
* `TypeRef.IsLegible`: a text is read without parentheses; the texts of all types and of their parts are.
* `TypeRef.HidesUnion`: a type has a union where a text without parentheses cannot give it one.  A
  type that was written with parentheses that matter has a part of that kind.
* `TypeRef.texts_settle`: when the texts of a type and of its parts give these types again.
-/

namespace JsonCompanion

open TypeRef

namespace TypeExpr

/-! ### Types without parentheses -/

mutual

/-- There are no parentheses in a union. -/
def isFree : TypeExpr → Bool
  | .single member => member.isFree
  | .union member rest => member.isFree && rest.isFree

/-- There are no parentheses in a member. -/
def Member.isFree : Member → Bool
  | .plain base => base.isFree
  | .array element => element.isFree

/-- There are no parentheses in a primary type. -/
def Primary.isFree : Primary → Bool
  | .name _ => true
  | .applied _ arguments => arguments.areFree
  | .group _ => false

/-- There are no parentheses in arguments. -/
def Arguments.areFree : Arguments → Bool
  | .single argument => argument.isFree
  | .more argument rest => argument.isFree && rest.areFree

end

theorem isFree_append (expression more : TypeExpr) :
    (expression.append more).isFree = (expression.isFree && more.isFree) := by
  fun_induction append expression more with
  | case1 member => rw [isFree, isFree]
  | case2 member rest more ih => rw [isFree, ih, isFree, Bool.and_assoc]

/-- An array suffix behind the last member of a union. -/
def suffixed : TypeExpr → TypeExpr
  | .single member => .single (.array member)
  | .union member rest => .union member rest.suffixed

theorem tokens_suffixed (expression : TypeExpr) :
    expression.suffixed.tokens = expression.tokens ++ [.mark '[', .mark ']'] := by
  induction expression using suffixed.induct with
  | case1 member => rw [suffixed, tokens, tokens, Member.tokens]
  | case2 member rest ih => rw [suffixed, tokens, ih, tokens, List.append_assoc, List.cons_append]

theorem isFree_suffixed (expression : TypeExpr) : expression.suffixed.isFree = expression.isFree := by
  induction expression using suffixed.induct with
  | case1 member => rw [suffixed, isFree, isFree, Member.isFree]
  | case2 member rest ih => rw [suffixed, isFree, ih, isFree]

/-- Without parentheses no member is a union. -/
theorem Member.isUnion_of_isFree {member : Member} (h : member.isFree)
    (hwords : ∀ token ∈ member.tokens, token.IsWord) : member.type.isUnion = false := by
  have hname {label : Text} (hword : (Token.name label).IsWord) : label ≠ unionName := by
    rintro rfl
    exact absurd (show Text.isDotted unionName from hword) (by decide)
  cases member with
  | array element =>
    rw [Member.type]
    rfl
  | plain base =>
    rw [Member.tokens] at hwords
    cases base with
    | name label =>
      rw [Primary.tokens] at hwords
      rw [Member.type, Primary.type]
      exact beq_eq_false_iff_ne.mpr (hname (hwords _ List.mem_cons_self))
    | applied label arguments =>
      rw [Primary.tokens] at hwords
      rw [Member.type, Primary.type]
      exact beq_eq_false_iff_ne.mpr (hname (hwords _ List.mem_cons_self))
    | group inner => cases h

theorem isWord_of_mem : ∀ (expression : TypeExpr), (∀ token ∈ expression.tokens, token.IsWord) →
    ∀ {member : Member}, member ∈ expression.members → ∀ token ∈ member.tokens, token.IsWord
  | .single member, hwords, _, hmem => by
    rw [tokens] at hwords
    rw [members] at hmem
    exact List.mem_singleton.mp hmem ▸ hwords
  | .union member rest, hwords, _, hmem => by
    rw [tokens, List.forall_mem_append, List.forall_mem_cons] at hwords
    rw [members] at hmem
    rcases List.mem_cons.mp hmem with rfl | hmem
    · exact hwords.1
    · exact isWord_of_mem rest hwords.2.2 hmem

theorem isUnion_of_isFree : ∀ {expression : TypeExpr}, expression.isFree →
    (∀ token ∈ expression.tokens, token.IsWord) → ∀ member ∈ expression.members,
      member.isFree ∧ member.type.isUnion = false
  | .single member, h, hwords => by
    rw [isFree] at h
    rw [tokens] at hwords
    rw [members]
    exact List.forall_mem_singleton.mpr ⟨h, Member.isUnion_of_isFree h hwords⟩
  | .union member rest, h, hwords => by
    rw [isFree, Bool.and_eq_true] at h
    rw [tokens, List.forall_mem_append, List.forall_mem_cons] at hwords
    rw [members]
    exact List.forall_mem_cons.mpr
      ⟨⟨h.1, Member.isUnion_of_isFree h.1 hwords.1⟩, isUnion_of_isFree h.2 hwords.2.2⟩

end TypeExpr

namespace TypeRef

open TypeExpr

/-! ### Texts that are read without parentheses -/

/-- A text can be read, namely without parentheses. -/
def IsLegible (text : Text) : Prop :=
  ∃ expression : TypeExpr, expression.isFree ∧ Splits text expression.tokens

variable {text text' : Text} {type : TypeRef} {types : List TypeRef}

theorem isLegible_name {label : Text} (h : label.isDotted) : IsLegible label :=
  ⟨.single (.plain (.name label)),
    rfl, by rw [TypeExpr.tokens, Member.tokens, Primary.tokens]; exact splits_name h⟩

theorem IsLegible.array (h : IsLegible text) : IsLegible (text ++ "[]") := by
  obtain ⟨expression, hfree, hsplits⟩ := h
  have hsuffix : Splits "[]" [.mark '[', .mark ']'] := splits_mark rfl (splits_mark rfl (.done rfl))
  refine ⟨expression.suffixed, by rwa [isFree_suffixed], ?_⟩
  rw [tokens_suffixed]
  exact hsplits.append hsuffix rfl

theorem IsLegible.bar (h : IsLegible text) (h' : IsLegible text') :
    IsLegible (text ++ (" | " ++ text')) := by
  obtain ⟨expression, hfree, hsplits⟩ := h
  obtain ⟨more, hfree', hsplits'⟩ := h'
  refine ⟨expression.append more, by rw [isFree_append, hfree, hfree']; rfl, ?_⟩
  rw [tokens_append]
  exact hsplits.append (splits_bar hsplits') rfl

theorem isLegible_union (hne : types ≠ []) (h : ∀ type ∈ types, IsLegible type.text) :
    IsLegible (Text.join " | " (types.map TypeRef.text)) := by
  induction types with
  | nil => exact absurd rfl hne
  | cons type types ih =>
    obtain ⟨htype, htypes⟩ := List.forall_mem_cons.mp h
    by_cases hnil : types = []
    · subst hnil
      exact htype
    · rw [List.map_cons, Text.join_cons (by simpa using hnil), List.append_assoc]
      exact htype.bar (ih hnil htypes)

private theorem exists_free_arguments (hne : types ≠ []) (h : ∀ type ∈ types, IsLegible type.text) :
    ∃ arguments : Arguments, arguments.areFree ∧
      Splits (Text.join ", " (types.map TypeRef.text)) arguments.tokens := by
  induction types with
  | nil => exact absurd rfl hne
  | cons type types ih =>
    obtain ⟨⟨argument, hfree, hsplits⟩, htypes⟩ := List.forall_mem_cons.mp h
    by_cases hnil : types = []
    · subst hnil
      exact ⟨.single argument, by rwa [Arguments.areFree], by rwa [Arguments.tokens]⟩
    · obtain ⟨rest, hrest, hsplits'⟩ := ih hnil htypes
      refine ⟨.more argument rest, by rw [Arguments.areFree, hfree, hrest]; rfl, ?_⟩
      rw [List.map_cons, Text.join_cons (by simpa using hnil), List.append_assoc, Arguments.tokens]
      exact hsplits.append (splits_comma hsplits') rfl

theorem isLegible_applied {label : Text} (hlabel : label.isDotted) (hne : types ≠ [])
    (h : ∀ type ∈ types, IsLegible type.text) : IsLegible (applied label types).text := by
  obtain ⟨arguments, hfree, hsplits⟩ := exists_free_arguments hne h
  have hclose : Splits ">" [.mark '>'] := splits_mark rfl (.done rfl)
  have hinside : Splits ("<" ++ (Text.join ", " (types.map TypeRef.text) ++ ">"))
      (.mark '<' :: (arguments.tokens ++ [.mark '>'])) := splits_mark rfl (hsplits.append hclose rfl)
  refine ⟨.single
    (.plain (.applied label arguments)), by rwa [isFree, Member.isFree, Primary.isFree], ?_⟩
  rw [TypeExpr.tokens, Member.tokens, Primary.tokens, applied, List.append_assoc, List.append_assoc]
  exact (splits_name hlabel).append hinside rfl

theorem isLegible_orNull (h : IsLegible type.text) : IsLegible type.orNull.text := by
  unfold orNull
  split
  · exact h
  · exact h.bar (isLegible_name (by decide))

/-- The texts of a type and of its parts are read without parentheses. -/
def AreLegible (type : TypeRef) : Prop := ∀ part, IsPartOf part type → IsLegible part.text

theorem AreLegible.intro (h : IsLegible type.text) (hargs : ∀ arg ∈ type.args, AreLegible arg) :
    AreLegible type := by
  intro part hpart
  cases hpart with
  | whole => exact h
  | argument harg hpart => exact hargs _ harg part hpart

theorem AreLegible.args (h : AreLegible type) : ∀ arg ∈ type.args, AreLegible arg :=
  fun _ harg part hpart => h part (.argument harg hpart)

theorem areLegible_ofUnion (hne : types ≠ []) (h : ∀ type ∈ types, AreLegible type) :
    AreLegible (ofUnion types) := by
  by_cases hone : ∃ only, present types = [only]
  · obtain ⟨only, hpresent⟩ := hone
    have honly : AreLegible only := h only (List.mem_filter.mp (hpresent ▸ List.mem_singleton.mpr rfl)).1
    rw [ofUnion_of_present hpresent]
    split
    · exact honly
    · exact .intro (isLegible_orNull (honly only .whole)) (args_orNull only ▸ honly.args)
  · rw [ofUnion_of_several (not_exists.mp hone)]
    refine .intro (isLegible_union hne fun type htype => h type htype type .whole) ?_
    dsimp only
    split
    · exact h
    · exact fun type htype => h type (List.mem_filter.mp htype).1

mutual

private theorem areLegible_memberTypes :
    ∀ expression : TypeExpr, (∀ token ∈ expression.tokens, token.IsWord) →
    ∀ type ∈ expression.memberTypes, AreLegible type
  | .single member, hwords => by
    rw [TypeExpr.tokens] at hwords
    rw [memberTypes]
    exact List.forall_mem_singleton.mpr (areLegible_member member hwords)
  | .union member rest, hwords => by
    rw [TypeExpr.tokens, List.forall_mem_append, List.forall_mem_cons] at hwords
    rw [memberTypes]
    exact List.forall_mem_cons.mpr
      ⟨areLegible_member member hwords.1, areLegible_memberTypes rest hwords.2.2⟩

private theorem areLegible_member : ∀ member : Member, (∀ token ∈ member.tokens, token.IsWord) →
    AreLegible member.type
  | .plain base, hwords => by
    rw [Member.tokens] at hwords
    rw [Member.type]
    exact areLegible_primary base hwords
  | .array element, hwords => by
    rw [Member.tokens, List.forall_mem_append] at hwords
    have helement := areLegible_member element hwords.1
    rw [Member.type]
    exact .intro (helement element.type .whole).array (List.forall_mem_singleton.mpr helement)

private theorem areLegible_primary :
    ∀ base : Primary, (∀ token ∈ base.tokens, token.IsWord) → AreLegible base.type
  | .name label, hwords => by
    rw [Primary.tokens] at hwords
    rw [Primary.type]
    exact .intro (isLegible_name (hwords (.name label) List.mem_cons_self)) fun _ harg =>
      absurd harg List.not_mem_nil
  | .applied label arguments, hwords => by
    rw [Primary.tokens, List.forall_mem_cons, List.forall_mem_cons, List.forall_mem_append] at hwords
    have harguments := areLegible_arguments arguments hwords.2.2.1
    have hne : arguments.types ≠ [] := by cases arguments <;> simp [Arguments.types]
    rw [Primary.type]
    exact .intro
      (isLegible_applied hwords.1 hne fun type htype => harguments type htype type .whole) harguments
  | .group inner, hwords => by
    rw [Primary.tokens, List.forall_mem_cons, List.forall_mem_append] at hwords
    rw [Primary.type]
    exact areLegible_ofUnion inner.memberTypes_ne_nil (areLegible_memberTypes inner hwords.2.1)

private theorem areLegible_arguments :
    ∀ arguments : Arguments, (∀ token ∈ arguments.tokens, token.IsWord) →
    ∀ type ∈ arguments.types, AreLegible type
  | .single argument, hwords => by
    rw [Arguments.tokens] at hwords
    rw [Arguments.types]
    exact List.forall_mem_singleton.mpr
      (areLegible_ofUnion argument.memberTypes_ne_nil (areLegible_memberTypes argument hwords))
  | .more argument rest, hwords => by
    rw [Arguments.tokens, List.forall_mem_append, List.forall_mem_cons] at hwords
    rw [Arguments.types]
    exact List.forall_mem_cons.mpr
      ⟨areLegible_ofUnion argument.memberTypes_ne_nil (areLegible_memberTypes argument hwords.1),
        areLegible_arguments rest hwords.2.2⟩

end

theorem areLegible_type {expression : TypeExpr} (hwords : ∀ token ∈ expression.tokens, token.IsWord) :
    AreLegible expression.type :=
  areLegible_ofUnion expression.memberTypes_ne_nil (areLegible_memberTypes expression hwords)

/-! ### Unions in places where they need parentheses -/

/-- A union is a member of a union, or an array suffix stands behind it. -/
def HidesUnion (type : TypeRef) : Prop :=
  (type.name = unionName ∧ ∃ arg ∈ type.args, arg.isUnion) ∨
    ∃ element : TypeRef, element.isUnion ∧ (type = element.arrayOf ∨ type = element.arrayOf.orNull)

private theorem orNull_injective {other : TypeRef} (hnullable : type.nullable = false)
    (hnullable' : other.nullable = false) (h : type.orNull = other.orNull) : type = other := by
  obtain ⟨name, args, _, text⟩ := type
  obtain ⟨name', args', _, text'⟩ := other
  dsimp only at hnullable hnullable'
  subst hnullable hnullable'
  simp only [orNull, Bool.false_eq_true, if_false, TypeRef.mk.injEq, List.append_cancel_right_eq] at h ⊢
  exact ⟨h.1, h.2.1, trivial, h.2.2.2⟩

private theorem orNull_orNull (type : TypeRef) : type.orNull.orNull = type.orNull := by
  rw [orNull, if_pos (nullable_orNull type)]

theorem HidesUnion.orNull (h : HidesUnion type) : HidesUnion type.orNull := by
  obtain ⟨hname, hargs⟩ | ⟨element, helement, rfl | rfl⟩ := h
  · exact .inl ⟨(name_orNull type).trans hname, args_orNull type ▸ hargs⟩
  · exact .inr ⟨element, helement, .inr rfl⟩
  · exact .inr ⟨element, helement, .inr (orNull_orNull _)⟩

theorem HidesUnion.isNullish (h : HidesUnion type) : type.isNullish = false := by
  obtain ⟨hname, -⟩ | ⟨element, -, rfl | rfl⟩ := h
  · rw [TypeRef.isNullish, hname]
    rfl
  · rfl
  · exact isNullish_orNull element.arrayOf

private theorem type_ne_arrayOf {member : Member} (hfree : member.isFree)
    (hwords : ∀ token ∈ member.tokens, token.IsWord) {element : TypeRef}
    (helement : element.isUnion = true) : member.type ≠ element.arrayOf := by
  intro heq
  cases member with
  | array inner =>
    rw [Member.isFree] at hfree
    rw [Member.tokens, List.forall_mem_append] at hwords
    have hinner := Member.isUnion_of_isFree hfree hwords.1
    rw [Member.type] at heq
    rw [List.singleton_inj.mp (congrArg TypeRef.args heq), helement] at hinner
    cases hinner
  | plain base =>
    rw [Member.type] at heq
    cases base with
    | name label =>
      rw [Primary.type] at heq
      cases congrArg TypeRef.args heq
    | applied label arguments =>
      -- the one text ends with an angle bracket, the other one with a square bracket
      rw [Primary.type] at heq
      have hlast := congrArg (fun type => type.text.getLast?) heq
      simp only [applied, arrayOf, List.getLast?_append] at hlast
      have hunits : (0x3E : CodeUnit) = 0x5D := Option.some.inj hlast
      exact absurd hunits (by decide)
    | group inner => cases hfree

/-- A type that is no union, not nullable and no array of a union hides none, also made nullable. -/
private theorem not_hidesUnion_only {only : TypeRef} (hnullable : only.nullable = false)
    (hname : only.name ≠ unionName)
    (hne : ∀ {element : TypeRef}, element.isUnion → only ≠ element.arrayOf) :
    ¬ HidesUnion only ∧ ¬ HidesUnion only.orNull := by
  constructor
  · rintro (⟨hunion, -⟩ | ⟨element, helement, harray | harray⟩)
    · exact hname hunion
    · exact hne helement harray
    · rw [harray, nullable_orNull] at hnullable
      cases hnullable
  · rintro (⟨hunion, -⟩ | ⟨element, helement, harray | harray⟩)
    · exact hname ((name_orNull only).symm.trans hunion)
    · have hsame := congrArg TypeRef.nullable harray
      rw [nullable_orNull] at hsame
      cases hsame
    · exact hne helement (orNull_injective hnullable rfl harray)

/-- A type that is written without parentheses hides no union. -/
theorem not_hidesUnion {expression : TypeExpr} (hfree : expression.isFree)
    (hwords : ∀ token ∈ expression.tokens, token.IsWord) : ¬ HidesUnion expression.type := by
  have hmembers := isUnion_of_isFree hfree hwords
  have hplain : ∀ type ∈ expression.memberTypes, type.isUnion = false := by
    rw [memberTypes_eq]
    exact List.forall_mem_map.mpr fun member hmem => (hmembers member hmem).2
  rw [TypeExpr.type]
  by_cases hone : ∃ only, present expression.memberTypes = [only]
  · obtain ⟨only, hpresent⟩ := hone
    have hmem : only ∈ expression.memberTypes :=
      (List.mem_filter.mp (hpresent ▸ List.mem_singleton.mpr rfl)).1
    obtain ⟨hnullable, hname⟩ := Bool.or_eq_false_iff.mp (hplain only hmem)
    have hne {element : TypeRef} (helement : element.isUnion) : only ≠ element.arrayOf := by
      rw [memberTypes_eq] at hmem
      obtain ⟨member, hmember, rfl⟩ := List.mem_map.mp hmem
      exact type_ne_arrayOf (hmembers member hmember).1 (expression.isWord_of_mem hwords hmember)
        helement
    have honly := not_hidesUnion_only hnullable (beq_eq_false_iff_ne.mp hname) hne
    rw [ofUnion_of_present hpresent]
    split
    · exact honly.1
    · exact honly.2
  · rw [ofUnion_of_several (not_exists.mp hone)]
    rintro (⟨-, arg, harg, hunion⟩ | ⟨element, -, harray | harray⟩)
    · have hmem : arg ∈ expression.memberTypes := by
        dsimp only at harg
        split at harg
        · exact harg
        · exact (List.mem_filter.mp harg).1
      rw [hplain arg hmem] at hunion
      cases hunion
    · exact absurd (congrArg TypeRef.name harray) (show unionName ≠ "Array" by decide)
    · have hname := congrArg TypeRef.name harray
      rw [name_orNull] at hname
      exact absurd hname (show unionName ≠ "Array" by decide)

/-! ### Parentheses that matter hide a union -/

/-- `null` or `undefined` has arguments. -/
def AppliesNull (tokens : List Token) : Prop :=
  ∃ label : Text, (plain label).isNullish = true ∧ [.name label, .mark '<'] <:+: tokens

theorem AppliesNull.mono {inner outer : List Token} (h : AppliesNull inner)
    (hwithin : inner <:+: outer) :
    AppliesNull outer := by
  obtain ⟨label, hlabel, hmem⟩ := h
  exact ⟨label, hlabel, hmem.trans hwithin⟩

/-- A part of a type hides a union. -/
def HasHidden (type : TypeRef) : Prop := ∃ part, IsPartOf part type ∧ HidesUnion part

theorem HasHidden.of_arg {arg : TypeRef} (h : HasHidden arg) (harg : arg ∈ type.args) :
    HasHidden type := by
  obtain ⟨part, hpart, hhides⟩ := h
  exact ⟨part, .argument harg hpart, hhides⟩

theorem HasHidden.orNull (h : HasHidden type) : HasHidden type.orNull := by
  obtain ⟨part, hpart, hhides⟩ := h
  cases hpart with
  | whole => exact ⟨_, .whole, hhides.orNull⟩
  | argument harg hpart => exact ⟨part, .argument (args_orNull type ▸ harg) hpart, hhides⟩

/-- A union has a hidden one if one of its members has, or if one of several members is a union. -/
theorem hasHidden_ofUnion
    (h : ∃ member ∈ present types, HasHidden member ∨ 1 < (present types).length ∧ member.isUnion) :
    HasHidden (ofUnion types) := by
  obtain ⟨member, hmem, hmember⟩ := h
  by_cases hone : ∃ only, present types = [only]
  · obtain ⟨only, hpresent⟩ := hone
    rw [hpresent] at hmem hmember
    obtain rfl := List.mem_singleton.mp hmem
    rcases hmember with hmember | ⟨hlength, -⟩
    · rw [ofUnion_of_present hpresent]
      split
      · exact hmember
      · exact hmember.orNull
    · simp at hlength
  · have hargs : (ofUnion types).args = present types := by
      rw [ofUnion_of_several (not_exists.mp hone)]
      exact if_neg (by simpa using List.ne_nil_of_mem hmem)
    rcases hmember with hmember | ⟨-, hunion⟩
    · exact hmember.of_arg (hargs ▸ hmem)
    · refine ⟨_, .whole, .inl ⟨?_, member, hargs ▸ hmem, hunion⟩⟩
      rw [ofUnion_of_several (not_exists.mp hone)]

private theorem hasHidden_of_joins {expression : TypeExpr} (h : expression.joinsGroup = true) :
    HasHidden expression.type := by
  rw [joinsGroup, Bool.and_eq_true, decide_eq_true_eq, List.any_eq_true] at h
  obtain ⟨hlength, member, hmem, hgrouped⟩ := h
  exact hasHidden_ofUnion
    ⟨member.type, mem_present_of_grouped hmem hgrouped, .inr ⟨hlength, (isUnion_of_grouped hgrouped).1⟩⟩

/-- Parentheses that matter, in a union that has some or in the members of one, hide a union. -/
private theorem hasHidden_union {expression : TypeExpr}
    (hmembers : expression.membersNeedGroup = true → ∃ member ∈ present expression.memberTypes,
      HasHidden member)
    (hneeds : (expression.joinsGroup || expression.membersNeedGroup) = true) :
    HasHidden expression.type := by
  rcases Bool.or_eq_true_iff.mp hneeds with hjoins | hneeds
  · exact hasHidden_of_joins hjoins
  · obtain ⟨member, hmem, hhidden⟩ := hmembers hneeds
    exact hasHidden_ofUnion ⟨member, hmem, .inl hhidden⟩

mutual

private theorem hasHidden_members : ∀ expression : TypeExpr, ¬ AppliesNull expression.tokens →
    expression.membersNeedGroup = true → ∃ member ∈ present expression.memberTypes, HasHidden member
  | .single member, hnull, hneeds => by
    rw [TypeExpr.tokens] at hnull
    rw [membersNeedGroup] at hneeds
    obtain ⟨hpresent, hhidden⟩ := hasHidden_member member hnull hneeds
    rw [memberTypes]
    exact ⟨member.type, List.mem_filter.mpr ⟨List.mem_cons_self, by rw [hpresent]; rfl⟩, hhidden⟩
  | .union member rest, hnull, hneeds => by
    rw [TypeExpr.tokens] at hnull
    rw [membersNeedGroup] at hneeds
    rw [memberTypes]
    rcases Bool.or_eq_true_iff.mp hneeds with hneeds | hneeds
    · have hfront : ¬ AppliesNull member.tokens :=
        fun h => hnull (h.mono (List.prefix_append _ _).isInfix)
      obtain ⟨hpresent, hhidden⟩ := hasHidden_member member hfront hneeds
      exact ⟨member.type, List.mem_filter.mpr ⟨List.mem_cons_self, by rw [hpresent]; rfl⟩, hhidden⟩
    · have hback : ¬ AppliesNull rest.tokens := fun h =>
        hnull (h.mono ((List.suffix_cons _ _).trans (List.suffix_append _ _)).isInfix)
      obtain ⟨type, hmem, hhidden⟩ := hasHidden_members rest hback hneeds
      obtain ⟨hmem, hpresent⟩ := List.mem_filter.mp hmem
      exact ⟨type, List.mem_filter.mpr ⟨List.mem_cons_of_mem _ hmem, hpresent⟩, hhidden⟩

private theorem hasHidden_member : ∀ member : Member, ¬ AppliesNull member.tokens →
    member.needsGroup = true → member.type.isNullish = false ∧ HasHidden member.type
  | .plain base, hnull, hneeds => by
    rw [Member.tokens] at hnull
    rw [Member.needsGroup] at hneeds
    rw [Member.type]
    exact hasHidden_primary base hnull hneeds
  | .array element, hnull, hneeds => by
    rw [Member.tokens] at hnull
    rw [Member.needsGroup] at hneeds
    rw [Member.type]
    refine ⟨rfl, ?_⟩
    rcases Bool.or_eq_true_iff.mp hneeds with hgrouped | hneeds
    · exact ⟨_, .whole, .inr ⟨element.type, (isUnion_of_grouped hgrouped).1, .inl rfl⟩⟩
    · have hinner : ¬ AppliesNull element.tokens :=
        fun h => hnull (h.mono (List.prefix_append _ _).isInfix)
      exact (hasHidden_member element hinner hneeds).2.of_arg (List.mem_singleton.mpr rfl)

private theorem hasHidden_primary : ∀ base : Primary, ¬ AppliesNull base.tokens →
    base.needsGroup = true → base.type.isNullish = false ∧ HasHidden base.type
  | .name label, _, hneeds => by
    rw [Primary.needsGroup] at hneeds
    cases hneeds
  | .applied label arguments, hnull, hneeds => by
    rw [Primary.tokens] at hnull
    rw [Primary.needsGroup] at hneeds
    rw [Primary.type]
    have hinner : ¬ AppliesNull arguments.tokens := fun h => hnull (h.mono
      ⟨[.name label, .mark '<'], [.mark '>'], by rw [List.append_assoc]; rfl⟩)
    obtain ⟨type, hmem, hhidden⟩ := hasHidden_arguments arguments hinner hneeds
    refine ⟨?_, hhidden.of_arg hmem⟩
    -- a label with arguments is not that of null
    rw [← Bool.not_eq_true]
    exact fun hlabel => hnull ⟨label, hlabel, [], _, rfl⟩
  | .group inner, hnull, hneeds => by
    rw [Primary.tokens] at hnull
    rw [Primary.needsGroup] at hneeds
    rw [Primary.type]
    have hinner : ¬ AppliesNull inner.tokens := fun h => hnull (h.mono ⟨[.mark '('], [.mark ')'], rfl⟩)
    exact ⟨isNullish_ofUnion inner.memberTypes, hasHidden_union (hasHidden_members inner hinner) hneeds⟩

private theorem hasHidden_arguments : ∀ arguments : Arguments, ¬ AppliesNull arguments.tokens →
    arguments.needGroup = true → ∃ type ∈ arguments.types, HasHidden type
  | .single argument, hnull, hneeds => by
    rw [Arguments.tokens] at hnull
    rw [Arguments.needGroup] at hneeds
    rw [Arguments.types]
    exact ⟨_, List.mem_cons_self, hasHidden_union (hasHidden_members argument hnull) hneeds⟩
  | .more argument rest, hnull, hneeds => by
    rw [Arguments.tokens] at hnull
    rw [Arguments.needGroup] at hneeds
    rw [Arguments.types]
    rcases Bool.or_eq_true_iff.mp hneeds with hneeds | hneeds
    · have hfront : ¬ AppliesNull argument.tokens :=
        fun h => hnull (h.mono (List.prefix_append _ _).isInfix)
      exact ⟨_, List.mem_cons_self, hasHidden_union (hasHidden_members argument hfront) hneeds⟩
    · have hback : ¬ AppliesNull rest.tokens := fun h =>
        hnull (h.mono ((List.suffix_cons _ _).trans (List.suffix_append _ _)).isInfix)
      obtain ⟨type, hmem, hhidden⟩ := hasHidden_arguments rest hback hneeds
      exact ⟨type, List.mem_cons_of_mem _ hmem, hhidden⟩

end

/-! ### Texts that give the type again -/

/-- The text of a part that hides a union does not give it again. -/
private theorem parse_ne_of_hidesUnion {part : TypeRef} (hlegible : IsLegible part.text)
    (hhides : HidesUnion part) (element : Text) : parse part.text element ≠ .ok part := by
  obtain ⟨expression, hfree, hsplits⟩ := hlegible
  intro heq
  have hagain : parse part.text element = .ok expression.type :=
    parse_eq_ok_iff.mpr ⟨expression, hsplits, rfl⟩
  obtain rfl : expression.type = part := Except.ok.inj (hagain.symm.trans heq)
  exact not_hidesUnion hfree hsplits.isWord hhides

/-- The texts of a type and of its parts are types.  Without parentheses that matter they are these
types again, only a mere `null` among them is read as the union of nothing else.  With some, and
unless `null` has arguments, they are not: the texts of all parts give these again exactly if no
parentheses matter and no part is a mere `null`. -/
theorem texts_settle {text element : Text} {type : TypeRef} {expression : TypeExpr}
    (hwritten : Splits text expression.tokens) (hread : parse text element = .ok type)
    (element' : Text) :
    (∀ part, IsPartOf part type → ∃ again, parse part.text element' = .ok again) ∧
    (expression.needsGroup = false → ∀ part, IsPartOf part type → parse part.text element' =
      .ok (if part.isNullish then ⟨unionName, [part], true, part.text⟩ else part)) ∧
    (¬ AppliesNull expression.tokens →
      ((∀ part, IsPartOf part type → parse part.text element' = .ok part) ↔
      expression.needsGroup = false ∧ ∀ part, IsPartOf part type → part.isNullish = false)) := by
  have htype : parse text element = .ok expression.type :=
    parse_eq_ok_iff.mpr ⟨expression, hwritten, rfl⟩
  obtain rfl : expression.type = type := Except.ok.inj (htype.symm.trans hread)
  have hlegible : AreLegible expression.type := areLegible_type hwritten.isWord
  have hagain (hgroup : expression.needsGroup = false) (part : TypeRef)
      (hpart : IsPartOf part expression.type) :=
    parse_text hwritten hgroup hread hpart element'
  refine ⟨fun part hpart => ?_, hagain, fun hnull => ⟨fun hall => ⟨?_, fun part hpart => ?_⟩, ?_⟩⟩
  · obtain ⟨free, -, hsplits⟩ := hlegible part hpart
    exact ⟨free.type, parse_eq_ok_iff.mpr ⟨free, hsplits, rfl⟩⟩
  · rw [← Bool.not_eq_true]
    intro hneeds
    obtain ⟨part, hpart, hhides⟩ := hasHidden_union (hasHidden_members expression hnull) hneeds
    exact parse_ne_of_hidesUnion (hlegible part hpart) hhides element' (hall part hpart)
  · obtain ⟨other, -, hother⟩ := parse_eq_ok_iff.mp (hall part hpart)
    exact hother ▸ isNullish_ofUnion other.memberTypes
  · rintro ⟨hgroup, hpresent⟩ part hpart
    rw [hagain hgroup part hpart, hpresent part hpart]
    rfl

/-- A list of boxes, or `undefined`: the text of what is in a box gives it again.  The text of an
array of unions does not: it has lost its parentheses. -/
theorem texts_settle_arrays :
    let boxes : TypeRef := ⟨"Array", [applied "Box" [⟨"Date", [], true, "Date | null"⟩]], true,
      "Box<Date | null>[] | null"⟩
    let union : TypeRef := ⟨unionName, [plain "string", plain "number"], false, "string | number"⟩
    let wrong : TypeRef :=
      ⟨unionName, [plain "string", (plain "number").arrayOf], false, "string | number[]"⟩
    (parse "Box<Date|null>[] | undefined" "field" = .ok boxes ∧
      ∀ part, IsPartOf part boxes → parse part.text "field" =
        .ok (if part.isNullish then ⟨unionName, [part], true, part.text⟩ else part)) ∧
    (parse "(string | number)[]" "field" = .ok union.arrayOf ∧ union.arrayOf.text = "string | number[]" ∧
      parse union.arrayOf.text "field" = .ok wrong ∧
      ¬ ∀ part, IsPartOf part union.arrayOf → parse part.text "field" = .ok part) := by
  intro boxes union wrong
  constructor
  · let missing : Member := .plain (.name "null")
    let box : Member :=
      .plain (.applied "Box" (.single (.union (.plain (.name "Date")) (.single missing))))
    let written : TypeExpr := .union (.array box) (.single (.plain (.name "undefined")))
    have hwritten : Splits "Box<Date|null>[] | undefined" written.tokens := tokens?_eq_some_iff.mp rfl
    have hread : parse "Box<Date|null>[] | undefined" "field" = .ok boxes :=
      parse_eq_ok_iff.mpr ⟨written, hwritten, rfl⟩
    exact ⟨hread, (texts_settle hwritten hread "field").2.1 rfl⟩
  · let written : TypeExpr :=
      .single (.array
        (.plain (.group (.union (.plain (.name "string")) (.single (.plain (.name "number")))))))
    have hwritten : Splits "(string | number)[]" written.tokens := tokens?_eq_some_iff.mp rfl
    have hread : parse "(string | number)[]" "field" = .ok union.arrayOf :=
      parse_eq_ok_iff.mpr ⟨written, hwritten, rfl⟩
    have hwrong : parse "string | number[]" "field" = .ok wrong :=
      parse_eq_ok_iff.mpr ⟨.union (.plain (.name "string")) (.single (.array (.plain (.name "number")))),
        tokens?_eq_some_iff.mp rfl, rfl⟩
    have hnull : ¬ AppliesNull written.tokens := by
      rintro ⟨label, -, hmem⟩
      have hmark : Token.mark '<' ∈ written.tokens := hmem.subset (by simp)
      simp [written, TypeExpr.tokens, Member.tokens, Primary.tokens, CodeUnit.ofChar] at hmark
    refine ⟨hread, rfl, hwrong, fun hall => ?_⟩
    cases (((texts_settle hwritten hread "field").2.2 hnull).mp hall).1

end TypeRef

end JsonCompanion
