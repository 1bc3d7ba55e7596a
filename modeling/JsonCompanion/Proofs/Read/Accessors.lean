import JsonCompanion.Proofs.Read.Fields
import JsonCompanion.Read.Unit

/-!
# Accessors and the order of members

What a field says about reading and writing it comes from the mentions of its name, and these come
in the order of the members.  Without documentation comments only one thing depends on that order: a
name that is mentioned by a value and by one half of an accessor.

* `flagsOf` are the flags that mentions of one name amount to: those of the halves that are written,
  unless a value is mentioned first.
* `IsMixed` says that a value and exactly one half of an accessor are mentioned.
* `classFlags_settle`: the fields of a class have the flags of their mentions, and a name has the
  same flags for all orders of the members exactly if its mentions are not mixed.
-/

namespace JsonCompanion

open Script

/-! ### Flags -/

deriving instance DecidableEq for FieldDrafts.Half

/-- What a field says about reading and writing it. -/
structure Flags where
  isFinal : Bool
  hasGetter : Bool
  hasSetter : Bool
  deriving DecidableEq

def Field.flags (field : Field) : Flags := ⟨field.isFinal, field.hasGetter, field.hasSetter⟩

/-- The flags of an accessor; without a setter it is final. -/
def Flags.ofHalves (hasGetter hasSetter : Bool) : Flags := ⟨!hasSetter, hasGetter, hasSetter⟩

/-- One of the mentions is by this half of an accessor, or by a value. -/
def mentions? (mentions : List Mention) (half : Option FieldDrafts.Half) : Bool :=
  mentions.any fun mention => mention.half == half

/-- The flags that mentions of one name amount to if none has a tag: a value in front stands for
both halves. -/
def flagsOf (mentions : List Mention) : Flags :=
  let isValue := mentions? (mentions.take 1) none
  .ofHalves (isValue || mentions? mentions (some .getter)) (isValue || mentions? mentions (some .setter))

/-- A value and exactly one half of an accessor are mentioned. -/
def IsMixed (mentions : List Mention) : Prop :=
  mentions? mentions none = true ∧ mentions? mentions (some .getter) ≠ mentions? mentions (some .setter)

instance (mentions : List Mention) : Decidable (IsMixed mentions) := inferInstanceAs (Decidable (_ ∧ _))

/-! ### Mentions without tags -/

variable {mentions : List Mention} {draft : FieldDraft}

private theorem foldl_behind (mentions : List Mention)
    (hplain : ∀ mention ∈ mentions, mention.tags = .none) (draft : FieldDraft) :
    ∃ final : FieldDraft,
      mentions.foldl (fun draft? mention => some (.behind draft? mention)) (some draft) = some final ∧
      final.isReadonly = draft.isReadonly ∧ final.isAccessor = draft.isAccessor ∧
      final.hasGetter = (draft.hasGetter || mentions? mentions (some .getter)) ∧
      final.hasSetter = (draft.hasSetter || mentions? mentions (some .setter)) := by
  induction mentions generalizing draft with
  | nil => exact ⟨draft, rfl, rfl, rfl, (Bool.or_false _).symm, (Bool.or_false _).symm⟩
  | cons mention mentions ih =>
    obtain ⟨htags, hplain⟩ := List.forall_mem_cons.1 hplain
    obtain ⟨final, hfinal, hreadonly, haccessor, hgetter, hsetter⟩ :=
      ih hplain (.behind (some draft) mention)
    refine ⟨final, hfinal, ?_⟩
    rw [hreadonly, haccessor, hgetter, hsetter]
    unfold mentions? FieldDraft.behind
    rw [List.any_cons, List.any_cons]
    match hhalf : mention.half with
    | none => simp
    | some .getter =>
      have hother : (FieldDrafts.Half.getter == .setter) = false := rfl
      simp [FieldDrafts.join, htags, DocTags.none, hother]
    | some .setter =>
      have hother : (FieldDrafts.Half.setter == .getter) = false := rfl
      simp [FieldDrafts.join, htags, DocTags.none, hother]

/-- Mentions without tags amount to a field with their flags. -/
private theorem flags_draftOf? (hplain : ∀ mention ∈ mentions, mention.tags = .none)
    (hdraft : draftOf? mentions = some draft) : draft.field.flags = flagsOf mentions := by
  cases mentions with
  | nil => cases hdraft
  | cons first rest =>
    obtain ⟨htags, hplain⟩ := List.forall_mem_cons.1 hplain
    obtain ⟨final, hfinal, hreadonly, haccessor, hgetter, hsetter⟩ :=
      foldl_behind rest hplain (.behind none first)
    obtain rfl := Option.some.inj (hdraft.symm.trans hfinal)
    unfold FieldDraft.field Field.flags flagsOf Flags.ofHalves
    rw [hreadonly, haccessor, hgetter, hsetter]
    unfold mentions? FieldDraft.behind
    rw [List.any_cons, List.any_cons, List.take_succ_cons, List.take_zero, List.any_cons, List.any_nil]
    match hhalf : first.half with
    | none => simp [htags, DocTags.none]
    | some .getter => simp [FieldDrafts.join, htags, DocTags.none]
    | some .setter => simp [FieldDrafts.join, htags, DocTags.none]

/-- The flags of mentions that are not mixed do not depend on which comes first. -/
private theorem flagsOf_eq_of_not_isMixed (hmixed : ¬ IsMixed mentions) :
    flagsOf mentions = .ofHalves (mentions? mentions none || mentions? mentions (some .getter))
      (mentions? mentions none || mentions? mentions (some .setter)) := by
  cases mentions with
  | nil => rfl
  | cons first rest =>
    have hfirst : mentions? ((first :: rest).take 1) none = (first.half == none) := by
      simp [mentions?]
    unfold flagsOf
    rw [hfirst]
    cases hvalue : mentions? (first :: rest) none with
    | false =>
      have hnone : (first.half == none) = false := (Bool.or_eq_false_iff.1 hvalue).1
      rw [hnone]
    | true =>
      -- beside a value both halves are mentioned or none
      have hsame :
          mentions? (first :: rest) (some .getter) = mentions? (first :: rest) (some .setter) := by
        by_contra hne
        exact hmixed ⟨hvalue, hne⟩
      match hhalf : first.half with
      | none => rfl
      | some .getter =>
        have hgetter : mentions? (first :: rest) (some .getter) = true := by
          simp [mentions?, hhalf]
        rw [← hsame, hgetter]
        rfl
      | some .setter =>
        have hsetter : mentions? (first :: rest) (some .setter) = true := by
          simp [mentions?, hhalf]
        rw [hsame, hsetter]
        rfl

/-! ### Orders of members -/

variable {context : ClassSource} {located : LocatedClass} {model : ClassModel} {member : Member}
  {members members' : List Member} {name : Text}

/-- The mentions of a name in members, in order. -/
def mentionsIn (context : ClassSource) (members : List Member) (name : Text) : List Mention :=
  mentionsOf (members.flatMap (Member.mentions context)) name

private theorem mentionsIn_cons : mentionsIn context (member :: members) name =
    mentionsOf (member.mentions context) name ++ mentionsIn context members name := by
  unfold mentionsIn mentionsOf
  rw [List.flatMap_cons, List.filter_append]

private theorem mentions?_perm (hperm : members.Perm members') (half : Option FieldDrafts.Half) :
    mentions? (mentionsIn context members name) half =
      mentions? (mentionsIn context members' name) half :=
  ((hperm.flatMap_right _).filter _).any_eq

/-- All mentions of a member are of one kind. -/
private theorem exists_half (context : ClassSource) (member : Member) :
    ∃ half, ∀ mention ∈ member.mentions context, mention.half = half := by
  unfold Member.mentions
  split
  · exact ⟨none, fun mention hmention => by rw [List.mem_singleton.1 hmention]⟩
  · exact ⟨some .getter, fun mention hmention => by rw [List.mem_singleton.1 hmention]⟩
  · exact ⟨some .setter, fun mention hmention => by rw [List.mem_singleton.1 hmention]⟩
  · refine ⟨none, fun mention hmention => ?_⟩
    obtain ⟨effect, -, hmention⟩ := List.mem_filterMap.1 hmention
    obtain ⟨name, -, rfl⟩ := Option.map_eq_some_iff.1 hmention
    rfl
  · exact ⟨none, fun mention hmention => absurd hmention List.not_mem_nil⟩

/-- A kind of mention that occurs comes first in some order of the members. -/
private theorem exists_mentionedFirst {half : Option FieldDrafts.Half}
    (h : mentions? (mentionsIn context members name) half = true) :
    ∃ members', members'.Perm members ∧ ∀ other,
      mentions? ((mentionsIn context members' name).take 1) other = (half == other) := by
  obtain ⟨mention, hmention, hhalf⟩ := List.any_eq_true.1 h
  obtain ⟨hin, hname⟩ := List.mem_filter.1 hmention
  obtain ⟨member, hmember, hmentioned⟩ := List.mem_flatMap.1 hin
  obtain ⟨before, behind, rfl⟩ := List.append_of_mem hmember
  refine ⟨member :: (before ++ behind), List.perm_middle.symm, fun other => ?_⟩
  obtain ⟨first, rest, hfirst⟩ : ∃ first rest,
    mentionsOf (member.mentions context) name = first :: rest :=
    List.exists_cons_of_ne_nil (List.ne_nil_of_mem (List.mem_filter.2 ⟨hmentioned, hname⟩))
  have hfirstof : first ∈ mentionsOf (member.mentions context) name := hfirst ▸ List.mem_cons_self
  obtain ⟨kind, hkind⟩ := exists_half context member
  have hsame : first.half = half := by
    rw [hkind first (List.mem_filter.1 hfirstof).1, ← hkind mention hmentioned, eq_of_beq hhalf]
  rw [mentionsIn_cons, hfirst, List.cons_append, List.take_succ_cons, List.take_zero]
  simp [mentions?, hsame]

/-! ### Classes without documentation -/

/-- The places in front of which a member, or an assignment in it, may be documented. -/
def Script.Member.places (member : Member) : List Nat :=
  member.start :: match member.role with
    | .constructor _ effects => effects.map Effect.start
    | _ => []

/-- No documentation comment stands at a place that is looked at for one. -/
def Script.LocatedClass.IsUndocumented (context : ClassSource) (located : LocatedClass) : Prop :=
  ∀ member ∈ located.content.members, ∀ place ∈ member.places,
    docCommentBefore? context.source context.comments place = none

instance (context : ClassSource) (located : LocatedClass) : Decidable (located.IsUndocumented context) :=
  inferInstanceAs (Decidable (∀ _ ∈ _, ∀ _ ∈ _, _ = _))

/-- The flags of the field of a name. -/
def fieldFlags? (fields : List Field) (name : Text) : Option Flags :=
  (fields.find? fun field => field.name == name).map Field.flags

private theorem tags_eq_none (hplain : located.IsUndocumented context)
    (hperm : members.Perm located.content.members) :
    ∀ mention ∈ members.flatMap (Member.mentions context), mention.tags = .none := by
  intro mention hmention
  obtain ⟨member, hmember, hmention⟩ := List.mem_flatMap.1 hmention
  have hplaces : ∀ place ∈ member.places, context.tagsBefore place = .none := by
    intro place hplace
    unfold ClassSource.tagsBefore
    rw [hplain member (hperm.mem_iff.1 hmember) place hplace]
    rfl
  unfold Member.places at hplaces
  have hstart := hplaces member.start List.mem_cons_self
  unfold Member.mentions at hmention
  split at hmention
  · rwa [List.mem_singleton.1 hmention]
  · rwa [List.mem_singleton.1 hmention]
  · rwa [List.mem_singleton.1 hmention]
  · rename_i hrole
    obtain ⟨effect, heffect, hmention⟩ := List.mem_filterMap.1 hmention
    obtain ⟨name, -, rfl⟩ := Option.map_eq_some_iff.1 hmention
    rw [hrole] at hplaces
    exact hplaces effect.start (List.mem_cons_of_mem _ (List.mem_map_of_mem heffect))
  · cases hmention

/-- A name that the class mentions has the flags of its mentions, any other the flags that are
inherited. -/
private theorem fieldFlags?_inherit {own : OwnShape} {mentions : List Mention}
    (hown : Collects own.drafts mentions) (hplain : ∀ mention ∈ mentions, mention.tags = .none)
    (inherited : List Field × Option (List Parameter)) (name : Text) :
    fieldFlags? (inherit own inherited).1 name =
      if (mentionsOf mentions name).isEmpty then fieldFlags? inherited.1 name
      else some (flagsOf (mentionsOf mentions name)) := by
  unfold fieldFlags?
  rw [find?_inherit, hown.find?_eq]
  cases hdraft : draftOf? (mentionsOf mentions name) with
  | none =>
    rw [draftOf?_eq_none_iff.1 hdraft, Option.map_none, Option.none_or]
    rfl
  | some draft =>
    have hne : ¬ (mentionsOf mentions name).isEmpty = true := by
      intro hempty
      rw [List.isEmpty_iff.1 hempty] at hdraft
      cases hdraft
    have hflags : draft.field.flags = flagsOf (mentionsOf mentions name) :=
      flags_draftOf? (fun mention hmention => hplain mention (List.mem_filter.1 hmention).1) hdraft
    rw [if_neg hne, Option.map_some, Option.some_or, Option.map_some, hflags]

/-- The flags of a name after reading: those of its mentions, or those that are inherited. -/
private def flagsAfter (inherited? : Option Flags) (mentions : List Mention) : Option Flags :=
  if mentions.isEmpty then inherited? else some (flagsOf mentions)

/-- A class can be read with its members in any order, and what it inherits is the same. -/
private theorem exists_reread (hmodel : ClassModel.ofLocated context located = .ok model)
    (hplain : located.IsUndocumented context) (name : Text) : ∃ inherited?,
      fieldFlags? model.fields name = flagsAfter inherited?
        (mentionsIn context located.content.members name) ∧
        ∀ members, members.Perm located.content.members → ∃ other,
          ClassModel.ofLocated context (located.withMembers members) = .ok other ∧
            fieldFlags? other.fields name = flagsAfter inherited? (mentionsIn context members name) := by
  obtain ⟨own, inherited, hown, hfields, hreread⟩ := exists_inherited hmodel
  refine ⟨fieldFlags? inherited.1 name, ?_, fun members hperm => ?_⟩
  · rw [hfields]
    exact fieldFlags?_inherit (ownShape_collects hown) (tags_eq_none hplain (.refl _)) inherited name
  · obtain ⟨shape, hshape⟩ := exists_ownShape_of_perm hown hperm
    obtain ⟨other, hother, hfields⟩ := hreread members shape hshape
    refine ⟨other, hother, ?_⟩
    rw [hfields]
    exact fieldFlags?_inherit (ownShape_collects hshape) (tags_eq_none hplain hperm) inherited name

private theorem flagsAfter_perm (inherited? : Option Flags) (hperm : members.Perm members')
    (hmixed : ¬ IsMixed (mentionsIn context members' name)) :
    flagsAfter inherited? (mentionsIn context members name) = flagsAfter inherited?
      (mentionsIn context members' name) := by
  have hmentions (half : Option FieldDrafts.Half) : mentions? (mentionsIn context members name) half =
      mentions? (mentionsIn context members' name) half := mentions?_perm hperm half
  have hempty : (mentionsIn context members name).isEmpty = (mentionsIn context members' name).isEmpty :=
    ((hperm.flatMap_right _).filter _).isEmpty_eq
  have hmixed' : ¬ IsMixed (mentionsIn context members name) := by
    unfold IsMixed
    rwa [hmentions, hmentions, hmentions]
  unfold flagsAfter
  rw [hempty, flagsOf_eq_of_not_isMixed hmixed', flagsOf_eq_of_not_isMixed hmixed, hmentions,
    hmentions, hmentions]

/-- With a kind of mention in front, a value stands for both halves, and a half for itself. -/
private theorem exists_flagsAfter (inherited? : Option Flags) {half : Option FieldDrafts.Half}
    (h : mentions? (mentionsIn context members name) half = true) :
    ∃ members', members'.Perm members ∧ flagsAfter inherited? (mentionsIn context members' name) =
      some (.ofHalves ((half == none) || mentions? (mentionsIn context members name) (some .getter))
        ((half == none) || mentions? (mentionsIn context members name) (some .setter))) := by
  obtain ⟨members', hperm, hfirst⟩ := exists_mentionedFirst h
  have hmentions (half : Option FieldDrafts.Half) : mentions? (mentionsIn context members' name) half =
      mentions? (mentionsIn context members name) half := mentions?_perm hperm half
  have hne : ¬ (mentionsIn context members' name).isEmpty = true := by
    intro hempty
    rw [← hmentions, List.isEmpty_iff.1 hempty] at h
    cases h
  refine ⟨members', hperm, ?_⟩
  rw [flagsAfter, if_neg hne, flagsOf, hfirst, hmentions, hmentions]

/-- Two orders of mixed mentions differ in their flags. -/
private theorem exists_flagsAfter_ne (inherited? : Option Flags)
    (hmixed : IsMixed (mentionsIn context members name)) :
    ∃ members₁ members₂, members₁.Perm members ∧ members₂.Perm members ∧
      flagsAfter inherited? (mentionsIn context members₁ name) ≠ flagsAfter inherited?
        (mentionsIn context members₂ name) := by
  obtain ⟨hvalue, hhalves⟩ := hmixed
  obtain ⟨members₁, hperm₁, hflags₁⟩ := exists_flagsAfter inherited? hvalue
  cases hgetter : mentions? (mentionsIn context members name) (some .getter) with
  | true =>
    have hsetter : mentions? (mentionsIn context members name) (some .setter) = false := by
      simpa [hgetter] using hhalves
    obtain ⟨members₂, hperm₂, hflags₂⟩ := exists_flagsAfter inherited? hgetter
    refine ⟨members₁, members₂, hperm₁, hperm₂, ?_⟩
    rw [hflags₁, hflags₂, hgetter, hsetter]
    decide
  | false =>
    have hsetter : mentions? (mentionsIn context members name) (some .setter) = true := by
      simpa [hgetter] using hhalves
    obtain ⟨members₂, hperm₂, hflags₂⟩ := exists_flagsAfter inherited? hsetter
    refine ⟨members₁, members₂, hperm₁, hperm₂, ?_⟩
    rw [hflags₁, hflags₂, hgetter, hsetter]
    decide

/-- What the reading of a class says about reading and writing its fields. -/
structure SettlesFlags (context : ClassSource) (located : LocatedClass) (model : ClassModel) : Prop where
  nodup : (model.fields.map Field.name).Nodup
  flags : ∀ name, mentionsIn context located.content.members name ≠ [] →
    fieldFlags? model.fields name = some (flagsOf (mentionsIn context located.content.members name))
  /-- All orders of the members give a name the same flags exactly if it is not mixed. -/
  order : ∀ name, (∀ members, members.Perm located.content.members → ∃ other,
      ClassModel.ofLocated context (located.withMembers members) = .ok other ∧
        fieldFlags? other.fields name = fieldFlags? model.fields name) ↔
    ¬ IsMixed (mentionsIn context located.content.members name)

theorem classFlags_settle (hmodel : ClassModel.ofLocated context located = .ok model)
    (hplain : located.IsUndocumented context) : SettlesFlags context located model := by
  constructor
  · exact nodup_fields hmodel
  · intro name hne
    obtain ⟨inherited?, hname, -⟩ := exists_reread hmodel hplain name
    rw [hname, flagsAfter, if_neg (by simpa using hne)]
  · intro name
    obtain ⟨inherited?, hname, hreread⟩ := exists_reread hmodel hplain name
    constructor
    · intro hsame hmixed
      obtain ⟨members₁, members₂, hperm₁, hperm₂, hne⟩ := exists_flagsAfter_ne inherited? hmixed
      have hflags (members : List Member) (hperm : members.Perm located.content.members) :
          flagsAfter inherited? (mentionsIn context members name) = fieldFlags? model.fields name := by
        obtain ⟨other, hother, hflags⟩ := hreread members hperm
        obtain ⟨same, hsame, hmodel⟩ := hsame members hperm
        obtain rfl := Except.ok.inj (hsame.symm.trans hother)
        rw [← hflags, hmodel]
      exact hne ((hflags members₁ hperm₁).trans (hflags members₂ hperm₂).symm)
    · intro hmixed members hperm
      obtain ⟨other, hother, hflags⟩ := hreread members hperm
      refine ⟨other, hother, ?_⟩
      rw [hflags, hname, flagsAfter_perm inherited? hperm hmixed]

/-- An assignment in front of a setter makes the field readable, behind it it would not. -/
theorem classFlags_settle_assigned :
    let source : Text := "class A { constructor(v) { this.x = v; } set x(v) {} }"
    ∃ context located model, ClassModel.ofLocated context located = .ok model ∧
      located.IsUndocumented context ∧
      context.source = source ∧ SettlesFlags context located model ∧
      fieldFlags? model.fields "x" = some ⟨false, true, true⟩ ∧
      IsMixed (mentionsIn context located.content.members "x") := by
  intro source
  have hparsed : (parseModule "a.js" source).toOption.any fun module =>
      let context : ClassSource := ⟨source, module.comments, module.classes⟩
      module.classes.any fun located => (ClassModel.ofLocated context located).toOption.any fun model =>
        decide (located.IsUndocumented context ∧
          fieldFlags? model.fields "x" = some ⟨false, true, true⟩ ∧
          IsMixed (mentionsIn context located.content.members "x")) := by
    decide +kernel
  obtain ⟨module, -, hmodule⟩ := Attempt.exists_of_any hparsed
  obtain ⟨located, -, hlocated⟩ := List.any_eq_true.1 hmodule
  obtain ⟨model, hmodel, hfacts⟩ := Attempt.exists_of_any hlocated
  obtain ⟨hplain, hflags, hmixed⟩ := of_decide_eq_true hfacts
  exact ⟨_, located, model, hmodel, hplain, rfl, classFlags_settle hmodel hplain, hflags, hmixed⟩

end JsonCompanion
