import Mathlib.Data.List.Nodup
import JsonCompanion.Proofs.Attempt
import JsonCompanion.Proofs.Compose.Distinct
import JsonCompanion.Read.ClassModel

/-!
# Fields and what mentions them

The members of a class mention fields: they declare one, assign it in the constructor, or are a half
of an accessor.

* `Member.mentions` lists the mentions of a member, and `draftOf?` is what the mentions of one name
  amount to.
* `Collects` says that drafts are those of the mentioned names, each from the mentions of its own
  name alone; `ownShape_collects` says so of what is read.
* `nodup_fields` says that fields have distinct names, and `exists_inherited` takes the fields of a
  class apart into its own and inherited ones.
-/

namespace JsonCompanion

open Script

/-! ### Mentions -/

/-- A place that mentions a field: by a value, or by a half of an accessor. -/
structure Mention where
  name : Text
  half : Option FieldDrafts.Half
  tags : DocTags

/-- The fields that a member mentions, in order. -/
def Script.Member.mentions (context : ClassSource) (member : Member) : List Mention :=
  match member.isStatic, member.key.plainName?, member.role with
  | false, some name, .field _ => [⟨name, none, context.tagsBefore member.start⟩]
  | false, some name, .getter => [⟨name, some .getter, context.tagsBefore member.start⟩]
  | false, some name, .setter => [⟨name, some .setter, context.tagsBefore member.start⟩]
  | false, some _, .constructor _ effects => effects.filterMap fun effect =>
      (assignedField? effect.expr).map fun name => ⟨name, none, context.tagsBefore effect.start⟩
  | _, _, _ => []

/-- The patterns of the parameters, if a member is a constructor. -/
def Script.Member.constructor? (member : Member) : Option (List Pattern) :=
  match member.isStatic, member.key.plainName?, member.role with
  | false, some _, .constructor patterns _ => some patterns
  | _, _, _ => none

/-- The draft of a field behind one more mention of it. -/
def FieldDraft.behind (draft? : Option FieldDraft) (mention : Mention) : FieldDraft :=
  match draft?, mention.half with
  | none, none =>
      ⟨mention.name, mention.tags.type, mention.tags.isPrivate, mention.tags.isReadonly, false,
        true, true⟩
  | none, some half =>
      FieldDrafts.join ⟨mention.name, none, false, false, true, false, false⟩ half mention.tags
  | some draft, none => draft
  | some draft, some half => FieldDrafts.join draft half mention.tags

/-- The draft that mentions of one name amount to. -/
def draftOf? (mentions : List Mention) : Option FieldDraft :=
  mentions.foldl (fun draft? mention => some (.behind draft? mention)) none

/-- The mentions of a name. -/
def mentionsOf (mentions : List Mention) (name : Text) : List Mention :=
  mentions.filter fun mention => mention.name == name

/-- Adds a mention to the drafts found so far. -/
def FieldDrafts.mention (drafts : FieldDrafts) (mention : Mention) : FieldDrafts :=
  match mention.half with
  | none => drafts.addField mention.name mention.tags
  | some half => drafts.addAccessor mention.name half mention.tags

/-! ### Drafts -/

variable {drafts : FieldDrafts} {mentions : List Mention}

/-- The drafts are those of the mentioned names, in the order in which these are first seen. -/
structure Collects (drafts : FieldDrafts) (mentions : List Mention) : Prop where
  names_eq : drafts.map FieldDraft.name = distinct (mentions.map Mention.name)
  draft_eq : ∀ draft ∈ drafts, draftOf? (mentionsOf mentions draft.name) = some draft

private theorem name_behind (draft : FieldDraft) (mention : Mention) :
    (FieldDraft.behind (some draft) mention).name = draft.name := by
  unfold FieldDraft.behind
  cases mention.half with
  | none => rfl
  | some half => rfl

private theorem name_behind_none (mention : Mention) :
    (FieldDraft.behind none mention).name = mention.name := by
  unfold FieldDraft.behind
  cases mention.half with
  | none => rfl
  | some half => rfl

/-- A mention completes the draft of its name, or begins one. -/
private theorem mention_eq (drafts : FieldDrafts) (mention : Mention) :
    drafts.mention mention = if mention.name ∈ drafts.map FieldDraft.name then
        drafts.map fun draft => if draft.name = mention.name then .behind (some draft) mention else draft
      else drafts ++ [.behind none mention] := by
  have hany : (drafts.any fun draft => draft.name == mention.name) =
      decide (mention.name ∈ drafts.map FieldDraft.name) := by
    rw [Bool.eq_iff_iff]
    simp
  unfold FieldDrafts.mention FieldDraft.behind
  cases mention.half with
  | none =>
    simp only [FieldDrafts.addField, hany, decide_eq_true_eq, ite_self, List.map_id']
  | some half => simp only [FieldDrafts.addAccessor, hany, decide_eq_true_eq, beq_iff_eq]

private theorem distinct_concat (names : List Text) (name : Text) :
    distinct (names ++ [name]) = if name ∈ names then distinct names else distinct names ++ [name] := by
  have hseen : distinct (names ++ [name]) =
      if (distinct names).contains name then distinct names else distinct names ++ [name] := by
    unfold distinct
    rw [List.foldl_append]
    rfl
  rw [hseen]
  simp

private theorem draftOf?_concat (mentions : List Mention) (mention : Mention) :
    draftOf? (mentions ++ [mention]) = some (.behind (draftOf? mentions) mention) := by
  unfold draftOf?
  rw [List.foldl_append]
  rfl

theorem draftOf?_eq_none_iff : draftOf? mentions = none ↔ mentions = [] := by
  rcases List.eq_nil_or_concat mentions with rfl | ⟨before, last, rfl⟩
  · simp [draftOf?]
  · simp [draftOf?_concat]

theorem Collects.mem_names_iff (h : Collects drafts mentions) (name : Text) :
    name ∈ drafts.map FieldDraft.name ↔ ∃ mention ∈ mentions, mention.name = name := by
  rw [h.names_eq, mem_distinct, List.mem_map]

theorem Collects.nodup (h : Collects drafts mentions) : (drafts.map FieldDraft.name).Nodup :=
  h.names_eq ▸ distinct_nodup _

/-- The draft of a name is what its mentions amount to. -/
theorem Collects.find?_eq (h : Collects drafts mentions) (name : Text) :
    drafts.find? (fun draft => draft.name == name) = draftOf? (mentionsOf mentions name) := by
  cases hdraft : drafts.find? fun draft => draft.name == name with
  | none =>
    have hunknown : ∀ draft ∈ drafts, draft.name ≠ name := by
      simpa using hdraft
    have hnone : mentionsOf mentions name = [] := by
      refine List.filter_eq_nil_iff.2 fun mention hmention hname => ?_
      obtain ⟨draft, hmem, hsame⟩ :=
        List.mem_map.1 ((h.mem_names_iff name).2 ⟨mention, hmention, eq_of_beq hname⟩)
      exact hunknown draft hmem hsame
    rw [hnone]
    rfl
  | some draft =>
    have hname : draft.name = name := by
      simpa using List.find?_some hdraft
    exact (hname ▸ h.draft_eq draft (List.mem_of_find?_eq_some hdraft)).symm

private theorem Collects.mention (h : Collects drafts mentions) (mention : Mention) :
    Collects (drafts.mention mention) (mentions ++ [mention]) := by
  -- a mention adds to the mentions of its own name only
  have hof (name : Text) : mentionsOf (mentions ++ [mention]) name =
      mentionsOf mentions name ++ if mention.name = name then [mention] else [] := by
    unfold mentionsOf
    rw [List.filter_append, List.filter_cons, List.filter_nil]
    simp only [beq_iff_eq]
  rw [mention_eq]
  by_cases hknown : mention.name ∈ drafts.map FieldDraft.name
  · rw [if_pos hknown]
    constructor
    · have hmem : mention.name ∈ mentions.map Mention.name := by
        rwa [h.names_eq, mem_distinct] at hknown
      rw [List.map_append, List.map_singleton, distinct_concat, if_pos hmem, ← h.names_eq, List.map_map]
      refine List.map_congr_left fun draft _ => ?_
      by_cases hname : draft.name = mention.name
      · simp [hname, name_behind]
      · simp [hname]
    · intro draft hdraft
      obtain ⟨before, hbefore, rfl⟩ := List.mem_map.1 hdraft
      have hdraft := h.draft_eq before hbefore
      by_cases hname : before.name = mention.name
      · rw [if_pos hname, name_behind, hof, if_pos hname.symm, draftOf?_concat, hdraft]
      · rw [if_neg hname, hof, if_neg (Ne.symm hname), List.append_nil, hdraft]
  · rw [if_neg hknown]
    have hnew : mention.name ∉ mentions.map Mention.name := by
      rwa [h.names_eq, mem_distinct] at hknown
    constructor
    · rw [List.map_append, List.map_append, List.map_singleton, List.map_singleton, distinct_concat,
        if_neg hnew, h.names_eq, name_behind_none]
    · intro draft hdraft
      rcases List.mem_append.1 hdraft with hdraft | hdraft
      · have hname : mention.name ≠ draft.name := fun heq => hknown (heq ▸ List.mem_map_of_mem hdraft)
        rw [hof, if_neg hname, List.append_nil, h.draft_eq draft hdraft]
      · obtain rfl := List.mem_singleton.1 hdraft
        have hnone : mentionsOf mentions mention.name = [] := by
          refine List.filter_eq_nil_iff.2 fun other hother hname => hnew ?_
          exact List.mem_map.2 ⟨other, hother, eq_of_beq hname⟩
        rw [name_behind_none, hof, if_pos rfl, hnone]
        rfl

private theorem Collects.foldl (h : Collects drafts mentions) (more : List Mention) :
    Collects (more.foldl FieldDrafts.mention drafts) (mentions ++ more) := by
  induction more generalizing drafts mentions with
  | nil => simpa using h
  | cons mention more ih => simpa using ih (h.mention mention)

/-! ### Members -/

variable {context : ClassSource} {className : Text} {shape shape' : OwnShape} {member : Member}
  {members : List Member}

private theorem addAssignments_eq (context : ClassSource) (drafts : FieldDrafts)
    (effects : List Effect) :
    addAssignments context drafts effects =
      (effects.filterMap fun effect => (assignedField? effect.expr).map fun name =>
        (⟨name, none, context.tagsBefore effect.start⟩ : Mention)).foldl FieldDrafts.mention drafts := by
  unfold addAssignments
  induction effects generalizing drafts with
  | nil => rfl
  | cons effect effects ih =>
    rw [List.foldl_cons, List.filterMap_cons]
    cases assignedField? effect.expr with
    | none => exact ih drafts
    | some name => exact ih _

/-- What is known of the key of a member that is read. -/
private theorem plainName?_of_knownName? {key : Key} {name? : Option Text}
    (h : key.knownName? = .ok name?) :
    key.plainName? = name? := by
  cases key with
  | missing => cases h
  | label name => exact Except.ok.inj h
  | literal value => exact Except.ok.inj h
  | computed value => exact Except.ok.inj h
  | privateName name => exact Except.ok.inj h

/-- A constructor that is read has the parameters of its patterns. -/
private theorem mapM_of_readParameters {position : Nat} {patterns : List Pattern}
    {parameters : List Parameter}
    (h : readParameters className position patterns = .ok parameters) :
    patterns.mapM parameterOf? = some parameters := by
  induction patterns generalizing position parameters with
  | nil =>
    obtain rfl := Except.ok.inj h
    rfl
  | cons pattern patterns ih =>
    unfold readParameters at h
    split at h
    · next hnil => cases hnil
    · cases h
    · next hcons =>
      obtain ⟨rfl, rfl⟩ := List.cons.inj hcons
      split at h
      · next parameter hparameter =>
        obtain ⟨more, hmore, h⟩ := Attempt.of_bind_ok h
        obtain rfl := Except.ok.inj h
        rw [List.mapM_cons, hparameter, ih hmore]
        rfl
      · cases h

/-- What reading a member does to what is known of its class. -/
private structure Adds (context : ClassSource) (className : Text) (shape shape' : OwnShape)
    (member : Member) : Prop where
  drafts_eq : shape'.drafts = (member.mentions context).foldl FieldDrafts.mention shape.drafts
  parameters_eq : shape'.parameters.map some =
    (member.constructor?.map (List.mapM parameterOf?)).or (shape.parameters.map some)
  /-- Whether a member can be read is a matter of the member alone. -/
  repeatable : ∀ other, ∃ other', OwnShape.add context className other member = .ok other'

private theorem adds_of_add (h : OwnShape.add context className shape member = .ok shape') :
    Adds context className shape shape' member := by
  suffices hadds : shape'.drafts = (member.mentions context).foldl FieldDrafts.mention shape.drafts ∧
      shape'.parameters.map some = (member.constructor?.map (List.mapM parameterOf?)).or
        (shape.parameters.map some) ∧
      ∀ other, ∃ other', OwnShape.add context className other member = .ok other' from
    ⟨hadds.1, hadds.2.1, hadds.2.2⟩
  unfold OwnShape.add at h ⊢
  cases hstatic : member.isStatic with
  | true =>
    rw [hstatic, if_pos rfl] at h
    obtain rfl := Except.ok.inj h
    refine ⟨?_, ?_, fun other => ⟨other, rfl⟩⟩
    · simp [Member.mentions, hstatic]
    · simp [Member.constructor?, hstatic]
  | false =>
    simp only [hstatic, Bool.false_eq_true, if_false] at h ⊢
    obtain ⟨name?, hkey, h⟩ := Attempt.of_bind_ok h
    have hname := plainName?_of_knownName? hkey
    rw [hkey]
    cases name? with
    | none =>
      obtain rfl := Except.ok.inj h
      refine ⟨?_, ?_, fun other => ⟨other, rfl⟩⟩
      · simp [Member.mentions, hstatic, hname]
      · simp [Member.constructor?, hstatic, hname]
    | some name =>
      cases hrole : member.role with
      | field value | getter | setter =>
        rw [hrole] at h
        obtain rfl := Except.ok.inj h
        refine ⟨?_, ?_, fun other => ⟨_, rfl⟩⟩
        · simp [Member.mentions, hstatic, hname, hrole, FieldDrafts.mention]
        · simp [Member.constructor?, hstatic, hname, hrole]
      | method =>
        rw [hrole] at h
        obtain rfl := Except.ok.inj h
        refine ⟨?_, ?_, fun other => ⟨_, rfl⟩⟩
        · simp [Member.mentions, hstatic, hname, hrole]
        · simp [Member.constructor?, hstatic, hname, hrole]
      | constructor patterns effects =>
        rw [hrole] at h
        obtain ⟨parameters, hparameters, h⟩ := Attempt.of_bind_ok h
        obtain rfl := Except.ok.inj h
        refine ⟨?_, ?_, fun other =>
          ⟨⟨addAssignments context other.drafts effects, some parameters⟩, ?_⟩⟩
        · simp [Member.mentions, hstatic, hname, hrole, addAssignments_eq]
        · simp [Member.constructor?, hstatic, hname, hrole, mapM_of_readParameters hparameters]
        · show (readParameters className 1 patterns >>= fun parameters => _) = _
          rw [hparameters]
          rfl

private theorem foldlM_drafts (h : members.foldlM (OwnShape.add context className) shape = .ok shape') :
    shape'.drafts = (members.flatMap (Member.mentions context)).foldl FieldDrafts.mention
      shape.drafts := by
  induction members generalizing shape with
  | nil =>
    obtain rfl := Except.ok.inj h
    rfl
  | cons member members ih =>
    rw [List.foldlM_cons] at h
    obtain ⟨next, hnext, h⟩ := Attempt.of_bind_ok h
    rw [ih h, (adds_of_add hnext).drafts_eq, List.flatMap_cons, List.foldl_append]

private theorem foldlM_parameters
    (h : members.foldlM (OwnShape.add context className) shape = .ok shape') :
    shape'.parameters.map some =
      ((members.reverse.findSome? Member.constructor?).map (List.mapM parameterOf?)).or
        (shape.parameters.map some) := by
  induction members generalizing shape with
  | nil =>
    obtain rfl := Except.ok.inj h
    rfl
  | cons member members ih =>
    rw [List.foldlM_cons] at h
    obtain ⟨next, hnext, h⟩ := Attempt.of_bind_ok h
    rw [ih h, (adds_of_add hnext).parameters_eq, List.reverse_cons, List.findSome?_append, Option.map_or,
      Option.or_assoc, List.findSome?_singleton]

/-- Members are read exactly if each of them is. -/
private theorem foldlM_ok_iff (shape : OwnShape) :
    (∃ shape', members.foldlM (OwnShape.add context className) shape = .ok shape') ↔
    ∀ member ∈ members, ∀ before, ∃ behind,
      OwnShape.add context className before member = .ok behind := by
  induction members generalizing shape with
  | nil => simpa using ⟨shape, rfl⟩
  | cons member members ih =>
    rw [List.foldlM_cons, List.forall_mem_cons]
    constructor
    · rintro ⟨shape', h⟩
      obtain ⟨next, hnext, h⟩ := Attempt.of_bind_ok h
      exact ⟨(adds_of_add hnext).repeatable, (ih next).1 ⟨shape', h⟩⟩
    · rintro ⟨hmember, hmembers⟩
      obtain ⟨next, hnext⟩ := hmember shape
      obtain ⟨shape', h⟩ := (ih next).2 hmembers
      exact ⟨shape', by rw [hnext]; exact h⟩

/-! ### A class by itself -/

variable {located : LocatedClass} {own : OwnShape} {model : ClassModel}

/-- The class with other members. -/
def Script.LocatedClass.withMembers (located : LocatedClass) (members : List Member) : LocatedClass :=
  { located with content := { located.content with members } }

private theorem ownShape_eq_ok_iff :
    ownShape context located = .ok own ↔ ∃ name, located.content.name = some name ∧
    name ≠ [] ∧ located.content.members.foldlM (OwnShape.add context name) ⟨[], none⟩ = .ok own := by
  unfold ownShape
  split
  · rename_i hname
    simp [hname]
  · rename_i hname
    simp [hname]
  · rename_i name hname hnamed
    have hne : name ≠ [] := by
      rintro rfl
      exact hname rfl
    simp [hnamed, hne]

/-- The fields of a class are those that its members mention. -/
theorem ownShape_collects (h : ownShape context located = .ok own) :
    Collects own.drafts (located.content.members.flatMap (Member.mentions context)) := by
  obtain ⟨name, -, -, h⟩ := ownShape_eq_ok_iff.1 h
  have hnone : Collects [] [] := ⟨rfl, fun _ hmem => absurd hmem List.not_mem_nil⟩
  rw [foldlM_drafts h]
  exact hnone.foldl _

/-- The patterns of the constructor that a class declares itself; the last one counts. -/
def Script.LocatedClass.constructor? (located : LocatedClass) : Option (List Pattern) :=
  located.content.members.reverse.findSome? Member.constructor?

/-- The parameters of a class by itself are those of its constructor, if it has one. -/
theorem ownShape_parameters (h : ownShape context located = .ok own) :
    own.parameters.map some = located.constructor?.map (List.mapM parameterOf?) := by
  obtain ⟨name, -, -, h⟩ := ownShape_eq_ok_iff.1 h
  rw [foldlM_parameters h, Option.map_none, Option.or_none]
  rfl

/-- A class that can be read can be read with its members in any order. -/
theorem exists_ownShape_of_perm (h : ownShape context located = .ok own)
    (hperm : members.Perm located.content.members) :
    ∃ other, ownShape context (located.withMembers members) = .ok other := by
  obtain ⟨name, hname, hne, h⟩ := ownShape_eq_ok_iff.1 h
  have hmembers := (foldlM_ok_iff _).1 ⟨own, h⟩
  obtain ⟨other, hother⟩ := (foldlM_ok_iff ⟨[], none⟩).2 fun member hmember =>
    hmembers member (hperm.mem_iff.1 hmember)
  exact ⟨other, ownShape_eq_ok_iff.2 ⟨name, hname, hne, hother⟩⟩

/-! ### Inheritance -/

/-- A name stands for the field of the class itself, or else for the inherited one. -/
theorem find?_inherit (own : OwnShape) (inherited : List Field × Option (List Parameter)) (name : Text) :
    (inherit own inherited).1.find? (fun field => field.name == name) =
      ((own.drafts.find? fun draft => draft.name == name).map FieldDraft.field).or
        (inherited.1.find? fun field => field.name == name) := by
  have hown : (own.drafts.map FieldDraft.field).find? (fun field => field.name == name) =
      (own.drafts.find? fun draft => draft.name == name).map FieldDraft.field := List.find?_map
  unfold inherit
  dsimp only
  rw [List.find?_append, hown]
  cases hdraft : own.drafts.find? fun draft => draft.name == name with
  | none =>
    have hunknown : ∀ draft ∈ own.drafts, draft.name ≠ name := by
      simpa using hdraft
    -- no own field hides an inherited one of the name
    have hkept :
        (fun field : Field =>
          decide ((!(own.drafts.map FieldDraft.field).any fun o => o.name == field.name) = true ∧
            (field.name == name) = true)) = fun field => field.name == name := by
      funext field
      rw [Bool.eq_iff_iff, decide_eq_true_eq, and_iff_right_iff_imp, beq_iff_eq]
      rintro rfl
      simpa [FieldDraft.field] using hunknown
    rw [List.find?_filter, hkept, Option.map_none, Option.or_none, Option.none_or]
  | some draft =>
    have hmem := List.mem_of_find?_eq_some hdraft
    have hname : draft.name = name := by
      simpa using List.find?_some hdraft
    -- the own field hides every inherited one of the name
    have hhidden :
        (inherited.1.filter fun field => !(own.drafts.map FieldDraft.field).any fun o =>
          o.name == field.name).find?
        (fun field => field.name == name) = none := by
      refine List.find?_eq_none.2 fun field hfield hsame => ?_
      have hany := (List.mem_filter.1 hfield).2
      rw [Bool.not_eq_true', List.any_eq_false] at hany
      exact hany draft.field (List.mem_map_of_mem hmem)
        (beq_iff_eq.2 (hname.trans (eq_of_beq hsame).symm))
    rw [hhidden, Option.none_or, Option.map_some, Option.some_or]

private theorem exists_ancestors (context : ClassSource) (limit : Nat) (passed : List Text)
    (located : LocatedClass) :
    ∃ others, ∀ members, lineage context limit passed (located.withMembers members) =
      located.withMembers members :: others := by
  cases limit with
  | zero => exact ⟨[], fun members => rfl⟩
  | succ limit =>
    cases hparent : (do
        let name ← supertypeOf? context located.content
        if passed.contains name then none else context.lookup? name : Option LocatedClass) with
    | none =>
      refine ⟨[], fun members => ?_⟩
      rw [lineage]
      split
      · rename_i parent hsome
        exact absurd (hsome.symm.trans hparent) (by simp)
      · rfl
    | some parent =>
      refine ⟨lineage context limit (located.content.name.toList ++ passed) parent, fun members => ?_⟩
      rw [lineage]
      split
      · rename_i other hsome
        obtain rfl := Option.some.inj (hsome.symm.trans hparent)
        rfl
      · rename_i hnone
        exact absurd (hnone.symm.trans hparent) (by simp)

private theorem nodup_inherit {shapes : List OwnShape}
    (h : ∀ shape ∈ shapes, (shape.drafts.map FieldDraft.name).Nodup) :
    ((shapes.foldr inherit ([], none)).1.map Field.name).Nodup := by
  induction shapes with
  | nil => exact .nil
  | cons shape shapes ih =>
    obtain ⟨hshape, hshapes⟩ := List.forall_mem_cons.1 h
    have hbefore := ih hshapes
    rw [List.foldr_cons]
    generalize shapes.foldr inherit ([], none) = inherited at hbefore ⊢
    have hnames :
        (shape.drafts.map FieldDraft.field).map Field.name = shape.drafts.map FieldDraft.name := by
      rw [List.map_map]
      rfl
    unfold inherit
    dsimp only
    rw [List.map_append, hnames]
    refine List.nodup_append.2 ⟨hbefore.sublist (List.filter_sublist.map _), hshape, ?_⟩
    rintro name hkept _ hown rfl
    obtain ⟨field, hfield, rfl⟩ := List.mem_map.1 hkept
    rw [← hnames] at hown
    obtain ⟨other, hother, hname⟩ := List.mem_map.1 hown
    have hhidden := (List.mem_filter.1 hfield).2
    rw [Bool.not_eq_true', List.any_eq_false] at hhidden
    exact hhidden other hother (beq_iff_eq.2 hname)

/-- The fields of a class are inherited ones, as far as none of its own hides them, and its
own.  What it inherits does not depend on its members. -/
theorem exists_inherited (h : ClassModel.ofLocated context located = .ok model) : ∃ own inherited,
    ownShape context located = .ok own ∧ model.fields = (inherit own inherited).1 ∧
      ∀ members other, ownShape context (located.withMembers members) = .ok other → ∃ reread,
        ClassModel.ofLocated context (located.withMembers members) = .ok reread ∧
          reread.fields = (inherit other inherited).1 := by
  obtain ⟨others, hline⟩ := exists_ancestors context (2 * context.classes.length + 2) [] located
  have hsame : located.withMembers located.content.members = located := rfl
  unfold ClassModel.ofLocated at h ⊢
  dsimp only at h ⊢
  have hfirst := hline located.content.members
  rw [hsame] at hfirst
  rw [hfirst] at h
  obtain ⟨shapes, hshapes, h⟩ := Attempt.of_bind_ok h
  rw [List.mapM_cons] at hshapes
  obtain ⟨own, hown, hshapes⟩ := Attempt.of_bind_ok hshapes
  obtain ⟨ancestors, hancestors, hshapes⟩ := Attempt.of_bind_ok hshapes
  obtain rfl := Except.ok.inj hshapes
  obtain rfl := Except.ok.inj h
  refine ⟨own, ancestors.foldr inherit ([], none), hown, rfl, fun members other hother => ?_⟩
  rw [hline members, List.mapM_cons, hother, hancestors]
  exact ⟨_, rfl, rfl⟩

/-- A class that has a model has a name, which is the name of the model. -/
theorem name_of_ofLocated (h : ClassModel.ofLocated context located = .ok model) :
    located.content.name = some model.name := by
  obtain ⟨own, inherited, hown, -, -⟩ := exists_inherited h
  obtain ⟨name, hname, -, -⟩ := ownShape_eq_ok_iff.1 hown
  unfold ClassModel.ofLocated at h
  obtain ⟨shapes, -, h⟩ := Attempt.of_bind_ok h
  obtain rfl := Except.ok.inj h
  rw [hname]
  rfl

/-- The names of the fields of a class are distinct, inherited ones included. -/
theorem nodup_fields (h : ClassModel.ofLocated context located = .ok model) :
    (model.fields.map Field.name).Nodup := by
  unfold ClassModel.ofLocated at h
  obtain ⟨shapes, hshapes, h⟩ := Attempt.of_bind_ok h
  obtain rfl := Except.ok.inj h
  refine nodup_inherit fun shape hshape => ?_
  have hread := Attempt.of_mapM_ok hshapes
  obtain ⟨i, hi, rfl⟩ := List.getElem_of_mem hshape
  exact (ownShape_collects (hread.get (hread.length_eq ▸ hi) hi)).nodup

end JsonCompanion
