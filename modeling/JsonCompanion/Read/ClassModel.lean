import JsonCompanion.Read.Declarations
import JsonCompanion.Read.DocComment
import JsonCompanion.Read.StaticValue

/-!
# Reading classes

* `FieldDrafts` collects fields, accessors and assignments of the constructor under their names.
* `lineage` lists a class and its superclasses as far as the module declares them and none comes
  twice.
* `ClassModel.ofLocated` puts inherited fields first; a class that declares a field or a constructor
  itself hides the inherited one.
* `readAnnotations` reads the static properties that annotate a class.
-/

namespace JsonCompanion

open Script

/-- The module around a class. -/
structure ClassSource where
  source : Text
  comments : List Comment
  classes : List LocatedClass

/-- The tags of the documentation comment before an offset. -/
def ClassSource.tagsBefore (context : ClassSource) (offset : Nat) : DocTags :=
  .ofComment (docCommentBefore? context.source context.comments offset)

/-! ### Fields -/

/-- What is known of a field so far. -/
structure FieldDraft where
  name : Text
  type : Option Text
  isPrivate : Bool
  isReadonly : Bool
  isAccessor : Bool
  hasGetter : Bool
  hasSetter : Bool

/-- The fields found so far, in the order in which their names were first seen. -/
abbrev FieldDrafts := List FieldDraft

namespace FieldDrafts

/-- Adds a field unless its name is known. -/
def addField (drafts : FieldDrafts) (name : Text) (tags : DocTags) : FieldDrafts :=
  if drafts.any fun draft => draft.name == name then drafts
  else drafts ++ [⟨name, tags.type, tags.isPrivate, tags.isReadonly, false, true, true⟩]

/-- The halves of an accessor. -/
inductive Half
  | getter
  | setter

/-- Completes a draft by a half of an accessor. -/
def join (draft : FieldDraft) (half : Half) (tags : DocTags) : FieldDraft :=
  { draft with
    type := draft.type.or tags.type
    isPrivate := draft.isPrivate || tags.isPrivate
    isReadonly := draft.isReadonly || tags.isReadonly
    hasGetter := match half with
      | .getter => true
      | .setter => draft.hasGetter
    hasSetter := match half with
      | .getter => draft.hasSetter
      | .setter => true }

/-- Adds a half of an accessor to the field of its name, which is new if the name is. -/
def addAccessor (drafts : FieldDrafts) (name : Text) (half : Half) (tags : DocTags) : FieldDrafts :=
  if drafts.any fun draft => draft.name == name then
    drafts.map fun draft => if draft.name == name then join draft half tags else draft
  else drafts ++ [join ⟨name, none, false, false, true, false, false⟩ half tags]

end FieldDrafts

/-- The field of a draft; an accessor without setter is final. -/
def FieldDraft.field (draft : FieldDraft) : Field where
  name := draft.name
  type := draft.type.getD "unknown"
  isPrivate := draft.isPrivate
  isFinal := draft.isReadonly || (draft.isAccessor && !draft.hasSetter)
  hasGetter := draft.hasGetter
  hasSetter := draft.hasSetter

/-! ### Constructors -/

/-- The parameter that a pattern declares: a name, perhaps with a default. -/
def parameterOf? : Pattern → Option Parameter
  | .name name => some ⟨name, false⟩
  | .withDefault (.name name) => some ⟨name, true⟩
  | _ => none

/-- The parameters of a constructor, counted from a position on. -/
def readParameters (className : Text) (position : Nat) : List Pattern → Attempt (List Parameter)
  | [] => .ok []
  | .withDefault .missing :: _ => .error missingPart
  | pattern :: patterns =>
    match parameterOf? pattern with
    | some parameter => do return parameter :: (← readParameters className (position + 1) patterns)
    | none => .error (.configuration ("Constructor parameter " ++ Text.ofNat position ++ " of " ++
        className.quoted ++ " must be an identifier, optionally with a default value.")
        (some className))

/-- The field that an expression of a constructor assigns: `this.name = …`. -/
def assignedField? : Expr → Option Text
  | .assign true (.member .this key) _ => key.plainName?
  | _ => none

/-- Adds the fields that a constructor assigns. -/
def addAssignments (context : ClassSource) (drafts : FieldDrafts) (effects : List Effect) :
    FieldDrafts :=
  effects.foldl (fun drafts effect =>
    match assignedField? effect.expr with
    | some name => drafts.addField name (context.tagsBefore effect.start)
    | none => drafts) drafts

/-! ### A class by itself -/

/-- What a class declares itself, without its superclasses. -/
structure OwnShape where
  drafts : FieldDrafts
  parameters : Option (List Parameter)

/-- Adds what a member of a class declares. -/
def OwnShape.add (context : ClassSource) (className : Text) (shape : OwnShape) (member : Member) :
    Attempt OwnShape := do
  if member.isStatic then return shape
  match ← member.key.knownName? with
  | some name =>
    let tags := context.tagsBefore member.start
    match member.role with
    | .field _ => .ok { shape with drafts := shape.drafts.addField name tags }
    | .getter => .ok { shape with drafts := shape.drafts.addAccessor name .getter tags }
    | .setter => .ok { shape with drafts := shape.drafts.addAccessor name .setter tags }
    | .method => .ok shape
    | .constructor patterns effects => do
      let parameters ← readParameters className 1 patterns
      .ok ⟨addAssignments context shape.drafts effects, some parameters⟩
  | none => .ok shape

/-- The text that names the superclass: its name, or the expression as it is written. -/
def supertypeOf? (context : ClassSource) (body : ClassBody) : Option Text :=
  body.superclass.map fun base =>
    match base.expr with
    | .name name => name
    | _ => context.source.slice base.span.start base.span.stop

/-- What a class declares, members in order. -/
def ownShape (context : ClassSource) (located : LocatedClass) : Attempt OwnShape :=
  match located.content.name with
  | none => .error (.configuration "Serializable classes must be named." none)
  | some [] => .error (.configuration "Serializable classes must be named." none)
  | some name =>
    located.content.members.foldlM (OwnShape.add context name) ⟨[], none⟩

/-! ### Inheritance -/

/-- The class that a name stands for: the last one declared under it. -/
def ClassSource.lookup? (context : ClassSource) (name : Text) : Option LocatedClass :=
  context.classes.reverse.find? fun located => located.content.name == some name

/-- A class and its superclasses up to a number of them, none under a name already passed. -/
def lineage (context : ClassSource) : (limit : Nat) → (passed : List Text) → LocatedClass →
    List LocatedClass
  | 0, _, located => [located]
  | limit + 1, passed, located =>
    let parent := do
      let name ← supertypeOf? context located.content
      if passed.contains name then none else context.lookup? name
    match parent with
    | some parent =>
      located :: lineage context limit (located.content.name.toList ++ passed) parent
    | none => [located]

/-- Puts inherited fields before own ones; those of a name that is declared again are hidden. -/
def inherit (own : OwnShape) (inherited : List Field × Option (List Parameter)) :
    List Field × Option (List Parameter) :=
  let fields := own.drafts.map FieldDraft.field
  let kept := inherited.1.filter fun field => !fields.any fun o => o.name == field.name
  (kept ++ fields, own.parameters.or inherited.2)

/-- The shape of a class at the top of a module.  No lineage is longer than twice the number of
classes. -/
def ClassModel.ofLocated (context : ClassSource) (located : LocatedClass) : Attempt ClassModel := do
  let line := lineage context (2 * context.classes.length + 2) [] located
  let shapes ← line.mapM (ownShape context)
  let (fields, parameters) := shapes.foldr inherit ([], none)
  return {
    name := located.content.name.getD []
    fields
    parameters := parameters.getD []
    typeParameters := (context.tagsBefore located.statement).templates
    supertype := supertypeOf? context located.content }

/-! ### Annotations -/

/-- The annotations of a class. -/
structure Annotations where
  isAnnotated : Bool
  annotation : Value
  fieldAnnotations : Value

/-- Adds what a member says about its class: the static properties `jsonSerializable` and
`jsonKeys`. -/
def Annotations.add (className : Text) (annotations : Annotations) (member : Member) :
    Attempt Annotations :=
  match member.isStatic, member.role, member.key.plainName? with
  | true, .field value, some name =>
    if name == ("jsonSerializable" : Text) then do
      let content ← match value with
        | some expr => expr.value (className ++ ".jsonSerializable")
        | none => .ok (.bool true)
      .ok { annotations with isAnnotated := true, annotation := content }
    else if name == ("jsonKeys" : Text) then
      match value with
      | some expr => do
        .ok { annotations with fieldAnnotations := ← expr.value (className ++ ".jsonKeys") }
      | none => .ok annotations
    else .ok annotations
  | _, _, _ => .ok annotations

/-- The annotations of a class; a later property replaces an earlier one. -/
def readAnnotations (className : Text) (body : ClassBody) : Attempt Annotations :=
  body.members.foldlM (Annotations.add className) ⟨false, .undefined, .undefined⟩

end JsonCompanion
