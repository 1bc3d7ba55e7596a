import Mathlib.Data.List.Perm.Subperm
import JsonCompanion.Proofs.Read.Fields
import JsonCompanion.Read.Unit

/-!
# Classes with their superclasses

A class takes over what its superclasses declare, as far as the module declares these.

* `IsLineage` lists a class and its superclasses, the nearest one first; `lineage_eq` says that this
  is the line that is read if its classes have distinct names.
* `LocatedClass.field?` is the field that a class by itself has under a name.
* `IsInFront` compares the places of two names: that of the class that declares it, and that in the
  class.
* `ofLocated_flattens`: every name that a class of the line declares has the field of the nearest
  one that does, in the place of that declaration, and the parameters are those of the nearest
  constructor.
-/

namespace JsonCompanion

open Script

variable {context : ClassSource} {located parent : LocatedClass} {line : List LocatedClass} {name : Text}

/-! ### Lines of classes -/

/-- The class of the module that a class extends, under the name that its superclass is written as. -/
def ClassSource.parent? (context : ClassSource) (located : LocatedClass) : Option LocatedClass :=
  (supertypeOf? context located.content).bind context.lookup?

/-- A class and its superclasses up to one that extends no class of the module. -/
inductive IsLineage (context : ClassSource) : LocatedClass → List LocatedClass → Prop
  | root {located : LocatedClass} (h : context.parent? located = none) : IsLineage context located
      [located]
  | extends {located parent : LocatedClass} {line : List LocatedClass}
      (hparent : context.parent? located = some parent)
    (hline : IsLineage context parent line) : IsLineage context located (located :: line)

/-- A superclass is the class of its name. -/
theorem name_of_lookup? (h : context.lookup? name = some parent) :
    parent ∈ context.classes ∧ parent.content.name = some name := by
  unfold ClassSource.lookup? at h
  have hname := List.find?_some h
  exact ⟨List.mem_reverse.1 (List.mem_of_find?_eq_some h), eq_of_beq hname⟩

private theorem IsLineage.mem_classes (h : IsLineage context located line) :
    ∃ rest, line = located :: rest ∧ ∀ other ∈ rest, other ∈ context.classes := by
  induction h with
  | root _ => exact ⟨[], rfl, fun other hother => absurd hother List.not_mem_nil⟩
  | @«extends» located parent line hparent _ ih =>
    obtain ⟨rest, rfl, hrest⟩ := ih
    obtain ⟨name, -, hlookup⟩ := Option.bind_eq_some_iff.1 hparent
    exact ⟨_, rfl, List.forall_mem_cons.2 ⟨(name_of_lookup? hlookup).1, hrest⟩⟩

/-- A line of distinct classes is no longer than the classes of the module are many, the first one
not counted. -/
private theorem IsLineage.length_le (h : IsLineage context located line)
    (hnames : (line.map fun other => other.content.name).Nodup) :
    line.length ≤ context.classes.length + 1 := by
  obtain ⟨rest, rfl, hrest⟩ := h.mem_classes
  have hnodup : rest.Nodup := (List.nodup_cons.1 (List.Nodup.of_map _ hnames)).2
  have hlength := (hnodup.subperm hrest).length_le
  rw [List.length_cons]
  omega

/-- A line is followed if it is not longer than allowed and no name in it is passed before. -/
private theorem lineage_eq (h : IsLineage context located line) {limit : Nat} {passed : List Text}
    (hnames : (line.map fun other => other.content.name).Nodup) (hlimit : line.length ≤ limit + 1)
    (hpassed : ∀ other ∈ line, ∀ name ∈ other.content.name, name ∉ passed) :
    lineage context limit passed located = line := by
  -- the names passed are those of the classes in front, which are all different
  induction h generalizing limit passed with
  | @root located hroot =>
    cases limit with
    | zero => rfl
    | succ limit =>
      have hnone : (do
          let name ← supertypeOf? context located.content
          if passed.contains name then none else context.lookup? name : Option LocatedClass) = none := by
        refine Option.bind_eq_none_iff.2 fun name hname => ?_
        have hlookup := Option.bind_eq_none_iff.1 hroot name hname
        split
        · rfl
        · exact hlookup
      rw [lineage]
      split
      · next hsome => exact absurd (hsome.symm.trans hnone) (by simp)
      · rfl
  | @«extends» located parent line hparent hline ih =>
    obtain ⟨rest, rfl, -⟩ := hline.mem_classes
    obtain ⟨name, hname, hlookup⟩ := Option.bind_eq_some_iff.1 hparent
    have hown := (name_of_lookup? hlookup).2
    cases limit with
    | zero => simp at hlimit
    | succ limit =>
      have hnew : passed.contains name = false := by
        have := hpassed parent (by simp) name hown
        simpa using this
      have hsome : (do
          let name ← supertypeOf? context located.content
          if passed.contains name then none else context.lookup? name : Option LocatedClass) =
            some parent := by
        refine Option.bind_eq_some_iff.2 ⟨name, hname, ?_⟩
        rw [hnew, if_neg Bool.false_ne_true, hlookup]
      rw [List.map_cons, List.nodup_cons] at hnames
      rw [lineage]
      split
      · next other hother =>
        obtain rfl := Option.some.inj (hother.symm.trans hsome)
        rw [ih hnames.2 (by simpa using hlimit)]
        intro other hmem name hname hin
        rcases List.mem_append.1 hin with hin | hin
        · -- the name just passed is that of no other class of the line
          have heq : located.content.name = some name := Option.mem_toList.1 hin
          exact hnames.1 (List.mem_map.2 ⟨other, hmem, (Option.mem_def.1 hname).trans heq.symm⟩)
        · exact hpassed other (List.mem_cons_of_mem _ hmem) name hname hin
      · next hnone => exact absurd (hsome.symm.trans hnone) (by simp)

/-! ### What a class declares itself -/

/-- The fields that the members of a class mention, in order. -/
def Script.LocatedClass.mentions (context : ClassSource) (located : LocatedClass) : List Mention :=
  located.content.members.flatMap (Member.mentions context)

/-- A class declares a name itself. -/
def Script.LocatedClass.declares (context : ClassSource) (located : LocatedClass) (name : Text) : Bool :=
  (located.mentions context).any fun mention => mention.name == name

/-- The field that a class by itself has under a name. -/
def Script.LocatedClass.field? (context : ClassSource) (located : LocatedClass) (name : Text) :
    Option Field :=
  (draftOf? (mentionsOf (located.mentions context) name)).map FieldDraft.field

/-- A class by itself has fields under the names that it declares. -/
theorem Script.LocatedClass.isSome_field? (context : ClassSource) (located : LocatedClass)
    (name : Text) :
    (located.field? context name).isSome = located.declares context name := by
  unfold LocatedClass.field? LocatedClass.declares
  rw [Option.isSome_map, Bool.eq_iff_iff, Option.isSome_iff_ne_none, Ne, draftOf?_eq_none_iff]
  unfold mentionsOf
  simp

variable {own : OwnShape} {shapes : List OwnShape}

private theorem declares_iff (h : ownShape context located = .ok own) :
    located.declares context name = true ↔ name ∈ own.drafts.map FieldDraft.name := by
  rw [(ownShape_collects h).mem_names_iff name]
  unfold LocatedClass.declares LocatedClass.mentions
  rw [List.any_eq_true]
  simp only [beq_iff_eq]

/-! ### Places of names -/

/-- The distance of the nearest class of a line that declares a name. -/
def declaredAt (context : ClassSource) (line : List LocatedClass) (name : Text) : Nat :=
  line.findIdx fun located => located.declares context name

/-- The class that declares the first name is nearer to the root than that of the second one, or
both are the same, and it mentions the first name earlier. -/
def IsInFront (context : ClassSource) (chain : List LocatedClass) (first second : Text) : Prop :=
  declaredAt context chain second < declaredAt context chain first ∨
    declaredAt context chain first = declaredAt context chain second ∧
      ∃ located, chain[declaredAt context chain first]? = some located ∧
        ((located.mentions context).map Mention.name).idxOf first <
          ((located.mentions context).map Mention.name).idxOf second

private theorem declaredAt_own (h : located.declares context name = true) :
    declaredAt context (located :: line) name = 0 := by
  unfold declaredAt
  rw [List.findIdx_cons, h, cond_true]

private theorem declaredAt_inherited (h : located.declares context name = false) :
    declaredAt context (located :: line) name = declaredAt context line name + 1 := by
  unfold declaredAt
  rw [List.findIdx_cons, h, cond_false]

/-- The own names of a class stand in the order in which they are first declared. -/
private theorem own_inFront (h : ownShape context located = .ok own) :
    (own.drafts.map FieldDraft.field).Pairwise fun first second =>
      IsInFront context (located :: line) first.name second.name := by
  have hcollects := ownShape_collects h
  have hfirst := (distinct_firstSeen ((located.mentions context).map Mention.name)).pairwise
  rw [LocatedClass.mentions, ← hcollects.names_eq, List.pairwise_map] at hfirst
  rw [List.pairwise_map]
  refine hfirst.imp_of_mem fun {first second} hin hin' hlt => ?_
  have hown : located.declares context first.name = true := (declares_iff h).2 (List.mem_map_of_mem hin)
  have hown' : located.declares context second.name = true :=
    (declares_iff h).2 (List.mem_map_of_mem hin')
  refine .inr ⟨?_, located, ?_, hlt⟩
  · show declaredAt context (located :: line) first.name = declaredAt context
      (located :: line) second.name
    rw [declaredAt_own hown, declaredAt_own hown']
  · show (located :: line)[declaredAt context (located :: line) first.name]? = some located
    rw [declaredAt_own hown]
    rfl

/-! ### Flattening -/

/-- The fields and the parameters that a line of classes gives to a class. -/
structure Flattens (context : ClassSource) (line : List LocatedClass) (model : ClassModel) : Prop where
  nodup : (model.fields.map Field.name).Nodup
  mem_iff : ∀ name, name ∈ model.fields.map Field.name ↔ ∃ located ∈ line,
    located.declares context name = true
  /-- The field of a name is that of the nearest class that declares it. -/
  find?_eq : ∀ name, model.fields.find? (fun field => field.name == name) =
    line.findSome? fun located => located.field? context name
  inOrder : model.fields.Pairwise fun first second => IsInFront context line first.name second.name
  /-- The parameters are those of the nearest constructor; without one there are none. -/
  parameters_eq : ((line.findSome? LocatedClass.constructor?).getD []).mapM parameterOf? =
    some model.parameters

variable (hshapes : List.Forall₂ (fun located shape => ownShape context located = .ok shape) line shapes)

include hshapes

private theorem find?_foldr (name : Text) :
    (shapes.foldr inherit ([], none)).1.find? (fun field => field.name == name) =
    line.findSome? fun located => located.field? context name := by
  induction hshapes with
  | nil => rfl
  | @cons located shape line shapes hshape _ ih =>
    rw [List.foldr_cons, find?_inherit, ih, (ownShape_collects hshape).find?_eq, List.findSome?_cons]
    show (located.field? context name).or _ = _
    cases located.field? context name with
    | none => rfl
    | some field => rfl

private theorem parameters_foldr : (shapes.foldr inherit ([], none)).2.map some =
    (line.findSome? LocatedClass.constructor?).map (List.mapM parameterOf?) := by
  induction hshapes with
  | nil => rfl
  | @cons located shape line shapes hshape _ ih =>
    rw [List.foldr_cons]
    show (shape.parameters.or (shapes.foldr inherit ([], none)).2).map some = _
    rw [Option.map_or, ih, ownShape_parameters hshape, ← Option.map_or, List.findSome?_cons]
    cases located.constructor? with
    | none => rfl
    | some patterns => rfl

private theorem foldr_inFront : (shapes.foldr inherit ([], none)).1.Pairwise fun first second =>
    IsInFront context line first.name second.name := by
  induction hshapes with
  | nil => exact .nil
  | @cons located shape line shapes hshape _ ih =>
    rw [List.foldr_cons]
    generalize shapes.foldr inherit ([], none) = inherited at ih ⊢
    -- inherited fields are those that the class itself does not declare
    have hkept {field : Field}
        (hfield : field ∈ inherited.1.filter fun field =>
          !(shape.drafts.map FieldDraft.field).any fun o => o.name == field.name) :
        located.declares context field.name = false := by
      refine Bool.eq_false_iff.2 fun hdeclares => ?_
      obtain ⟨draft, hdraft, hname⟩ := List.mem_map.1 ((declares_iff hshape).1 hdeclares)
      have hany := (List.mem_filter.1 hfield).2
      rw [Bool.not_eq_true', List.any_eq_false] at hany
      exact hany draft.field (List.mem_map_of_mem hdraft) (beq_iff_eq.2 hname)
    unfold inherit
    dsimp only
    refine List.pairwise_append.2 ⟨?_, own_inFront hshape, fun first hfirst second hsecond => ?_⟩
    · -- one more class in front of the line moves all inherited names alike
      refine (ih.sublist List.filter_sublist).imp_of_mem fun {first second} hfirst hsecond hfront => ?_
      unfold IsInFront
      rw [declaredAt_inherited (hkept hfirst), declaredAt_inherited (hkept hsecond),
        List.getElem?_cons_succ, Nat.add_lt_add_iff_right, Nat.add_right_cancel_iff]
      exact hfront
    · obtain ⟨draft, hdraft, rfl⟩ := List.mem_map.1 hsecond
      have hown : located.declares context draft.field.name = true :=
        (declares_iff hshape).2 (List.mem_map_of_mem hdraft)
      refine .inl ?_
      rw [declaredAt_own hown, declaredAt_inherited (hkept hfirst)]
      exact Nat.succ_pos _

omit hshapes

/-- A class with superclasses of distinct names has the fields that its line declares and the
parameters of its nearest constructor. -/
theorem ofLocated_flattens {model : ClassModel} (hline : IsLineage context located line)
    (hnames : (line.map fun other => other.content.name).Nodup)
    (hmodel : ClassModel.ofLocated context located = .ok model) : Flattens context line model := by
  have hnodup := nodup_fields hmodel
  unfold ClassModel.ofLocated at hmodel
  have hlength := hline.length_le hnames
  rw [lineage_eq hline hnames (by omega) fun _ _ _ _ => List.not_mem_nil] at hmodel
  obtain ⟨shapes, hshapes, hmodel⟩ := Attempt.of_bind_ok hmodel
  have hshapes := Attempt.of_mapM_ok hshapes
  have hfind := find?_foldr hshapes
  have hparameters := parameters_foldr hshapes
  have horder := foldr_inFront hshapes
  -- of the fold only these three facts matter
  generalize shapes.foldr inherit ([], none) = flattened at hmodel hfind hparameters horder
  obtain ⟨fields, parameters⟩ := flattened
  obtain rfl := Except.ok.inj hmodel
  refine ⟨hnodup, fun name => ?_, hfind, horder, ?_⟩
  · have hmem : name ∈ fields.map Field.name ↔
        (fields.find? fun field => field.name == name).isSome = true := by
      simp
    rw [hmem, hfind, List.findSome?_isSome_iff]
    simp only [LocatedClass.isSome_field?]
  · cases hconstructor : line.findSome? LocatedClass.constructor? with
    | none =>
      rw [hconstructor, Option.map_none, Option.map_eq_none_iff] at hparameters
      rw [show parameters = none from hparameters]
      rfl
    | some patterns =>
      rw [hconstructor, Option.map_some] at hparameters
      obtain ⟨list, rfl, hlist⟩ := Option.map_eq_some_iff.1 hparameters
      exact hlist.symm

/-- Of three classes the middle one hides the accessor of the root, and the last one its first field. -/
theorem ofLocated_flattens_shapes :
    let source : Text := "class A { y; get x() {} constructor(a, b = 2) { this.z = a; } }
      class B extends A { x; w; } class C extends B { set y(v) {} }"
    ∃ context located line model, context.source = source ∧ IsLineage context located line ∧
      (line.map fun other => other.content.name).Nodup ∧
        ClassModel.ofLocated context located = .ok model ∧
      Flattens context line model ∧
      line.map (fun other => other.content.name) =
        [some ("C" : Text), some ("B" : Text), some ("A" : Text)] ∧
      model.fields.map Field.name = [("z" : Text), "x", "w", "y"] ∧
        model.parameters = [⟨"a", false⟩, ⟨"b", true⟩] := by
  intro source
  have hparsed : (parseModule "a.js" source).toOption.any fun module =>
      let context : ClassSource := ⟨source, module.comments, module.classes⟩
      module.classes.getLast?.any fun last => (context.parent? last).any fun middle =>
        (context.parent? middle).any fun root =>
        (ClassModel.ofLocated context last).toOption.any fun model =>
          decide (context.parent? root).isNone &&
          decide ([last, middle, root].map (fun other => other.content.name) =
              [some ("C" : Text), some ("B" : Text), some ("A" : Text)] ∧
            model.fields.map Field.name = [("z" : Text), "x", "w", "y"] ∧
            model.parameters = [⟨"a", false⟩, ⟨"b", true⟩]) := by
    decide +kernel
  clear_value source
  obtain ⟨module, -, hmodule⟩ := Attempt.exists_of_any hparsed
  obtain ⟨last, -, hlast⟩ := (Option.any_eq_true _ _).1 hmodule
  obtain ⟨middle, hmiddle, hrest⟩ := (Option.any_eq_true _ _).1 hlast
  obtain ⟨root, hroot, hrest⟩ := (Option.any_eq_true _ _).1 hrest
  obtain ⟨model, hmodel, hfacts⟩ := Attempt.exists_of_any hrest
  obtain ⟨hend, hfacts⟩ := Bool.and_eq_true_iff.1 hfacts
  obtain ⟨hnames, hfields, hparameters⟩ := of_decide_eq_true hfacts
  have hline :=
    IsLineage.extends hmiddle
    (.extends hroot (.root (Option.isNone_iff_eq_none.1 (of_decide_eq_true hend))))
  have hnodup : ([last, middle, root].map fun other => other.content.name).Nodup := by
    rw [hnames]
    decide
  exact ⟨_, last, [last, middle, root], model, rfl, hline, hnodup, hmodel,
    ofLocated_flattens hline hnodup hmodel, hnames, hfields, hparameters⟩

end JsonCompanion
