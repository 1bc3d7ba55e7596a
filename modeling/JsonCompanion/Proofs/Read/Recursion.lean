import Mathlib.Data.Finset.Card
import JsonCompanion.Proofs.Read.Inheritance

/-!
# Reading along superclasses

Reading a class goes on to its superclass and ends, whatever the classes of the module extend.

* `Reads` is the recursion: what a class is read as behind some passed names, and how many calls
  that takes.
* `exists_reads_declared`: behind a class that the module declares under a new name there are no
  more calls than names that are not passed; such a class that extends itself is read once more.
* `Reads.eq_ofLine`: a line of at least as many classes gives what the recursion gives.
* `ofLocated_terminates`: so every class is read, as a model with distinct fields or with a failure.
-/

namespace JsonCompanion

open Script

variable {context : ClassSource} {passed : List Text} {located parent : LocatedClass}
  {line : List LocatedClass}
  {calls limit bound : Nat} {result : Attempt ClassModel} {own : OwnShape} {name : Text}

/-! ### The recursion -/

/-- The superclass that is read next: the class of a name that is not passed. -/
def ClassSource.next? (context : ClassSource) (passed : List Text) (located : LocatedClass) :
    Option LocatedClass := do
  let name ← supertypeOf? context located.content
  if passed.contains name then none else context.lookup? name

/-- The model of a class with what it takes over from its superclass. -/
def ClassModel.extending (context : ClassSource) (located : LocatedClass) (own : OwnShape)
    (parent? : Option ClassModel) :
    ClassModel :=
  let inherited := (parent?.map fun parent => (parent.fields, some parent.parameters)).getD ([], none)
  { name := located.content.name.getD []
    fields := (inherit own inherited).1
    parameters := (inherit own inherited).2.getD []
    typeParameters := (context.tagsBefore located.statement).templates
    supertype := supertypeOf? context located.content }

/-- What a class is read as behind names that are passed, with the number of calls for superclasses. -/
inductive Reads (context : ClassSource) :
    (passed : List Text) → LocatedClass → (calls : Nat) → Attempt ClassModel → Prop
  | failed {passed : List Text} {located : LocatedClass} {failure : Failure}
    (hown : ownShape context located = .error failure) : Reads context passed located 0 (.error failure)
  | root {passed : List Text} {located : LocatedClass} {own : OwnShape}
      (hown : ownShape context located = .ok own)
    (hparent : context.next? passed located = none) :
    Reads context passed located 0 (.ok (.extending context located own none))
  | «extends» {passed : List Text} {located parent : LocatedClass} {own : OwnShape} {calls : Nat}
    {result : Attempt ClassModel} (hown : ownShape context located = .ok own)
    (hparent : context.next? passed located = some parent)
    (hreads : Reads context (located.content.name.toList ++ passed) parent calls result) :
    Reads context passed located (calls + 1)
      (result.map fun model => .extending context located own (some model))

private theorem next?_eq_some_iff : context.next? passed located = some parent ↔
    ∃ name, supertypeOf? context located.content = some name ∧ name ∉ passed ∧
      context.lookup? name = some parent := by
  simp only [ClassSource.next?, Option.bind_eq_bind, Option.bind_eq_some_iff, List.contains_eq_mem,
    decide_eq_true_eq, ite_eq_iff, reduceCtorEq, and_false, false_or]

/-! ### Termination -/

/-- A class is read if its superclass is. -/
private theorem exists_reads_of_next (hparent : ∀ parent, context.next? passed located = some parent →
      ∃ calls result, Reads context (located.content.name.toList ++ passed) parent calls result ∧
      calls < bound) :
    ∃ calls result, Reads context passed located calls result ∧ calls ≤ bound := by
  cases hown : ownShape context located with
  | error failure => exact ⟨0, _, .failed hown, bound.zero_le⟩
  | ok own =>
    cases hnext : context.next? passed located with
    | none => exact ⟨0, _, .root hown hnext, bound.zero_le⟩
    | some parent =>
      obtain ⟨calls, result, hreads, hlt⟩ := hparent parent hnext
      exact ⟨calls + 1, _, .extends hown hnext hreads, hlt⟩

/-- The names under which the module declares classes. -/
def ClassSource.names (context : ClassSource) : Finset Text :=
  (context.classes.filterMap fun c => c.content.name).toFinset

/-- The names of classes that are not passed. -/
def ClassSource.remaining (context : ClassSource) (passed : List Text) : Finset Text :=
  context.names \ passed.toFinset

private theorem mem_names_of_lookup? (h : context.lookup? name = some located) :
    name ∈ context.names := by
  obtain ⟨hmem, hname⟩ := name_of_lookup? h
  exact List.mem_toFinset.2 (List.mem_filterMap.2 ⟨located, hmem, hname⟩)

private theorem card_remaining_cons_lt (hname : name ∈ context.names) (hnew : name ∉ passed) :
    (context.remaining (name :: passed)).card < (context.remaining passed).card := by
  refine Finset.card_lt_card (Finset.ssubset_iff_of_subset ?_ |>.2 ⟨name, ?_, ?_⟩)
  · rw [ClassSource.remaining, List.toFinset_cons]
    exact Finset.sdiff_subset_sdiff (Finset.Subset.refl _) (Finset.subset_insert name _)
  · exact Finset.mem_sdiff.2 ⟨hname, fun hmem => hnew (List.mem_toFinset.1 hmem)⟩
  · simp [ClassSource.remaining]

private theorem card_remaining_le (context : ClassSource) (passed : List Text) :
    (context.remaining passed).card ≤ context.names.card :=
  Finset.card_le_card Finset.sdiff_subset

private theorem exists_reads_declared (hlookup : context.lookup? name = some located)
    (hnew : name ∉ passed) :
    ∃ calls result, Reads context passed located calls result ∧
      calls ≤ (context.remaining passed).card := by
  induction hcard : (context.remaining
    passed).card using Nat.strong_induction_on generalizing passed located name with
  | _ card ih =>
    subst hcard
    have hless := card_remaining_cons_lt (mem_names_of_lookup? hlookup) hnew
    refine exists_reads_of_next fun parent hparent => ?_
    obtain ⟨supertype, hsupertype, hfresh, hlookup'⟩ := next?_eq_some_iff.1 hparent
    rw [(name_of_lookup? hlookup).2, Option.toList_some, List.singleton_append]
    by_cases hself : supertype = name
    · -- the class extends itself: its own name is passed now, so that it is read once more and no further
      obtain rfl := Option.some.inj ((hself ▸ hlookup').symm.trans hlookup)
      have hend : context.next? (name :: passed) parent = none := by
        simp [ClassSource.next?, hsupertype, hself]
      have hlast : ∃ calls result, Reads context (name :: passed) parent calls result ∧ calls ≤ 0 :=
        exists_reads_of_next fun other hother => by rw [hend] at hother; cases hother
      obtain ⟨calls, result, hreads, hcalls⟩ := hlast
      exact ⟨calls, result, hreads, by omega⟩
    · obtain ⟨calls, result, hreads, hcalls⟩ := ih _ hless hlookup'
        (by simpa only [List.mem_cons, not_or] using ⟨hself, hfresh⟩) rfl
      exact ⟨calls, result, hreads, by omega⟩

/-- Reading ends.  The first class may be another one than that of its name, and is counted apart. -/
private theorem exists_reads (context : ClassSource) (located : LocatedClass) :
    ∃ calls result, Reads context [] located calls result ∧ calls ≤ context.names.card + 1 := by
  refine exists_reads_of_next fun parent hparent => ?_
  obtain ⟨supertype, hsupertype, -, hlookup⟩ := next?_eq_some_iff.1 hparent
  by_cases hself : located.content.name = some supertype
  · -- the superclass has the name of the class, which is passed
    rw [hself, Option.toList_some, List.append_nil]
    have hless :=
      card_remaining_cons_lt (mem_names_of_lookup? hlookup) (List.not_mem_nil (a := supertype))
    have hparent : ∃ calls result, Reads context [supertype] parent calls result ∧
        calls ≤ (context.remaining []).card := by
      refine exists_reads_of_next fun next hnext => ?_
      obtain ⟨other, -, hother, hlookup'⟩ := next?_eq_some_iff.1 hnext
      rw [(name_of_lookup? hlookup).2, Option.toList_some, List.singleton_append]
      have hnew : other ∉ [supertype, supertype] := by simpa using hother
      obtain ⟨calls, result, hreads, hcalls⟩ := exists_reads_declared hlookup' hnew
      have hsame : context.remaining [supertype, supertype] = context.remaining [supertype] := by
        simp [ClassSource.remaining]
      rw [hsame] at hcalls
      exact ⟨calls, result, hreads, by omega⟩
    obtain ⟨calls, result, hreads, hcalls⟩ := hparent
    have hle := card_remaining_le context []
    exact ⟨calls, result, hreads, by omega⟩
  · have hnew : supertype ∉ located.content.name.toList ++ [] := by simpa using hself
    obtain ⟨calls, result, hreads, hcalls⟩ := exists_reads_declared hlookup hnew
    have hle := card_remaining_le context (located.content.name.toList ++ [])
    exact ⟨calls, result, hreads, by omega⟩

/-! ### Lines -/

/-- What a line of classes gives to the first one. -/
private def ofLine (context : ClassSource) (located : LocatedClass) (line : List LocatedClass) :
    Attempt ClassModel := do
  let shapes ← line.mapM (ownShape context)
  let inherited := shapes.foldr inherit ([], none)
  return {
    name := located.content.name.getD []
    fields := inherited.1
    parameters := inherited.2.getD []
    typeParameters := (context.tagsBefore located.statement).templates
    supertype := supertypeOf? context located.content }

private theorem ofLocated_eq_ofLine (context : ClassSource) (located : LocatedClass) :
    ClassModel.ofLocated context located =
      ofLine context located (lineage context (2 * context.classes.length + 2) [] located) := rfl

private theorem lineage_root (hparent : context.next? passed located = none) (limit : Nat) :
    lineage context limit passed located = [located] := by
  cases limit with
  | zero => rfl
  | succ limit =>
    rw [ClassSource.next?] at hparent
    rw [lineage, hparent]

private theorem lineage_extends (hparent : context.next? passed located = some parent) (limit : Nat) :
    lineage context (limit + 1) passed located =
      located :: lineage context limit (located.content.name.toList ++ passed) parent := by
  rw [ClassSource.next?] at hparent
  rw [lineage, hparent]

private theorem exists_lineage (context : ClassSource) (limit : Nat) (passed : List Text)
    (located : LocatedClass) :
    ∃ others, lineage context limit passed located = located :: others := by
  cases hparent : context.next? passed located with
  | none => exact ⟨[], lineage_root hparent limit⟩
  | some parent =>
    cases limit with
    | zero => exact ⟨[], rfl⟩
    | succ limit => exact ⟨_, lineage_extends hparent limit⟩

private theorem ofLine_failed {failure : Failure} (hown : ownShape context located = .error failure) :
    ofLine context located (located :: line) = .error failure := by
  rw [ofLine, List.mapM_cons, hown]
  rfl

private theorem ofLine_cons (hown : ownShape context located = .ok own) :
    ofLine context located (located :: line) =
    (ofLine context parent line).map fun model => .extending context located own (some model) := by
  rw [ofLine, ofLine, List.mapM_cons, hown]
  cases line.mapM (ownShape context) with
  | error failure => rfl
  | ok shapes =>
    obtain ⟨drafts, parameters⟩ := own
    cases parameters with
    | none => rfl
    | some parameters => rfl

/-- The line of the read classes gives what the recursion gives. -/
private theorem Reads.eq_ofLine (h : Reads context passed located calls result)
    (hlimit : calls ≤ limit) :
    ofLine context located (lineage context limit passed located) = result := by
  induction h generalizing limit with
  | @failed passed located failure hown =>
    obtain ⟨others, hline⟩ := exists_lineage context limit passed located
    rw [hline, ofLine_failed hown]
  | root hown hparent =>
    rw [lineage_root hparent, ofLine, List.mapM_cons, hown]
    rfl
  | @«extends» passed located parent own calls result hown hparent _ ih =>
    cases limit with
    | zero => omega
    | succ limit => rw [lineage_extends hparent, ofLine_cons hown, ih (by omega)]

/-- Reading has one result, after one number of calls. -/
private theorem Reads.unique {calls' : Nat} {result' : Attempt ClassModel}
    (h : Reads context passed located calls result)
    (h' : Reads context passed located calls' result') : calls = calls' ∧ result = result' := by
  refine ⟨?_, (h.eq_ofLine (Nat.le_max_left calls calls')).symm.trans
    (h'.eq_ofLine (Nat.le_max_right calls calls'))⟩
  induction h generalizing calls' result' with
  | failed hown =>
    cases h' with
    | failed => rfl
    | root hown' => exact absurd (hown.symm.trans hown') (by simp)
    | «extends» hown' => exact absurd (hown.symm.trans hown') (by simp)
  | root hown hparent =>
    cases h' with
    | failed => rfl
    | root => rfl
    | «extends» _ hparent' => exact absurd (hparent.symm.trans hparent') (by simp)
  | «extends» hown hparent _ ih =>
    cases h' with
    | failed hown' => exact absurd (hown.symm.trans hown') (by simp)
    | root _ hparent' => exact absurd (hparent.symm.trans hparent') (by simp)
    | «extends» _ hparent' hreads' =>
      obtain rfl := Option.some.inj (hparent.symm.trans hparent')
      rw [ih hreads']

/-! ### Failures -/

/-- A member that is no static one lacks its key, or a parameter of its constructor the pattern in
front of a default. -/
def Script.Member.LacksPart (member : Member) : Prop :=
  member.isStatic = false ∧ (member.key = .missing ∨
    ∃ patterns effects, member.role = .constructor patterns effects ∧ .withDefault .missing ∈ patterns)

/-- What keeps a class from being read: it has no name or a parameter of another form, or a part is
missing. -/
private def FailsFor (failure : Failure) (isMissing : Prop) : Prop :=
  (∃ reason element, failure = .configuration reason element) ∨ failure = missingPart ∧ isMissing

private theorem FailsFor.mono {failure : Failure} {isMissing isMissing' : Prop}
    (h : FailsFor failure isMissing) (himp : isMissing → isMissing') : FailsFor failure isMissing' :=
  h.imp_right (And.imp_right himp)

private theorem failsFor_readParameters {className : Text} {position : Nat}
    {patterns : List Pattern} {failure : Failure}
    (h : readParameters className position patterns = .error failure) :
    FailsFor failure (.withDefault .missing ∈ patterns) := by
  induction patterns generalizing position with
  | nil => cases h
  | cons pattern patterns ih =>
    unfold readParameters at h
    split at h
    · next hnil => cases hnil
    · next hcons =>
      obtain ⟨rfl, rfl⟩ := List.cons.inj hcons
      obtain rfl := Except.error.inj h
      exact .inr ⟨rfl, List.mem_cons_self⟩
    · next hcons =>
      obtain ⟨rfl, rfl⟩ := List.cons.inj hcons
      split at h
      · rcases Attempt.of_bind_error h with hrest | ⟨parameters, -, h⟩
        · exact (ih hrest).mono (List.mem_cons_of_mem _)
        · cases h
      · obtain rfl := Except.error.inj h
        exact .inl ⟨_, _, rfl⟩

private theorem missing_of_knownName? {key : Key} {failure : Failure}
    (h : key.knownName? = .error failure) :
    failure = missingPart ∧ key = .missing := by
  cases key with
  | missing => exact ⟨(Except.error.inj h).symm, rfl⟩
  | label name => cases h
  | literal value => cases h
  | computed value => cases h
  | privateName name => cases h

private theorem failsFor_add {className : Text} {shape : OwnShape} {member : Member} {failure : Failure}
    (h : OwnShape.add context className shape member = .error failure) :
    FailsFor failure member.LacksPart := by
  unfold OwnShape.add at h
  split at h
  · cases h
  · next hstatic =>
    have hstatic : member.isStatic = false := by simpa using hstatic
    rcases Attempt.of_bind_error h with hkey | ⟨name?, -, h⟩
    · obtain ⟨hfailure, hmissing⟩ := missing_of_knownName? hkey
      exact .inr ⟨hfailure, hstatic, .inl hmissing⟩
    · cases name? with
      | none => cases h
      | some name =>
        cases hrole : member.role with
        | «constructor» patterns effects =>
          rw [hrole] at h
          rcases Attempt.of_bind_error h with hparameters | ⟨parameters, -, h⟩
          · exact (failsFor_readParameters hparameters).mono fun hmem =>
              ⟨hstatic, .inr ⟨patterns, effects, hrole, hmem⟩⟩
          · cases h
        | _ =>
          -- the other roles are read without a failure
          rw [hrole] at h
          cases h

private theorem failsFor_ownShape {failure : Failure} (h : ownShape context located = .error failure) :
    FailsFor failure (∃ member ∈ located.content.members, member.LacksPart) := by
  unfold ownShape at h
  split at h
  · obtain rfl := Except.error.inj h
    exact .inl ⟨_, _, rfl⟩
  · obtain rfl := Except.error.inj h
    exact .inl ⟨_, _, rfl⟩
  · next name _ _ =>
    generalize (⟨[], none⟩ : OwnShape) = shape at h
    generalize located.content.members = members at h ⊢
    induction members generalizing shape with
    | nil => cases h
    | cons member members ih =>
      rw [List.foldlM_cons] at h
      rcases Attempt.of_bind_error h with hadd | ⟨next, -, h⟩
      · exact (failsFor_add hadd).mono fun hlacks => ⟨member, List.mem_cons_self, hlacks⟩
      · exact (ih next h).mono fun ⟨other, hother, hlacks⟩ =>
          ⟨other, List.mem_cons_of_mem member hother, hlacks⟩

/-- A failure is that of the class or of one of the module. -/
private theorem Reads.exists_failed {failure : Failure}
    (h : Reads context passed located calls (.error failure)) :
    ∃ other ∈ located :: context.classes, ownShape context other = .error failure := by
  generalize hresult : (.error failure : Attempt ClassModel) = result at h
  induction h with
  | @failed passed located other hown =>
    obtain rfl := Except.error.inj hresult
    exact ⟨located, List.mem_cons_self, hown⟩
  | root => cases hresult
  | @«extends» passed located parent own calls result hown hparent _ ih =>
    cases result with
    | ok model => cases hresult
    | error other =>
      obtain ⟨failed, hmem, hfailed⟩ := ih hresult
      obtain ⟨name, -, -, hlookup⟩ := next?_eq_some_iff.1 hparent
      refine ⟨failed, List.mem_cons_of_mem _ ?_, hfailed⟩
      rcases List.mem_cons.1 hmem with rfl | hmem
      · exact (name_of_lookup? hlookup).1
      · exact hmem

/-- Whatever the classes of a module extend, reading one of them ends after at most as many calls as
there are names of classes, and one more.  It gives a model, whose fields have distinct names, or a
failure of the configuration; or, where a class lacks a part, that of the missing part. -/
theorem ofLocated_terminates (context : ClassSource) (located : LocatedClass) :
    (∃ calls ≤ context.names.card + 1, ∀ calls' result, Reads context [] located calls' result ↔
      calls' = calls ∧ result = ClassModel.ofLocated context located) ∧
    match ClassModel.ofLocated context located with
    | .ok model => (model.fields.map Field.name).Nodup
    | .error failure => (∃ reason element, failure = .configuration reason element) ∨
        failure = missingPart ∧ ∃ other ∈ located :: context.classes,
          ∃ member ∈ other.content.members, member.LacksPart := by
  obtain ⟨calls, result, hreads, hcalls⟩ := exists_reads context located
  have hnames : context.names.card ≤ context.classes.length :=
    (List.toFinset_card_le _).trans (List.length_filterMap_le _ _)
  obtain rfl : ClassModel.ofLocated context located = result := by
    rw [ofLocated_eq_ofLine, hreads.eq_ofLine (by omega)]
  refine ⟨⟨calls, hcalls, fun calls' result => ⟨fun h => h.unique hreads, ?_⟩⟩, ?_⟩
  · rintro ⟨rfl, rfl⟩
    exact hreads
  · cases hmodel : ClassModel.ofLocated context located with
    | ok model => exact nodup_fields hmodel
    | error failure =>
      obtain ⟨other, hother, hfailed⟩ := (hmodel ▸ hreads).exists_failed
      exact (failsFor_ownShape hfailed).mono fun hmember => ⟨other, hother, hmember⟩

/-- Two classes that extend each other. -/
example :
    let source : Text := "class A extends B { x; y } class B extends A { y; z }"
    ((parseModule "a.js" source).toOption.map fun module => module.classes.map fun located =>
      (ClassModel.ofLocated ⟨source, module.comments, module.classes⟩ located).toOption.map fun model =>
        model.fields.map Field.name) =
        some [some [("z" : Text), "x", "y"], some [("x" : Text), "y", "z"]] := by
  decide +kernel

/-- A field without a key is let through by the grammar, and keeps its class from being read
otherwise than by a failure of the configuration. -/
theorem ofLocated_missing_key :
    let source : Text :=
      "export class Point { static jsonSerializable = true; = 1; constructor(y) { this.y = y; } y; }"
    ∃ module located annotations, parseModule "src/model.js" source = .ok module ∧
      located ∈ module.classes ∧
      readAnnotations "Point" located.content = .ok annotations ∧ annotations.isAnnotated = true ∧
      ¬ ((∃ model, ClassModel.ofLocated ⟨source, module.comments, module.classes⟩ located = .ok model) ∨
        ∃ reason element, ClassModel.ofLocated ⟨source, module.comments, module.classes⟩ located =
          .error (.configuration reason element)) := by
  intro source
  have hread : (parseModule "src/model.js" source).toOption.any fun module =>
    module.classes.any fun located =>
      (readAnnotations "Point" located.content).toOption.any fun annotations =>
        annotations.isAnnotated &&
        match ClassModel.ofLocated ⟨source, module.comments, module.classes⟩ located with
        | .ok _ => false
        | .error failure => decide (failure.kind = "TypeError") := by
    decide +kernel
  clear_value source
  obtain ⟨module, hmodule, hread⟩ := Attempt.exists_of_any hread
  obtain ⟨located, hlocated, hread⟩ := List.any_eq_true.1 hread
  obtain ⟨annotations, hannotations, hread⟩ := Attempt.exists_of_any hread
  obtain ⟨hannotated, hread⟩ := Bool.and_eq_true_iff.1 hread
  refine ⟨module, located, annotations, hmodule, hlocated, hannotations, hannotated, ?_⟩
  rintro (⟨model, hmodel⟩ | ⟨reason, element, hfailure⟩)
  · rw [hmodel] at hread
    cases hread
  · rw [hfailure] at hread
    exact absurd (of_decide_eq_true hread)
      (show Failure.kind (.configuration reason element) ≠ "TypeError" from by
      show ("ConfigurationError" : Text) ≠ "TypeError"
      decide)

end JsonCompanion
