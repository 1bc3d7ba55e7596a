import JsonCompanion.Proofs.Compose.Agreement
import JsonCompanion.Proofs.Patch.Splice
import JsonCompanion.Proofs.Read.Unit
import JsonCompanion.Proofs.Text.Trim

/-!
# Places of patches

The patches of a unit go into the text of its module where they do not disturb each other: members
between the braces of their class, the import at a boundary of another import or at the top.

* `Module.IsPlacedIn` says that the places of a module are those of a text: statements are ranges of
  it that do not overlap, and the body of a class is a range between braces in its statement.
* `IsPlaced` lists the places of patches; `IsPlaced.liesIn` and `IsPlaced.apart` are what the places
  give.
* `delegation_leaves`: every patch of a unit that is read is a placed one, and nothing is reported.
* `delegation_applies`: the patches of a unit can always be put into its text.
-/

namespace JsonCompanion

open Emit Script Collecting

/-! ### Places in a module -/

/-- A part of a text begins and ends with braces. -/
structure Script.Span.IsBraced (span : Span) (source : Text) : Prop where
  nonempty : span.start < span.stop
  opening : source[span.start]? = some 0x7B
  closing : source[span.stop - 1]? = some 0x7D

/-- The statements of a module are ranges of a text that do not overlap, and the body of a class is
a range between braces in its statement. -/
structure Script.Module.IsPlacedIn (module : Module) (source : Text) : Prop where
  inside : ∀ statement ∈ module.statements,
    statement.span.start ≤ statement.span.stop ∧ statement.span.stop ≤ source.length
  apart : module.statements.Pairwise fun a b => a.span.stop ≤ b.span.start ∨ b.span.stop ≤ a.span.start
  bodies : ∀ statement ∈ module.statements, ∀ content ∈ statement.body.class?,
    content.body.IsBraced source ∧ statement.span.start ≤ content.body.start ∧
      content.body.stop ≤ statement.span.stop

instance (span : Span) (source : Text) : Decidable (span.IsBraced source) :=
  decidable_of_iff
    (span.start < span.stop ∧ source[span.start]? = some 0x7B ∧ source[span.stop - 1]? = some 0x7D)
    ⟨fun ⟨h, h', h''⟩ => ⟨h, h', h''⟩, fun ⟨h, h', h''⟩ => ⟨h, h', h''⟩⟩

instance (module : Module) (source : Text) : Decidable (module.IsPlacedIn source) :=
  decidable_of_iff (_ ∧ _ ∧ _) ⟨fun ⟨h, h', h''⟩ => ⟨h, h', h''⟩, fun ⟨h, h', h''⟩ => ⟨h, h', h''⟩⟩

variable {module : Module} {source name : Text} {located : LocatedClass} {declaration : LocatedImport}

private theorem exists_statement_of_class (h : module.findClass? name = some located) :
    ∃ statement ∈ module.statements, statement.body.class? = some located.content := by
  obtain ⟨statement, hmem, hclass⟩ := List.mem_filterMap.1 (List.mem_of_find?_eq_some h)
  obtain ⟨content, hcontent, rfl⟩ := Option.map_eq_some_iff.1 hclass
  exact ⟨statement, hmem, hcontent⟩

private theorem exists_statement_of_import (h : declaration ∈ module.imports) :
    ∃ statement ∈ module.statements, statement.span = declaration.span ∧
      statement.body = .importNames declaration.specifiers declaration.source := by
  obtain ⟨statement, hmem, himport⟩ := List.mem_filterMap.1 h
  unfold Statement.import? at himport
  split at himport
  · rename_i hbody
    cases himport
    exact ⟨statement, hmem, rfl, hbody⟩
  · cases himport

namespace Script.Module.IsPlacedIn

variable (h : module.IsPlacedIn source)

include h

private theorem isBraced (hlocated : module.findClass? name = some located) :
    located.content.body.IsBraced source := by
  obtain ⟨statement, hmem, hclass⟩ := exists_statement_of_class hlocated
  exact (h.bodies statement hmem _ hclass).1

private theorem import_inside (hmem : declaration ∈ module.imports) :
    declaration.span.start ≤ declaration.span.stop ∧ declaration.span.stop ≤ source.length := by
  obtain ⟨statement, hmem, hspan, -⟩ := exists_statement_of_import hmem
  exact hspan ▸ h.inside statement hmem

/-- Different statements do not overlap. -/
private theorem apart_of_ne {a b : Statement} (ha : a ∈ module.statements)
    (hb : b ∈ module.statements) (hne : a ≠ b) :
    a.span.stop ≤ b.span.start ∨ b.span.stop ≤ a.span.start := by
  have hsymm : Std.Symm fun a b : Statement => a.span.stop ≤ b.span.start ∨ b.span.stop ≤ a.span.start :=
    ⟨fun _ _ => Or.symm⟩
  exact h.apart.forall ha hb hne

private theorem class_apart_import (hlocated : module.findClass? name = some located)
    (hmem : declaration ∈ module.imports) :
    located.content.body.stop ≤ declaration.span.start ∨
      declaration.span.stop ≤ located.content.body.start := by
  obtain ⟨statement, hstatement, hclass⟩ := exists_statement_of_class hlocated
  obtain ⟨other, hother, hspan, hbody⟩ := exists_statement_of_import hmem
  obtain ⟨-, hstart, hstop⟩ := h.bodies statement hstatement _ hclass
  have hne : statement ≠ other := by
    rintro rfl
    rw [hbody] at hclass
    cases hclass
  have hapart := h.apart_of_ne hstatement hother hne
  rw [hspan] at hapart
  omega

/-- An import ends in front of another one, or not in front of its end. -/
private theorem imports_apart {other : LocatedImport} (hmem : declaration ∈ module.imports)
    (hother : other ∈ module.imports) :
    declaration.span.stop ≤ other.span.start ∨ other.span.stop ≤ declaration.span.stop := by
  obtain ⟨a, ha, hspan, -⟩ := exists_statement_of_import hmem
  obtain ⟨b, hb, hspan', -⟩ := exists_statement_of_import hother
  rw [← hspan, ← hspan']
  by_cases heq : a = b
  · exact .inr (heq ▸ le_rfl)
  · have hapart := h.apart_of_ne ha hb heq
    have hle := (h.inside a ha).1
    omega

end Script.Module.IsPlacedIn

/-! ### Places of patches -/

/-- Where the patches of a unit go: the missing members of a class of the unit strictly between the
braces of that class, the range of an import, an insertion behind an import, or one at the top of a
module that has no imports. -/
inductive IsPlaced (options : GenerationOptions) (unit : SourceUnit) (module : Module) : Patch → Prop
  | inBody {content : AnnotatedClass} {setting : ClassSetting} {located : LocatedClass}
      {missing : List Delegate}
    {place : Nat} {text : Text} (hcontent : content ∈ unit.classes)
    (hsetting : ClassSetting.ofClass options unit content = .ok setting)
    (hlocated : module.findClass? content.model.name = some located)
    (hmissing : missingDelegates setting located.content = .ok missing)
    (hmembers : memberPatch unit.path unit.source located missing = .inserting unit.path place text)
    (hstart : located.content.body.start < place) (hstop : place < located.content.body.stop) :
    IsPlaced options unit module (.inserting unit.path place text)
  | instead {old : LocatedImport} {text : Text} (hold : old ∈ module.imports) :
    IsPlaced options unit module (.replacing unit.path old.span.start old.span.stop text)
  | behind {old : LocatedImport} {text : Text} (hold : old ∈ module.imports) :
    IsPlaced options unit module (.inserting unit.path old.span.stop text)
  | atTop {text : Text} (hnone : module.imports = []) :
    IsPlaced options unit module (.inserting unit.path (topOf unit.source) text)

variable {options : GenerationOptions} {unit : SourceUnit} {patch other : Patch}

@[simp]
private theorem place_start_replacing (path : Text) (start stop : Nat) (text : Text) :
    (Patch.replacing path start stop text).start.place = start := Int.toNat_natCast start

@[simp]
private theorem place_stop_replacing (path : Text) (start stop : Nat) (text : Text) :
    (Patch.replacing path start stop text).stop.place = stop := Int.toNat_natCast stop

@[simp]
private theorem place_start_inserting (path : Text) (place : Nat) (text : Text) :
    (Patch.inserting path place text).start.place = place := Int.toNat_natCast place

@[simp]
private theorem place_stop_inserting (path : Text) (place : Nat) (text : Text) :
    (Patch.inserting path place text).stop.place = place := Int.toNat_natCast place

theorem topOf_le_length (source : Text) : topOf source ≤ source.length := by
  unfold topOf
  split
  · cases hindex : source.findIdx? fun u => u == 0x0A with
    | none => exact Nat.zero_le _
    | some i =>
      have hlt := (List.findIdx?_eq_some_iff_findIdx_eq.1 hindex).1
      exact hlt
  · exact Nat.zero_le _

/-- Placed patches are ranges of the text. -/
theorem IsPlaced.liesIn (hmodule : module.IsPlacedIn unit.source)
    (h : IsPlaced options unit module patch) :
    patch.LiesIn unit.source.length := by
  cases h with
  | @inBody content setting located missing place text hcontent hsetting hlocated hmissing hmembers
      hstart hstop =>
    have hbraced := hmodule.isBraced hlocated
    have hlt := (List.getElem?_eq_some_iff.1 hbraced.closing).1
    exact ⟨place, place, rfl, rfl, le_rfl, by omega⟩
  | @instead old text hold =>
    obtain ⟨hle, hlength⟩ := hmodule.import_inside hold
    exact ⟨old.span.start, old.span.stop, rfl, rfl, hle, hlength⟩
  | @behind old text hold =>
    exact ⟨old.span.stop, old.span.stop, rfl, rfl, le_rfl, (hmodule.import_inside hold).2⟩
  | atTop => exact ⟨_, _, rfl, rfl, le_rfl, topOf_le_length unit.source⟩

/-- No placed insertion falls inside the range of another placed patch. -/
theorem IsPlaced.apart (hmodule : module.IsPlacedIn unit.source) (h : IsPlaced options unit module patch)
    (hother : IsPlaced options unit module other) (hinserts : patch.start = patch.stop) :
    patch.start.place ≤ other.start.place ∨ other.stop.place ≤ patch.start.place := by
  cases hother with
  | inBody | behind | atTop =>
    simp only [place_start_inserting, place_stop_inserting]
    exact Nat.le_total _ _
  | @instead old text hold =>
    simp only [place_start_replacing, place_stop_replacing]
    cases h with
    | inBody hcontent hsetting hlocated hmissing hmembers hstart hstop =>
      simp only [place_start_inserting]
      rcases hmodule.class_apart_import hlocated hold with hle | hle <;> omega
    | @instead old' text' hold' =>
      have hsame : old'.span.start = old'.span.stop := Int.ofNat_inj.1 (Offset.at.inj hinserts)
      rw [place_start_replacing, hsame]
      exact hmodule.imports_apart hold' hold
    | behind hold' => simpa only [place_start_inserting] using hmodule.imports_apart hold' hold
    | atTop hnone =>
      rw [hnone] at hold
      cases hold

/-! ### Patches of a unit -/

/-- Members go strictly between the braces of their class, wherever blanks stand in front of the
closing one. -/
private theorem exists_memberPatch (hbraced : located.content.body.IsBraced source) (path : Text)
    (delegates : List Delegate) :
    ∃ place text, memberPatch path source located delegates = .inserting path place text ∧
      located.content.body.start < place ∧ place < located.content.body.stop := by
  obtain ⟨hnonempty, hopening, hclosing⟩ := hbraced
  refine ⟨_, _, rfl, ?_, ?_⟩
  · have hne : located.content.body.start ≠ located.content.body.stop - 1 := by
      intro heq
      rw [heq, hclosing] at hopening
      cases hopening
    have hlt : located.content.body.start < located.content.body.stop - 1 := by omega
    -- the opening brace is no blank, so what is left of the text reaches beyond it
    refine Text.lt_length_trimEnd (u := 0x7B) ?_ (by decide)
    rw [List.getElem?_take_of_lt hlt, hopening]
  · have hle := Text.length_trimEnd_le (source.take (located.content.body.stop - 1))
    rw [List.length_take] at hle
    omega

private theorem isPlaced_importPatch {specifier : Text} {names : List Text}
    (h : importPatch? unit.path unit.source module.imports specifier names = some patch) :
    IsPlaced options unit module patch := by
  unfold importPatch? at h
  split at h
  · rename_i existing hfind
    have hmem : existing ∈ module.imports := List.mem_of_find?_eq_some hfind
    dsimp only at h
    split at h
    · cases h
    · split at h
      · exact Option.some.inj h ▸ .instead hmem
      · exact Option.some.inj h ▸ .behind hmem
  · split at h
    · exact Option.some.inj h ▸ .behind (List.mem_of_getLast? ‹_›)
    · exact Option.some.inj h ▸ .atTop (List.getLast?_eq_none_iff.1 ‹_›)

/-- Some patches insert members into classes of the unit, and one more may change the imports. -/
structure ArePlaced (options : GenerationOptions) (unit : SourceUnit) (module : Module)
    (members : List Patch) (imports? : Option Patch) : Prop where
  members_placed : ∀ patch ∈ members, IsPlaced options unit module patch ∧ patch.start = patch.stop
  imports_placed : ∀ patch ∈ imports?, IsPlaced options unit module patch

private theorem classDelegation_leaves {content : AnnotatedClass}
    (hmodule : module.IsPlacedIn unit.source) (hcontent : content ∈ unit.classes)
    (hlocated : module.findClass? content.model.name = some located) :
    (classDelegation options unit module content).Leaves fun result left => left = [] ∧
      ∀ patch ∈ result.patches, IsPlaced options unit module patch ∧ patch.start = patch.stop := by
  unfold classDelegation
  refine leaves_ofAttempt_bind fun setting hsetting => ?_
  dsimp only
  split
  · exact leaves_pure ⟨rfl, by simp⟩
  · rw [hlocated]
    refine leaves_ofAttempt_bind fun missing hmissing => ?_
    refine leaves_pure ⟨rfl, fun patch hpatch => ?_⟩
    dsimp only at hpatch
    split at hpatch
    · cases hpatch
    · obtain rfl := List.mem_singleton.1 hpatch
      obtain ⟨place, text, hinserts, hstart, hstop⟩ :=
        exists_memberPatch (hmodule.isBraced hlocated) unit.path missing
      rw [hinserts]
      exact ⟨.inBody hcontent hsetting hlocated hmissing hinserts hstart hstop, rfl⟩

/-- The patches of a unit that is read from a module are placed ones, and nothing is reported on the
way. -/
theorem delegation_leaves {path : Text} (hmodule : parseModule path source = .ok module)
    (hplaced : module.IsPlacedIn source) (hread : unit.IsReadFrom path source module) :
    (delegation options unit).Leaves fun patches left => left = [] ∧
      ∃ members imports?, patches = members ++ imports?.toList ∧
        ArePlaced options unit module members imports? := by
  obtain rfl := hread.path_eq
  obtain rfl := hread.source_eq
  unfold delegation
  split
  · exact leaves_pure ⟨rfl, [], none, rfl, by simp, by simp⟩
  refine leaves_ofAttempt_bind fun found hfound => ?_
  obtain rfl := Except.ok.inj (hmodule.symm.trans hfound)
  have hclasses : ∀ content ∈ unit.classes,
      (classDelegation options unit module content).Leaves fun result left =>
      left = [] ∧ ∀ patch ∈ result.patches, IsPlaced options unit module patch ∧
        patch.start = patch.stop := by
    intro content hcontent
    obtain ⟨located, hlocated⟩ := hread.exists_class hcontent
    exact classDelegation_leaves hplaced hcontent hlocated
  refine leaves_bind (leaves_mapM hclasses) ?_
  rintro classes left ⟨parts, rfl, rfl, hparts⟩
  -- the module declares every class of the unit, so none is reported
  have hnothing : parts.flatMap Prod.snd = [] := by
    refine List.flatMap_eq_nil_iff.2 fun part hpart => ?_
    obtain ⟨_, _, hleft, -⟩ := exists_of_mem_right hparts hpart
    exact hleft
  have hmembers : ∀ patch ∈ (parts.map Prod.fst).flatMap ClassDelegation.patches,
      IsPlaced options unit module patch ∧ patch.start = patch.stop := by
    intro patch hpatch
    obtain ⟨result, hresult, hpatch⟩ := List.mem_flatMap.1 hpatch
    obtain ⟨part, hpart, rfl⟩ := List.mem_map.1 hresult
    obtain ⟨_, _, -, hplaced⟩ := exists_of_mem_right hparts hpart
    exact hplaced patch hpatch
  dsimp only
  split
  · refine leaves_pure ⟨by simp [hnothing], _, none, by simp, hmembers, by simp⟩
  · refine leaves_pure ⟨by simp [hnothing], _, _, rfl, hmembers, fun patch hpatch => ?_⟩
    exact isPlaced_importPatch hpatch

private theorem ArePlaced.pairwise {members : List Patch} {imports? : Option Patch}
    (hmodule : module.IsPlacedIn unit.source) (h : ArePlaced options unit module members imports?) :
    (members ++ imports?.toList).Pairwise Patch.LiesApart := by
  -- members are insertions and come first, and no insertion falls inside another range
  have hinserted : ∀ patch ∈ members, ∀ other, IsPlaced options unit module other →
      patch.LiesApart other := by
    intro patch hpatch other hother
    obtain ⟨hplaced, hinserts⟩ := h.members_placed patch hpatch
    have hapart := hplaced.apart hmodule hother hinserts
    unfold Patch.LiesApart
    rw [← hinserts]
    omega
  rw [List.pairwise_append]
  refine ⟨?_, ?_, fun patch hpatch other hother => ?_⟩
  · refine List.pairwise_of_forall_mem_list fun patch hpatch other hother => ?_
    exact hinserted patch hpatch other (h.members_placed other hother).1
  · cases imports? <;> simp
  · exact hinserted patch hpatch other (h.imports_placed other (Option.mem_toList.1 hother))

/-- The patches of a unit that is read from a text can be put into that text: nothing is reported,
each patch is a placed one in the text, no insertion falls inside another range, and the batch is
accepted. -/
theorem delegation_applies {path : Text} {patches : List Patch}
    {earlier diagnostics : List Diagnostic} (hmodule : parseModule path source = .ok module)
    (hplaced : module.IsPlacedIn source) (hread : SourceUnit.read path source = .ok unit)
    (h : (delegation options unit).outcome earlier = (.ok patches, diagnostics)) :
    diagnostics = earlier ∧
      (∀ patch ∈ patches, IsPlaced options unit module patch ∧ patch.LiesIn source.length) ∧
      (∀ patch ∈ patches, patch.start = patch.stop → ∀ other ∈ patches,
        patch.start.place ≤ other.start.place ∨ other.stop.place ≤ patch.start.place) ∧
      ∃ text, Patch.apply path source patches = .ok text := by
  have hunit := isReadFrom_read hmodule hread
  obtain ⟨left, hdiagnostics, rfl, members, imports?, rfl, hpatches⟩ :=
    delegation_leaves hmodule hplaced hunit _ _ _ h
  obtain rfl := hunit.source_eq
  have hall : ∀ patch ∈ members ++ imports?.toList, IsPlaced options unit module patch := by
    intro patch hpatch
    rcases List.mem_append.1 hpatch with hpatch | hpatch
    · exact (hpatches.members_placed patch hpatch).1
    · exact hpatches.imports_placed patch (Option.mem_toList.1 hpatch)
  have hinside : ∀ patch ∈ members ++ imports?.toList, patch.LiesIn unit.source.length :=
    fun patch hpatch =>
    (hall patch hpatch).liesIn hplaced
  refine ⟨by simpa using hdiagnostics, fun patch hpatch => ⟨hall patch hpatch, hinside patch hpatch⟩, ?_, ?_⟩
  · intro patch hpatch hinserts other hother
    exact (hall patch hpatch).apart hplaced (hall other hother) hinserts
  · exact Patch.exists_apply hinside (hpatches.pairwise hplaced)

/-- An import is made longer, and members are inserted into the class behind it. -/
theorem delegation_applies_point :
    let source : Text := "import \x7b pointToJson \x7d from \"./point.g.js\";\n" ++
      "export class Point \x7b static jsonSerializable = true; \x7d"
    let after : Text := "import \x7b pointToJson, pointFromJson \x7d from \"./point.g.js\";\n" ++
      "export class Point \x7b static jsonSerializable = true;\n\n" ++
      "  static fromJson(json) \x7b\n    return pointFromJson(json);\n  \x7d\n\n" ++
      "  toJson() \x7b\n    return pointToJson(this);\n  \x7d\n \x7d"
    ∃ module unit patches diagnostics, parseModule "point.js" source = .ok module ∧
      module.IsPlacedIn source ∧ SourceUnit.read "point.js" source = .ok unit ∧
      (delegation ⟨.undefined, [], "./point.g.js", true⟩ unit).outcome [] = (.ok patches, diagnostics) ∧
      patches.length = 2 ∧ diagnostics = [] ∧ Patch.apply "point.js" source patches = .ok after := by
  intro source after
  have hdelegated : (SourceUnit.read "point.js" source).toOption.any fun unit =>
      ((delegation ⟨.undefined, [], "./point.g.js", true⟩ unit).outcome []).1.toOption.any fun patches =>
        decide (patches.length = 2 ∧ (Patch.apply "point.js" source patches).toOption = some after) := by
    decide +kernel
  have hplaces : (parseModule "point.js" source).toOption.any fun module =>
    decide (module.IsPlacedIn source) := by
    decide +kernel
  obtain ⟨module, hmodule, hplaces⟩ := Attempt.exists_of_any hplaces
  obtain ⟨unit, hread, hdelegated⟩ := Attempt.exists_of_any hdelegated
  obtain ⟨patches, diagnostics, hrun, hpatches⟩ := exists_of_any hdelegated
  obtain ⟨hcount, hafter⟩ := of_decide_eq_true hpatches
  have hplaced : module.IsPlacedIn source := of_decide_eq_true hplaces
  obtain ⟨hnothing, -, -, text, happly⟩ := delegation_applies hmodule hplaced hread hrun
  rw [happly] at hafter
  obtain rfl : text = after := Option.some.inj hafter
  exact ⟨module, unit, patches, diagnostics, hmodule, hplaced, hread, hrun, hcount, hnothing, happly⟩

end JsonCompanion
