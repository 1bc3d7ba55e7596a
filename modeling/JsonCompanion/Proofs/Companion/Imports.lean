import JsonCompanion.Companion.Imports
import JsonCompanion.Proofs.Collecting
import JsonCompanion.Proofs.Compose.Distinct
import JsonCompanion.Proofs.Emit.Fragment
import JsonCompanion.Read.Unit

/-!
# Imports and declarations of a companion

A companion imports names that its code refers to, and the code refers to every name that it declares.

* `references_declared`: the code of a composition refers to the names of its fragments.
* `mem_boundNames_iff`: the imports of a companion bind the names that the code refers to and that
  the source module exports or imports, from elsewhere than from the companion.
* `exists_import_iff`: so a declared name is imported as well exactly if the source module exports
  it, or imports it from elsewhere.
-/

namespace JsonCompanion

open Emit

/-! ### References -/

section

variable {name before behind : Text} {isContinued : Bool}

private theorem beginsWithName_append
    (hbehind : behind.head?.any Text.continuesPlainIdentifier = false) :
    beginsWithName name (name ++ behind) = true := by
  have hdrop : Text.dropBeginning? name (name ++ behind) = some behind := by
    induction name with
    | nil => rfl
    | cons u name ih =>
      rw [List.cons_append, Text.dropBeginning?, if_pos (beq_self_eq_true u)]
      exact ih
  rw [beginsWithName, hdrop]
  simpa using hbehind

/-- A name is found behind anything that does not continue into it. -/
theorem referencesFrom_append
    (hbefore : (before.getLast?.map Text.continuesPlainIdentifier).getD isContinued = false)
    (hbehind : behind.head?.any Text.continuesPlainIdentifier = false) :
    referencesFrom isContinued name (before ++ (name ++ behind)) = true := by
  induction before generalizing isContinued with
  | nil =>
    have hbegins : beginsWithName name (name ++ behind) = true := beginsWithName_append hbehind
    obtain rfl : isContinued = false := hbefore
    rw [List.nil_append]
    cases hcode : name ++ behind with
    | nil => simpa [referencesFrom, hcode] using hbegins
    | cons u code => simp [referencesFrom, ← hcode, hbegins]
  | cons u before ih =>
    have hrest :
        (before.getLast?.map Text.continuesPlainIdentifier).getD (Text.continuesPlainIdentifier u) =
          false := by
      rw [List.getLast?_cons] at hbefore
      cases hlast : before.getLast? <;> simpa [hlast] using hbefore
    rw [List.cons_append, referencesFrom, ih hrest, Bool.or_true]

/-- Code refers to a name that stands in it between units which are no part of a name. -/
theorem references_between {code : Text} {front back : CodeUnit}
    (hfront : Text.continuesPlainIdentifier front = false)
    (hback : Text.continuesPlainIdentifier back = false) (h : front :: (name ++ [back]) <:+: code) :
    references code name = true := by
  obtain ⟨before, behind, rfl⟩ := h
  have hcode : before ++ front :: (name ++ [back]) ++ behind = (before ++ [front]) ++
      (name ++ back :: behind) := by
    simp
  rw [hcode, references]
  refine referencesFrom_append ?_ (by simpa using hback)
  simpa using hfront

/-- Code refers to the name of every fragment whose text is a part of it. -/
private theorem references_name {fragment : Fragment} {code : Text} (h : fragment.text <:+: code) :
    references code fragment.name = true := by
  obtain ⟨mark, rest, htext, hmark, -⟩ := fragment.exists_rest
  have hblank : fragment.opening.getLast? = some 0x20 := by
    cases fragment with
    | constant => rfl
    | function isExported => cases isExported <;> rfl
  obtain ⟨opening, hopening⟩ := List.getLast?_eq_some_iff.1 hblank
  -- a blank stands in front of the name and a mark behind it, so that it is a word of its own
  have hword : 0x20 :: (fragment.name ++ [mark]) <:+: fragment.text :=
    ⟨opening, rest, by simp [htext, hopening]⟩
  exact references_between (by decide) hmark (hword.trans h)

end

variable {composed : Composition} {fragment : Fragment}

/-- The code of a composition refers to the names of its fragments. -/
theorem references_declared (h : fragment ∈ composed.fragments) :
    references composed.text fragment.name = true :=
  references_name (Text.isInfix_join (List.mem_map_of_mem h))

/-! ### Bound names -/

variable {unit : SourceUnit} {code companion name : Text} {bindings : List ImportBinding}

/-- The first binding of a name that comes from elsewhere than from the companion. -/
def firstBinding? (companion name : Text) (bindings : List ImportBinding) : Option ImportBinding :=
  bindings.find? fun binding => binding.bound == name && binding.source != companion

private theorem firstBinding?_cons (companion name : Text) (first : ImportBinding)
    (bindings : List ImportBinding) :
    firstBinding? companion name (first :: bindings) =
      if first.bound = name ∧
        first.source ≠ companion then some first else firstBinding? companion name bindings := by
  unfold firstBinding?
  split
  · rename_i hfirst
    rw [List.find?_cons_of_pos (by simp [hfirst])]
  · rename_i hother
    rw [List.find?_cons_of_neg (by simpa using hother)]

/-- What is found is a binding of the name from elsewhere. -/
theorem firstBinding?_sound {binding : ImportBinding}
    (h : firstBinding? companion name bindings = some binding) :
    binding ∈ bindings ∧ binding.bound = name ∧ binding.source ≠ companion := by
  have hfound := List.find?_some h
  simp only [Bool.and_eq_true, beq_iff_eq, bne_iff_ne] at hfound
  exact ⟨List.mem_of_find?_eq_some h, hfound⟩

/-- The needed bindings are the first ones of the names that are not taken and are referred to. -/
theorem mem_neededBindings_iff {taken : List Text} {binding : ImportBinding} :
    binding ∈ neededBindings code companion taken bindings ↔ binding.bound ∉ taken ∧
      references code binding.bound = true ∧
        firstBinding? companion binding.bound bindings = some binding := by
  induction bindings generalizing taken with
  | nil => simp [neededBindings, firstBinding?]
  | cons first bindings ih =>
    rw [neededBindings, firstBinding?_cons]
    split
    · rename_i hleft
      -- a binding is left out if its name is taken or not referred to, or if it comes from the companion
      rw [ih]
      split
      · rename_i hsame
        have hout : binding.bound ∈ taken ∨ references code binding.bound = false := by
          simpa [hsame.2, hsame.1] using hleft
        rcases hout with htaken | hcode
        · simp [htaken]
        · simp [hcode]
      · exact Iff.rfl
    · rename_i hneeded
      simp only [Bool.or_eq_true, beq_iff_eq, List.contains_eq_mem, decide_eq_true_eq,
        Bool.not_eq_true', not_or, Bool.not_eq_false] at hneeded
      obtain ⟨⟨hsource, htaken⟩, hcode⟩ := hneeded
      rw [List.mem_cons, ih]
      by_cases hbound : first.bound = binding.bound
      · rw [if_pos ⟨hbound, hsource⟩]
        simp only [hbound, List.mem_cons, true_or, not_true_eq_false, false_and, or_false,
          Option.some.injEq]
        constructor
        · rintro rfl
          exact ⟨htaken, hcode, rfl⟩
        · rintro ⟨-, -, heq⟩
          exact heq.symm
      · rw [if_neg fun hsame => hbound hsame.1]
        have hne : binding ≠ first := fun heq => hbound (heq ▸ rfl)
        have hname : binding.bound ≠ first.bound := Ne.symm hbound
        simp [hne, hname]

/-- The needed bindings bind the names that are not taken, are referred to and come from elsewhere. -/
theorem exists_needed_iff {taken : List Text} :
    (∃ binding ∈ neededBindings code companion taken bindings, binding.bound = name) ↔
      name ∉ taken ∧ references code name = true ∧
        ∃ binding ∈ bindings, binding.bound = name ∧ binding.source ≠ companion := by
  constructor
  · rintro ⟨binding, hbinding, rfl⟩
    obtain ⟨htaken, hcode, hfirst⟩ := mem_neededBindings_iff.1 hbinding
    exact ⟨htaken, hcode, binding, firstBinding?_sound hfirst⟩
  · rintro ⟨htaken, hcode, binding, hbinding, hbound, hsource⟩
    have hsome : (firstBinding? companion name bindings).isSome := by
      refine List.find?_isSome.2 ⟨binding, hbinding, ?_⟩
      simp [hbound, hsource]
    obtain ⟨first, hfirst⟩ := Option.isSome_iff_exists.1 hsome
    obtain ⟨-, rfl, -⟩ := firstBinding?_sound hfirst
    exact ⟨first, mem_neededBindings_iff.2 ⟨htaken, hcode, hfirst⟩, rfl⟩

theorem mem_ofNamed_iff {statement : ImportStatement} {pairs : List (Text × Text)} {source : Text} :
    statement ∈ ImportStatement.ofNamed pairs source ↔ pairs ≠ [] ∧ statement = .named pairs source := by
  unfold ImportStatement.ofNamed
  split
  · simp_all
  · simp_all

theorem exists_ofNamed_iff {pairs : List (Text × Text)} {source : Text} :
    (∃ statement ∈ ImportStatement.ofNamed pairs source, name ∈ statement.boundNames) ↔
      ∃ pair ∈ pairs, pair.2 = name := by
  rw [ImportStatement.ofNamed]
  split
  · simp_all
  · simp [ImportStatement.boundNames]

theorem exists_ofBindings_iff {source : Text} :
    (∃ statement ∈ ImportStatement.ofBindings source bindings, name ∈ statement.boundNames) ↔
      ∃ binding ∈ bindings, binding.bound = name := by
  simp only [ImportStatement.ofBindings, List.mem_append, or_and_right, exists_or, exists_ofNamed_iff]
  constructor
  · rintro (⟨statement, hstatement, hname⟩ | ⟨pair, hpair, rfl⟩)
    · obtain ⟨binding, hbinding, hof⟩ := List.mem_filterMap.1 hstatement
      refine ⟨binding, hbinding, ?_⟩
      unfold ImportStatement.ofBinding? at hof
      split at hof <;> cases hof <;> exact (List.mem_singleton.1 hname).symm
    · obtain ⟨binding, hbinding, hpair⟩ := List.mem_filterMap.1 hpair
      refine ⟨binding, hbinding, ?_⟩
      unfold ImportStatement.namedPair? at hpair
      split at hpair <;> cases hpair
      rfl
  · rintro ⟨binding, hbinding, rfl⟩
    cases hkind : binding.kind with
    | named =>
      exact .inr ⟨_,
        List.mem_filterMap.2 ⟨binding, hbinding, by rw [ImportStatement.namedPair?, hkind]⟩, rfl⟩
    | byDefault =>
      exact .inl ⟨_,
        List.mem_filterMap.2 ⟨binding, hbinding, by rw [ImportStatement.ofBinding?, hkind]⟩, .head _⟩
    | «namespace» =>
      exact .inl ⟨_,
        List.mem_filterMap.2 ⟨binding, hbinding, by rw [ImportStatement.ofBinding?, hkind]⟩, .head _⟩

theorem sourcesOf_eq (bindings : List ImportBinding) :
    sourcesOf bindings = distinct (bindings.map ImportBinding.source) := by
  rw [sourcesOf, distinct, List.foldl_map]

theorem mem_sourcesOf {source : Text} :
    source ∈ sourcesOf bindings ↔ ∃ binding ∈ bindings, binding.source = source := by
  rw [sourcesOf_eq, mem_distinct, List.mem_map]

/-- Bindings are imported source by source. -/
theorem exists_bySource_iff : (∃ statement ∈ (sourcesOf bindings).flatMap fun source =>
      ImportStatement.ofBindings source (bindings.filter fun binding => binding.source == source),
    name ∈ statement.boundNames) ↔ ∃ binding ∈ bindings, binding.bound = name := by
  constructor
  · rintro ⟨statement, hstatement, hname⟩
    obtain ⟨source, -, hstatement⟩ := List.mem_flatMap.1 hstatement
    obtain ⟨binding, hbinding, hbound⟩ := exists_ofBindings_iff.1 ⟨statement, hstatement, hname⟩
    exact ⟨binding, (List.mem_filter.1 hbinding).1, hbound⟩
  · rintro ⟨binding, hbinding, hbound⟩
    have hown : binding ∈ bindings.filter fun other => other.source == binding.source :=
      List.mem_filter.2 ⟨hbinding, beq_self_eq_true _⟩
    obtain ⟨statement, hstatement, hname⟩ := exists_ofBindings_iff.2 ⟨binding, hown, hbound⟩
    exact ⟨statement, List.mem_flatMap.2 ⟨_, mem_sourcesOf.2 ⟨binding, hbinding, rfl⟩, hstatement⟩,
      hname⟩

/-- The imports of a companion bind the names that its code refers to and that the source module
exports, or imports from elsewhere than from the companion. -/
theorem mem_boundNames_iff {specifiers : Specifiers} :
    (∃ statement ∈ companionImports unit code specifiers, name ∈ statement.boundNames) ↔
      references code name = true ∧ (name ∈ unit.exportedNames ∨ unit.defaultExport = some name ∨
        ∃ binding ∈ unit.imports, binding.bound = name ∧ binding.source ≠ specifiers.companion) := by
  have hdefault (names : List Text) :
      (∃ statement ∈ names.map fun bound => ImportStatement.byDefault bound
        specifiers.source, name ∈ statement.boundNames) ↔ name ∈ names := by
    simp [ImportStatement.boundNames]
  have hexported (names : List Text) :
      (∃ statement ∈ ImportStatement.ofNamed (names.map fun bound => (bound, bound))
        specifiers.source, name ∈ statement.boundNames) ↔ name ∈ names := by
    simp [exists_ofNamed_iff]
  simp only [companionImports, List.mem_append, or_and_right, exists_or, exists_bySource_iff,
    exists_needed_iff, hdefault, hexported, List.mem_filter, Option.mem_toList, Bool.and_eq_true,
    Bool.not_eq_true', List.contains_eq_mem, decide_eq_false_iff_not]
  by_cases hcode : references code name = true
  · -- each group of imports leaves out what an earlier one binds: the names bound are the same
    simp only [hcode, and_true, true_and]
    tauto
  · simp [hcode]

/-- A name that a companion declares is imported by it as well exactly if the source module exports
it, or imports it from elsewhere than from the companion. -/
theorem exists_import_iff (h : fragment ∈ composed.fragments) (specifiers : Specifiers) :
    (∃ statement ∈ companionImports unit composed.text specifiers,
      fragment.name ∈ statement.boundNames) ↔
      fragment.name ∈ unit.exportedNames ∨ unit.defaultExport = some fragment.name ∨
        ∃ binding ∈ unit.imports, binding.bound = fragment.name ∧
          binding.source ≠ specifiers.companion := by
  rw [mem_boundNames_iff, and_iff_right (references_declared h)]

/-- A module that passes on the factory of its companion makes the companion import what it declares. -/
theorem exists_import_iff_point :
    let source : Text := "import { pointFromJson, pointToJson } from \"./model.g.js\";\n" ++
      "export { pointFromJson };\nexport class Point { static jsonSerializable = true; }\n"
    ∃ unit composed diagnostics, SourceUnit.read "src/model.js" source = .ok unit ∧
      (compose ⟨.undefined, [], "./model.g.js", true⟩ unit).outcome [] = (.ok composed, diagnostics) ∧
      ∃ fragment ∈ composed.fragments,
        ∃ statement ∈ companionImports unit composed.text ⟨"./model.js", "./model.g.js"⟩,
          fragment.name ∈ statement.boundNames := by
  intro source
  have hgenerated : (SourceUnit.read "src/model.js" source).toOption.any fun unit =>
      ((compose ⟨.undefined, [], "./model.g.js", true⟩ unit).outcome []).1.toOption.any fun composed =>
        decide (∃ fragment ∈ composed.fragments, fragment.name ∈ unit.exportedNames) := by
    decide +kernel
  obtain ⟨unit, hread, hgenerated⟩ := Attempt.exists_of_any hgenerated
  obtain ⟨composed, diagnostics, hrun, hfacts⟩ := Collecting.exists_of_any hgenerated
  obtain ⟨fragment, hfragment, hname⟩ := of_decide_eq_true hfacts
  have hclash := (exists_import_iff hfragment ⟨"./model.js", "./model.g.js"⟩).2 (.inl hname)
  exact ⟨unit, composed, diagnostics, hread, hrun, fragment, hfragment, hclash⟩

end JsonCompanion
