import JsonCompanion.Proofs.Compose.Agreement
import JsonCompanion.Proofs.Script.Imports

/-!
# What a module needs

Which patches a module needs to delegate to its companion, and what is left to do once it has them.

* `importPatch?_eq_none_iff`: the imports need no patch exactly if the first import of the companion
  binds all names that are asked for.
* `importPatch?_again`: with the patch they need none, unless the first import lacks names and is
  not plain.
* `apply_importPatch?_hashbang` says where the first import of a module goes that begins with a `#!`
  line.
* `IsServed` says what a module has that needs no patch at all, and `delegation_eq_nil_iff` that no
  other module needs none.
-/

namespace JsonCompanion

open Emit Script Collecting

/-! ### Imports -/

/-- The first import from a specifier. -/
def Script.firstImport? (specifier : Text) (imports : List LocatedImport) : Option LocatedImport :=
  imports.find? fun declaration => declaration.source == specifier

/-- The names that an import does not bind by a list between braces. -/
def Script.LocatedImport.lacking (declaration : LocatedImport) (names : List Text) : List Text :=
  names.filter fun name => !declaration.bindings.contains name

variable {path source specifier : Text} {imports : List LocatedImport} {names : List Text}
  {existing : LocatedImport}

private theorem isEmpty_lacking :
    (existing.lacking names).isEmpty = true ↔ names ⊆ existing.bindings := by
  simp [LocatedImport.lacking, List.isEmpty_iff, List.filter_eq_nil_iff, List.subset_def]

private theorem importPatch?_existing (hfirst : firstImport? specifier imports = some existing) :
    importPatch? path source imports specifier names =
      if (existing.lacking names).isEmpty then none
      else if existing.specifiers.all isPlainSpecifier then
        some (.replacing path existing.span.start existing.span.stop
          (importStatement (existing.bindings ++ existing.lacking names) specifier))
      else some (.inserting path existing.span.stop
        ("\n" ++ importStatement (existing.lacking names) specifier)) := by
  unfold importPatch?
  rw [show imports.find? _ = some existing from hfirst]
  rfl

private theorem importPatch?_missing (hfirst : firstImport? specifier imports = none) :
    importPatch? path source imports specifier names ≠ none := by
  unfold importPatch?
  rw [show imports.find? _ = none from hfirst]
  dsimp only
  split <;> exact Option.some_ne_none _

/-- The imports need no patch exactly if the first one from the specifier binds all names. -/
theorem importPatch?_eq_none_iff : importPatch? path source imports specifier names = none ↔
    ∃ existing, firstImport? specifier imports = some existing ∧ names ⊆ existing.bindings := by
  cases hfirst : firstImport? specifier imports with
  | none => simp [importPatch?_missing hfirst]
  | some existing =>
    have hlacking : (existing.lacking names).isEmpty = true ↔ names ⊆ existing.bindings :=
      isEmpty_lacking
    rw [importPatch?_existing hfirst]
    simp only [Option.some.injEq, exists_eq_left', ← hlacking]
    split
    · simp only [*]
    · refine iff_of_false ?_ ‹_›
      split <;> exact Option.some_ne_none _

/-! ### A later pass -/

/-- Two imports bind the same from the same specifier. -/
structure Script.LocatedImport.IsLike (declaration other : LocatedImport) : Prop where
  specifiers : declaration.specifiers = other.specifiers
  source : declaration.source = other.source

/-- A text is an import statement by itself. -/
def Script.LocatedImport.IsReadFrom (declaration : LocatedImport) (t : Text) : Prop :=
  ∃ module other, Module.parse? t = some module ∧ module.imports = [other] ∧ declaration.IsLike other

/-- What becomes of the imports of a module by a patch of them: an import is replaced by the one
that the patch writes, or that one is put behind an import or to the top; the others stay. -/
inductive ImportsAfter (path : Text) (imports imports' : List LocatedImport)
    (patch? : Option Patch) : Prop
  | unchanged (hpatch : patch? = none) (himports : List.Forall₂ LocatedImport.IsLike imports' imports)
  | instead {front back front' back' : List LocatedImport} {old new : LocatedImport} {t : Text}
    (hpatch : patch? = some (.replacing path old.span.start old.span.stop t))
      (himports : imports = front ++ old :: back)
    (himports' : imports' = front' ++ new :: back')
      (hfront : List.Forall₂ LocatedImport.IsLike front' front)
    (hnew : new.IsReadFrom t)
  | behind {front back front' back' : List LocatedImport} {old old' new : LocatedImport} {t : Text}
    (hpatch : patch? = some (.inserting path old.span.stop ("\n" ++ t)))
      (himports : imports = front ++ old :: back)
    (himports' : imports' = front' ++ old' :: new :: back')
      (hfront : List.Forall₂ LocatedImport.IsLike front' front)
    (hold : old'.IsLike old) (hnew : new.IsReadFrom t)
  | atTop {place : Nat} {new : LocatedImport} {t : Text}
      (hpatch : patch? = some (.inserting path place (t ++ "\n\n")))
    (himports : imports = []) (himports' : imports' = [new]) (hnew : new.IsReadFrom t)

/-- Imports have places one behind another. -/
structure StandInOrder (imports : List LocatedImport) : Prop where
  nonempty : ∀ declaration ∈ imports, declaration.span.start < declaration.span.stop
  pairwise : imports.Pairwise fun declaration other => declaration.span.stop ≤ other.span.start

section

variable {front back front' back' imports' : List LocatedImport} {old new later : LocatedImport}
  {t : Text}

/-- No two imports end at one place. -/
private theorem StandInOrder.split_unique (h : StandInOrder imports)
    (himports : imports = front ++ old :: back) (himports' : imports = front' ++ later :: back')
    (hstop : old.span.stop = later.span.stop) :
    front = front' ∧ old = later := by
  have hstops : (imports.map fun declaration => declaration.span.stop).Nodup := by
    refine List.pairwise_map.2 (h.pairwise.imp_of_mem fun {a b} _ hb hle heq => ?_)
    have := h.nonempty b hb
    omega
  have hindex {front back : List LocatedImport} {old : LocatedImport}
      (himports : imports = front ++ old :: back) :
      (imports.map fun declaration => declaration.span.stop).idxOf old.span.stop = front.length := by
    rw [himports, List.map_append, List.map_cons] at hstops ⊢
    have hnot := List.disjoint_of_nodup_append hstops
    rw [List.idxOf_append_of_notMem fun hmem => hnot hmem List.mem_cons_self, List.idxOf_cons_self,
      List.length_map, Nat.add_zero]
  have hlength : front.length = front'.length := by rw [← hindex himports, ← hindex himports', hstop]
  obtain ⟨hfront, hrest⟩ := List.append_inj (himports.symm.trans himports') hlength
  exact ⟨hfront, (List.cons.inj hrest).1⟩

private theorem firstImport?_append (hfront : firstImport? specifier front = none)
    (hsource : old.source = specifier) :
    firstImport? specifier (front ++ old :: back) = some old := by
  unfold firstImport? at hfront ⊢
  rw [List.find?_append, hfront, Option.none_or]
  exact List.find?_cons_of_pos (beq_iff_eq.2 hsource)

private theorem exists_split_of_firstImport? (hfirst : firstImport? specifier imports = some existing) :
    existing.source = specifier ∧ ∃ front back, imports = front ++ existing :: back ∧
      firstImport? specifier front = none := by
  obtain ⟨hsource, front, back, himports, hfront⟩ := List.find?_eq_some_iff_append.1 hfirst
  exact ⟨eq_of_beq hsource, front, back, himports,
    List.find?_eq_none.2 fun other hmem => by simpa using hfront other hmem⟩

/-- Imports that bind the same have the same first import from a specifier. -/
private theorem firstImport?_like (h : List.Forall₂ LocatedImport.IsLike imports' imports) :
    Option.Rel LocatedImport.IsLike (firstImport? specifier imports')
      (firstImport? specifier imports) := by
  induction h with
  | nil => exact .none
  | cons hlike _ ih =>
    simp only [firstImport?, List.find?_cons, hlike.source]
    split
    · exact .some hlike
    · exact ih

private theorem firstImport?_like_none (h : List.Forall₂ LocatedImport.IsLike imports' imports)
    (hnone : firstImport? specifier imports = none) : firstImport? specifier imports' = none := by
  have hrel : Option.Rel LocatedImport.IsLike (firstImport? specifier imports')
      (firstImport? specifier imports) :=
    firstImport?_like h
  rw [hnone] at hrel
  cases hfirst : firstImport? specifier imports' with
  | none => rfl
  | some other =>
    rw [hfirst] at hrel
    cases hrel

private theorem bindings_plain (names : List Text) :
    (names.map ImportSpecifier.plain).filterMap namedBinding? = names := by
  induction names with
  | nil => rfl
  | cons name names ih => rw [List.map_cons, List.filterMap_cons, ih]; rfl

/-- What an import statement is read as. -/
private theorem eq_of_isReadFrom (hne : names ≠ []) (hnames : ∀ name ∈ names, IsBindable name)
    (h : new.IsReadFrom (importStatement names specifier)) :
    new.source = specifier ∧ new.bindings = names := by
  obtain ⟨module, other, hmodule, himports, hlike⟩ := h
  obtain ⟨module', span, hmodule', himports'⟩ := exists_parse?_importStatement hne hnames specifier
  obtain rfl := Option.some.inj (hmodule.symm.trans hmodule')
  obtain ⟨rfl, -⟩ := List.cons.inj (himports.symm.trans himports')
  refine ⟨hlike.source, ?_⟩
  rw [LocatedImport.bindings, hlike.specifiers]
  exact bindings_plain names

/-- An inserted statement is not a replacement of something. -/
private theorem replacing_ne_inserting {start stop place : Nat} {t u : Text} (hlt : start < stop) :
    some (Patch.replacing path start stop t) ≠ some (Patch.inserting path place u) := by
  intro heq
  injection heq with heq
  injection heq with _ hstart hstop _
  injection hstart with hstart
  injection hstop with hstop
  omega

private theorem inserting_inj {place place' : Nat} {t u : Text}
    (h : some (Patch.inserting path place t) = some (Patch.inserting path place' u)) :
    place = place' ∧ t = u := by
  injection h with h
  injection h with _ hstart _ ht
  injection hstart with hstart
  exact ⟨Int.ofNat.inj hstart, ht⟩

variable (hplaces : StandInOrder imports)

include hplaces

/-- The import that is written for a companion without any is the first one from it. -/
private theorem again_of_absent (hne : names ≠ []) (hnames : ∀ name ∈ names, IsBindable name)
    (hfirst : firstImport? specifier imports = none)
    (hafter : ImportsAfter path imports imports' (importPatch? path source imports specifier names)) :
    ∃ existing, firstImport? specifier imports' = some existing ∧ names ⊆ existing.bindings := by
  unfold importPatch? at hafter
  rw [show imports.find? _ = none from hfirst] at hafter
  dsimp only at hafter
  cases hlast : imports.getLast? with
  | none =>
    -- the statement stands at the top, where no import is in front of it
    have hnil : imports = [] := List.getLast?_eq_none_iff.1 hlast
    rw [hlast] at hafter
    cases hafter with
    | unchanged hpatch => cases hpatch
    | instead _ himports => simp [hnil] at himports
    | behind _ himports => simp [hnil] at himports
    | @atTop place new t hpatch himports himports' hnew =>
      obtain rfl : importStatement names specifier = t :=
        List.append_cancel_right (inserting_inj hpatch).2
      obtain ⟨hsource, hbindings⟩ := eq_of_isReadFrom hne hnames hnew
      refine ⟨new, ?_, hbindings ▸ List.Subset.refl _⟩
      rw [himports']
      have hfront : firstImport? specifier [] = none := rfl
      exact firstImport?_append hfront hsource
  | some last =>
    rw [hlast] at hafter
    cases hafter with
    | unchanged hpatch => cases hpatch
    | instead hpatch himports =>
      exact absurd hpatch.symm (replacing_ne_inserting (hplaces.nonempty _ (by simp [himports])))
    | atTop _ himports => simp [himports] at hlast
    | @behind front back front' back' old old' new t hpatch himports himports' hfront hold hnew =>
      obtain rfl : importStatement names specifier = t :=
        List.append_cancel_left (inserting_inj hpatch).2
      obtain ⟨hsource, hbindings⟩ := eq_of_isReadFrom hne hnames hnew
      -- no import in front of the new one is of the companion
      have hnone : firstImport? specifier (front ++ [old]) = none := by
        rw [firstImport?, List.find?_eq_none] at hfirst ⊢
        intro other hmem
        refine hfirst other ?_
        rw [himports, List.append_cons]
        exact List.mem_append_left back hmem
      refine ⟨new, ?_, hbindings ▸ List.Subset.refl _⟩
      have hlike : List.Forall₂ LocatedImport.IsLike (front' ++ [old']) (front ++ [old]) :=
        List.rel_append hfront (.cons hold .nil)
      rw [himports', List.append_cons]
      exact firstImport?_append (firstImport?_like_none hlike hnone) hsource

/-- The longer list that takes the place of a plain first import has all names. -/
private theorem again_of_plain (hnames : ∀ name ∈ names, IsBindable name)
    (hbound : ∀ name ∈ existing.bindings, IsBindable name)
    (hfirst : firstImport? specifier imports = some existing)
    (hplain : existing.specifiers.all isPlainSpecifier = true) (hlacks : ¬ names ⊆ existing.bindings)
    (hafter : ImportsAfter path imports imports' (importPatch? path source imports specifier names)) :
    ∃ existing, firstImport? specifier imports' = some existing ∧ names ⊆ existing.bindings := by
  obtain ⟨-, front, back, himports, hfront⟩ := exists_split_of_firstImport? hfirst
  have hlong := hplaces.nonempty existing (by simp [himports])
  rw [importPatch?_existing hfirst, if_neg (mt isEmpty_lacking.1 hlacks), if_pos hplain] at hafter
  cases hafter with
  | unchanged hpatch => cases hpatch
  | behind hpatch => exact absurd hpatch (replacing_ne_inserting hlong)
  | atTop hpatch => exact absurd hpatch (replacing_ne_inserting hlong)
  | @instead front' back front'' back'' old new t hpatch himports' himports'' hlike hnew =>
    injection hpatch with hpatch
    injection hpatch with _ _ hstop ht
    injection hstop with hstop
    -- the import that was replaced is the one that was found: imports differ in their places
    obtain ⟨rfl, rfl⟩ := hplaces.split_unique himports himports' (Int.ofNat.inj hstop)
    subst ht
    have hall : ∀ name ∈ existing.bindings ++ existing.lacking names, IsBindable name :=
      fun name hname =>
      (List.mem_append.1 hname).elim (hbound name) fun hmem => hnames name (List.mem_filter.1 hmem).1
    have hne : existing.bindings ++ existing.lacking names ≠ [] := fun hnil =>
      hlacks (isEmpty_lacking.1 (List.isEmpty_iff.2 (List.append_eq_nil_iff.1 hnil).2))
    obtain ⟨hsource, hbindings⟩ := eq_of_isReadFrom hne hall hnew
    refine ⟨new, ?_, fun name hname => ?_⟩
    · rw [himports'']
      exact firstImport?_append (firstImport?_like_none hlike hfront) hsource
    · rw [hbindings, List.mem_append, LocatedImport.lacking, List.mem_filter]
      by_cases hbinds : name ∈ existing.bindings
      · exact .inl hbinds
      · exact .inr ⟨hname, by simpa using hbinds⟩

/-- A first import that is not plain stays the first one. -/
private theorem again_of_beside (hfirst : firstImport? specifier imports = some existing)
    (hplain : existing.specifiers.all isPlainSpecifier = false) (hlacks : ¬ names ⊆ existing.bindings)
    (hafter : ImportsAfter path imports imports' (importPatch? path source imports specifier names)) :
    ∃ later, firstImport? specifier imports' = some later ∧ later.IsLike existing := by
  obtain ⟨hsource, front, back, himports, hfront⟩ := exists_split_of_firstImport? hfirst
  rw [importPatch?_existing hfirst, if_neg (mt isEmpty_lacking.1 hlacks), hplain,
    if_neg Bool.false_ne_true] at hafter
  cases hafter with
  | unchanged hpatch => cases hpatch
  | atTop _ hnil => simp [hnil] at himports
  | instead hpatch himports =>
    exact absurd hpatch.symm (replacing_ne_inserting (hplaces.nonempty _ (by simp [himports])))
  | @behind front' back front'' back'' old later new t hpatch himports' himports'' hlike hold hnew =>
    obtain ⟨rfl, rfl⟩ := hplaces.split_unique himports himports' (inserting_inj hpatch).1
    refine ⟨later, ?_, hold⟩
    rw [himports'']
    exact firstImport?_append (firstImport?_like_none hlike hfront) (hold.source.trans hsource)

omit hplaces in
/-- A first import that binds all names stays the first one. -/
private theorem again_of_complete (hfirst : firstImport? specifier imports = some existing)
    (hcomplete : names ⊆ existing.bindings)
    (hafter : ImportsAfter path imports imports' (importPatch? path source imports specifier names)) :
    ∃ existing, firstImport? specifier imports' = some existing ∧ names ⊆ existing.bindings := by
  rw [importPatch?_existing hfirst, if_pos (isEmpty_lacking.2 hcomplete)] at hafter
  cases hafter with
  | instead hpatch | behind hpatch | atTop hpatch => cases hpatch
  | unchanged _ himports =>
    have hrel : Option.Rel LocatedImport.IsLike (firstImport? specifier imports')
        (firstImport? specifier imports) :=
      firstImport?_like himports
    rw [hfirst] at hrel
    cases hlater : firstImport? specifier imports' with
    | none =>
      rw [hlater] at hrel
      cases hrel
    | some later =>
      rw [hlater] at hrel
      cases hrel with
      | some hlike =>
        refine ⟨later, rfl, ?_⟩
        rw [LocatedImport.bindings, hlike.specifiers]
        exact hcomplete

end

/-- After a pass has patched the imports of a module, they need no patch exactly if the first import
of the companion is missing, binds all names or is plain. -/
theorem importPatch?_again {imports' : List LocatedImport} {source' : Text} (hne : names ≠ [])
    (hnames : ∀ name ∈ names, IsBindable name)
    (hbound : ∀ declaration ∈ imports, ∀ name ∈ declaration.bindings, IsBindable name)
    (hplaces : StandInOrder imports)
    (hafter : ImportsAfter path imports imports' (importPatch? path source imports specifier names)) :
    importPatch? path source' imports' specifier names = none ↔ ∀ existing,
      firstImport? specifier imports = some existing →
      names ⊆ existing.bindings ∨ existing.specifiers.all isPlainSpecifier = true := by
  rw [importPatch?_eq_none_iff]
  cases hfirst : firstImport? specifier imports with
  | none => exact iff_of_true (again_of_absent hplaces hne hnames hfirst hafter) fun _ h => by cases h
  | some existing =>
    simp only [Option.some.injEq, forall_eq']
    by_cases hcomplete : names ⊆ existing.bindings
    · exact iff_of_true (again_of_complete hfirst hcomplete hafter) (.inl hcomplete)
    cases hplain : existing.specifiers.all isPlainSpecifier with
    | true =>
      have hmem : existing ∈ imports := List.mem_of_find?_eq_some hfirst
      exact iff_of_true
        (again_of_plain hplaces hnames (hbound existing hmem) hfirst hplain hcomplete hafter) (.inr rfl)
    | false =>
      -- the names went beside it, where nobody looks for them
      obtain ⟨later, hlater, hlike⟩ := again_of_beside hplaces hfirst hplain hcomplete hafter
      refine iff_of_false ?_ (by simp [hcomplete])
      rintro ⟨other, hother, hbinds⟩
      obtain rfl := Option.some.inj (hlater.symm.trans hother)
      rw [LocatedImport.bindings, hlike.specifiers] at hbinds
      exact hcomplete hbinds

/-! ### The top of a module -/

private theorem apply_inserting {text replacement : Text} {place : Nat}
    (hplace : place ≤ text.length) (file : Text) :
    Patch.apply file text [.inserting path place replacement] =
      .ok (text.take place ++ replacement ++ text.drop place) := by
  have hbounds : (Patch.inserting path place replacement).bounds? = some (place, place) := by
    simp [Patch.inserting, Patch.replacing, Patch.bounds?]
  have hcomplaint :
      (Patch.inserting path place replacement).complaint? file text.length place none = none := by
    simp [Patch.complaint?, Nat.not_lt.2 hplace]
  show Patch.applyInOrder file none text [.inserting path place replacement] = _
  simp only [Patch.applyInOrder, hbounds, hcomplaint]
  rfl

/-- The first import of a module that begins with a `#!` line goes behind the first line feed,
however that line ends, and in front of everything if there is none. -/
theorem apply_importPatch?_hashbang (hhash : source.beginsWith "#!") (path specifier file : Text)
    (names : List Text) :
    let written : Text := importStatement names specifier ++ "\n\n"
    ∃ patch, importPatch? path source [] specifier names = some patch ∧
      (∀ line rest, source = line ++ 0x0A :: rest → 0x0A ∉ line →
        Patch.apply file source [patch] = .ok (line ++ 0x0A :: (written ++ rest))) ∧
      (0x0A ∉ source → Patch.apply file source [patch] = .ok (written ++ source)) := by
  intro written
  refine ⟨.inserting path (topOf source) written, rfl, ?_, ?_⟩
  · rintro line rest hsource hline
    have hindex : source.findIdx? (fun u => u == 0x0A) = some line.length := by
      have hnone : line.findIdx? (fun u => u == 0x0A) = none :=
        List.findIdx?_eq_none_iff.2 fun u hu => beq_false_of_ne fun heq => hline (heq ▸ hu)
      have hfirst : (0x0A :: rest : Text).findIdx? (fun u => u == 0x0A) = some 0 := rfl
      rw [hsource, List.findIdx?_append, hnone, hfirst]
      simp
    have hplace : topOf source = line.length + 1 := by
      rw [topOf, if_pos hhash, hindex]
      rfl
    have hfits : line.length + 1 ≤ source.length := by simp [hsource]
    have hcut : line ++ 0x0A :: rest = line ++ [0x0A] ++ rest := List.append_cons ..
    have hlength : line.length + 1 = (line ++ [(0x0A : CodeUnit)]).length := by simp
    rw [hplace, apply_inserting hfits, hsource, hcut, hlength, List.take_left, List.drop_left]
    simp only [List.append_assoc, List.cons_append, List.nil_append]
  · -- without a line feed the place is the beginning of the text
    intro hnone
    have hindex : source.findIdx? (fun u => u == 0x0A) = none :=
      List.findIdx?_eq_none_iff.2 fun u hu => beq_false_of_ne fun heq => hnone (heq ▸ hu)
    have hplace : topOf source = 0 := by
      rw [topOf, if_pos hhash, hindex]
      rfl
    rw [hplace, apply_inserting (Nat.zero_le _)]
    rfl

/-! ### Modules -/

variable {options : GenerationOptions} {unit : SourceUnit} {module : Module} {located : LocatedClass}
  {delegate : Delegate}

/-- The options ask for a member of a class that the module declares. -/
def Wants (options : GenerationOptions) (unit : SourceUnit) (module : Module) (located : LocatedClass)
    (delegate : Delegate) : Prop :=
  ∃ content ∈ unit.classes, ∃ setting, ClassSetting.ofClass options unit content = .ok setting ∧
    module.findClass? content.model.name = some located ∧ delegate ∈ wantedDelegates setting

/-- A module serves the classes of a unit that it declares: they have the members that the options
ask for, and the first import of the companion binds the functions that these call. -/
structure IsServed (options : GenerationOptions) (unit : SourceUnit) (module : Module) : Prop where
  declares : ∀ located delegate, Wants options unit module located delegate →
    declaresMember delegate.name delegate.isStatic located.content.members = .ok true
  imports : ∀ located delegate, Wants options unit module located delegate →
    ∃ existing, firstImport? options.companionSpecifier module.imports = some existing ∧
      delegate.callee ∈ existing.bindings

variable {classes : List ClassDelegation}
  (hclasses : List.Forall₂ (ClassDelegation.Serves options unit module) unit.classes classes)

include hclasses

/-- The names that the classes need are those of the functions that wanted members call. -/
private theorem mem_names_iff {name : Text} : name ∈ classes.flatMap ClassDelegation.names ↔
    ∃ located delegate, Wants options unit module located delegate ∧ delegate.callee = name := by
  rw [List.mem_flatMap]
  constructor
  · rintro ⟨result, hresult, hname⟩
    obtain ⟨content, hcontent, hserves⟩ := exists_of_mem_right hclasses hresult
    cases hserves with
    | nothing => cases hname
    | @members setting located missing hsetting hlocated hmissing hwanted =>
      obtain ⟨delegate, hdelegate, rfl⟩ := List.mem_map.1 hname
      exact ⟨located, delegate, ⟨content, hcontent, setting, hsetting, hlocated, hdelegate⟩, rfl⟩
  · rintro ⟨located, delegate, ⟨content, hcontent, setting, hsetting, hlocated, hdelegate⟩, rfl⟩
    obtain ⟨result, hresult, hserves⟩ := exists_of_mem_left hclasses hcontent
    refine ⟨result, hresult, ?_⟩
    cases hserves with
    | nothing hnothing =>
      rw [hnothing setting located hsetting hlocated] at hdelegate
      cases hdelegate
    | members hsetting' =>
      obtain rfl := Except.ok.inj (hsetting.symm.trans hsetting')
      exact List.mem_map_of_mem hdelegate

/-- The classes need no patches exactly if they declare all wanted members. -/
private theorem patches_eq_nil_iff : classes.flatMap ClassDelegation.patches = [] ↔
    ∀ located delegate, Wants options unit module located delegate →
      declaresMember delegate.name delegate.isStatic located.content.members = .ok true := by
  rw [List.flatMap_eq_nil_iff]
  constructor
  · rintro hnone located delegate ⟨content, hcontent, setting, hsetting, hlocated, hdelegate⟩
    obtain ⟨result, hresult, hserves⟩ := exists_of_mem_left hclasses hcontent
    have hpatches := hnone result hresult
    cases hserves with
    | nothing hnothing =>
      rw [hnothing setting located hsetting hlocated] at hdelegate
      cases hdelegate
    | members hsetting' hlocated' hmissing =>
      obtain rfl := Except.ok.inj (hsetting.symm.trans hsetting')
      obtain rfl := Option.some.inj (hlocated.symm.trans hlocated')
      refine (missingDelegates_eq_nil_iff hmissing).1 ?_ delegate hdelegate
      by_contra hne
      simp [hne] at hpatches
  · intro hall result hresult
    obtain ⟨content, hcontent, hserves⟩ := exists_of_mem_right hclasses hresult
    cases hserves with
    | nothing => rfl
    | @members setting located missing hsetting hlocated hmissing hwanted =>
      have hnone : missing = [] := (missingDelegates_eq_nil_iff hmissing).2 fun delegate hdelegate =>
        hall located delegate ⟨content, hcontent, setting, hsetting, hlocated, hdelegate⟩
      simp [hnone]

/-- The imports need no patch exactly if the first one of the companion binds the functions that
wanted members call. -/
private theorem imports_eq_none_iff (path source : Text) :
    (let names := distinct (classes.flatMap ClassDelegation.names)
     names = [] ∨ importPatch? path source module.imports options.companionSpecifier names = none) ↔
    ∀ located delegate, Wants options unit module located delegate →
      ∃ existing, firstImport? options.companionSpecifier module.imports = some existing ∧
        delegate.callee ∈ existing.bindings := by
  dsimp only
  have hnames (name : Text) : name ∈ distinct (classes.flatMap ClassDelegation.names) ↔
      ∃ located delegate, Wants options unit module located delegate ∧ delegate.callee = name :=
    mem_distinct.trans (mem_names_iff hclasses)
  generalize distinct (classes.flatMap ClassDelegation.names) = names at hnames ⊢
  rw [importPatch?_eq_none_iff]
  constructor
  · rintro (rfl | ⟨existing, hfirst, hbound⟩) located delegate hwants
    · exact absurd ((hnames _).2 ⟨located, delegate, hwants, rfl⟩) List.not_mem_nil
    · exact ⟨existing, hfirst, hbound ((hnames _).2 ⟨located, delegate, hwants, rfl⟩)⟩
  · intro hall
    refine or_iff_not_imp_left.2 fun hne => ?_
    obtain ⟨name, hname⟩ := List.exists_mem_of_ne_nil names hne
    obtain ⟨located, delegate, hwants, -⟩ := (hnames name).1 hname
    obtain ⟨existing, hfirst, -⟩ := hall located delegate hwants
    refine ⟨existing, hfirst, fun name hname => ?_⟩
    obtain ⟨located, delegate, hwants, rfl⟩ := (hnames name).1 hname
    obtain ⟨other, hother, hbound⟩ := hall located delegate hwants
    rwa [Option.some.inj (hfirst.symm.trans hother)]

omit hclasses

/-- A unit needs no patches exactly if its module serves its classes. -/
theorem delegation_eq_nil_iff {patches : List Patch} {earlier diagnostics : List Diagnostic}
    (hmodule : parseModule unit.path unit.source = .ok module)
    (h : (delegation options unit).outcome earlier = (.ok patches, diagnostics)) :
    patches = [] ↔ IsServed options unit module := by
  refine (?_ : (delegation options unit).Yields fun patches => patches = [] ↔
    IsServed options unit module) _ _ _ h
  unfold delegation
  split
  · rename_i hempty
    -- without classes there is nothing to serve
    have hnone : ∀ content, content ∉ unit.classes := by simp [List.isEmpty_iff.1 hempty]
    refine yields_pure (iff_of_true rfl ⟨?_, ?_⟩) <;>
      exact fun _ _ ⟨content, hcontent, _⟩ => absurd hcontent (hnone content)
  · refine yields_bind (P := fun found => found = module) (yields_ofAttempt fun found hfound => ?_)
      fun found hfound => ?_
    · exact Except.ok.inj (hfound.symm.trans hmodule)
    subst hfound
    refine yields_bind (yields_mapM fun content _ => classDelegation_serves options unit found content)
      fun classes hclasses => ?_
    have hmembers := patches_eq_nil_iff hclasses
    have himports := imports_eq_none_iff hclasses unit.path unit.source
    have hserved : IsServed options unit found ↔ _ ∧ _ :=
      ⟨fun h => ⟨h.declares, h.imports⟩, fun h => ⟨h.1, h.2⟩⟩
    dsimp only at himports ⊢
    split
    · rename_i hempty
      refine yields_pure ?_
      rw [hserved, hmembers, ← himports]
      simp [List.isEmpty_iff.1 hempty]
    · rename_i hnonempty
      refine yields_pure ?_
      rw [hserved, ← hmembers, ← himports]
      simp [List.append_eq_nil_iff, Option.toList_eq_nil_iff, mt List.isEmpty_iff.2 hnonempty]

end JsonCompanion
