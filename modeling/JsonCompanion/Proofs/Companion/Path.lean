import Mathlib.Data.List.TakeWhile
import JsonCompanion.Companion.Path

/-!
# Companions of different files

The companion of a file has a path that no companion of another file has.

* `NamesFile` holds of paths that do not end in a slash.
* `exists_parts` cuts such a path into its directory, the root of its name and its extension.
* `companionPath_injective`: two such paths with the same companion are the same.
* `NamesSibling` says that a path is the one of another file in the same directory, and that the
  specifier of a sibling leads there; `companionPath_settles`: so it is with companions.
-/

namespace JsonCompanion

/-- A path that could be one of a file. -/
def NamesFile (path : Text) : Prop := path.getLast? ≠ some ('/' : CodeUnit)

instance (path : Text) : Decidable (NamesFile path) := inferInstanceAs (Decidable (_ ≠ _))

/-- A directory as it stands in front of a name. -/
private def IsDirectory (dir : Text) : Prop := dir = [] ∨ dir.getLast? = some ('/' : CodeUnit)

/-! ### The last part of a path -/

private theorem lastPart_append {dir name : Text} (hdir : IsDirectory dir) (hname : name ≠ [])
    (hslash : ('/' : CodeUnit) ∉ name) : lastPart (dir ++ name) = name := by
  have hall : ∀ u ∈ name.reverse, (!isSlash u) = true := by
    intro u hu
    have hne : u ≠ ('/' : CodeUnit) := fun heq => hslash (heq ▸ List.mem_reverse.1 hu)
    simpa [isSlash] using hne
  have hdrop : (name.reverse ++ dir.reverse).dropWhile isSlash = name.reverse ++ dir.reverse := by
    obtain ⟨u, units, hu⟩ := List.exists_cons_of_ne_nil (List.reverse_ne_nil_iff.2 hname)
    have hfirst := hall u (by simp [hu])
    rw [hu, List.cons_append, List.dropWhile_cons_of_neg (by simpa using hfirst)]
  have htake : dir.reverse.takeWhile (fun u => !isSlash u) = [] := by
    rcases hdir with rfl | hlast
    · rfl
    · rw [← List.head?_reverse] at hlast
      obtain ⟨units, hunits⟩ := List.head?_eq_some_iff.1 hlast
      rw [hunits]
      simp [isSlash]
  unfold lastPart
  rw [List.reverse_append, hdrop, List.takeWhile_append_of_pos hall, htake]
  simp

/-- A list in front of and behind the last place of an element. -/
private theorem exists_last {α : Type} {a : α} {l : List α} (h : a ∈ l) :
    ∃ before behind, l = before ++ a :: behind ∧ a ∉ behind := by
  obtain ⟨behind, before, heq, hnot⟩ := List.eq_append_cons_of_mem (List.mem_reverse.2 h)
  refine ⟨before.reverse, behind.reverse, ?_, by simpa using hnot⟩
  rw [← List.reverse_reverse l, heq]
  simp

private theorem exists_name {path : Text} (hfile : NamesFile path) :
    ∃ dir name, path = dir ++ name ∧ IsDirectory dir ∧ ('/' : CodeUnit) ∉ name ∧
      lastPart path = name := by
  by_cases hmem : ('/' : CodeUnit) ∈ path
  · obtain ⟨before, name, heq, hslash⟩ := exists_last hmem
    have hdir : IsDirectory (before ++ [('/' : CodeUnit)]) := .inr (by simp)
    have hname : name ≠ [] := by
      rintro rfl
      exact hfile (by simp [heq])
    have hpath : path = (before ++ [('/' : CodeUnit)]) ++ name := by simp [heq]
    exact ⟨_, name, hpath, hdir, hslash, hpath ▸ lastPart_append hdir hname hslash⟩
  · by_cases hname : path = []
    · subst hname
      exact ⟨[], [], rfl, .inl rfl, by simp, rfl⟩
    · exact ⟨[], path, rfl, .inl rfl, hmem, lastPart_append (.inl rfl) hname hmem⟩

/-! ### Extensions -/

private theorem extensionOfName_of_not_mem {name : Text} (h : ('.' : CodeUnit) ∉ name) :
    extensionOfName name = [] := by
  have hall : ∀ u ∈ name.reverse, (!(u == ('.' : CodeUnit))) = true := by
    intro u hu
    have hne : u ≠ ('.' : CodeUnit) := fun heq => h (heq ▸ List.mem_reverse.1 hu)
    simpa using hne
  unfold extensionOfName
  simp only [List.dropWhile_eq_nil_iff.2 hall]
  rfl

/-- The extension of a name begins at its last point, unless there is nothing in front of that or
nothing in the name but two points. -/
private theorem extensionOfName_point {root behind : Text} (h : ('.' : CodeUnit) ∉ behind) :
    extensionOfName (root ++ ('.' : CodeUnit) :: behind) =
      if root = [] ∨
        root ++ ('.' : CodeUnit) :: behind = (".." : Text) then [] else ('.' : CodeUnit) :: behind := by
  have hall : ∀ u ∈ behind.reverse, (!(u == ('.' : CodeUnit))) = true := by
    intro u hu
    have hne : u ≠ ('.' : CodeUnit) := fun heq => h (heq ▸ List.mem_reverse.1 hu)
    simpa using hne
  have hreverse : (root ++ ('.' : CodeUnit) :: behind).reverse =
      behind.reverse ++ ('.' : CodeUnit) :: root.reverse := by simp
  unfold extensionOfName
  simp only [hreverse, List.dropWhile_append_of_pos hall, List.takeWhile_append_of_pos hall]
  rcases hroot : root.reverse with _ | ⟨u, units⟩
  · simp [List.reverse_eq_nil_iff.1 hroot]
  · have hne : root ≠ [] := by
      rintro rfl
      simp at hroot
    by_cases htwo : root ++ ('.' : CodeUnit) :: behind = (".." : Text) <;> simp [hne, htwo]
    rfl

/-- What holds of the parts of a path: the directory, the root of the name and the extension. -/
private structure AreParts (path dir root ending : Text) : Prop where
  path_eq : path = dir ++ root ++ ending
  extension_eq : extension path = ending
  directory : IsDirectory dir
  slash : ('/' : CodeUnit) ∉ root ++ ending
  point : ending = [] ∨ root ≠ [] ∧ root ++ ending ≠ (".." : Text) ∧
    ∃ behind, ending = ('.' : CodeUnit) :: behind ∧ ('.' : CodeUnit) ∉ behind

private theorem exists_parts {path : Text} (hfile : NamesFile path) :
    ∃ dir root ending, AreParts path dir root ending := by
  obtain ⟨dir, name, rfl, hdir, hslash, hname⟩ := exists_name hfile
  have hext : extension (dir ++ name) = extensionOfName name := by rw [extension, hname]
  by_cases hmem : ('.' : CodeUnit) ∈ name
  · obtain ⟨root, behind, rfl, hpoint⟩ := exists_last hmem
    rw [extensionOfName_point hpoint] at hext
    by_cases hno : root = [] ∨ root ++ ('.' : CodeUnit) :: behind = (".." : Text)
    · rw [if_pos hno] at hext
      exact ⟨dir, root ++ ('.' : CodeUnit) :: behind,
        [], by simp, hext, hdir, by simpa using hslash, .inl rfl⟩
    · rw [if_neg hno] at hext
      rw [not_or] at hno
      exact ⟨dir, root, ('.' : CodeUnit) :: behind, by simp, hext, hdir, hslash,
        .inr ⟨hno.1, hno.2, behind, rfl, hpoint⟩⟩
  · rw [extensionOfName_of_not_mem hmem] at hext
    exact ⟨dir, name, [], by simp, hext, hdir, by simpa using hslash, .inl rfl⟩

/-- A name with something in front of a point has an extension. -/
private theorem extension_ne_nil {dir root rest : Text} (hdir : IsDirectory dir) (hroot : root ≠ [])
    (hslash : ('/' : CodeUnit) ∉ root ++ rest) (hpoint : ('.' : CodeUnit) ∈ rest)
    (htwo : root ++ rest ≠ (".." : Text)) : extension (dir ++ root ++ rest) ≠ [] := by
  obtain ⟨before, behind, rfl, hbehind⟩ := exists_last hpoint
  have hname : lastPart (dir ++ root ++ (before ++ ('.' : CodeUnit) :: behind)) =
      (root ++ before) ++ ('.' : CodeUnit) :: behind := by
    rw [List.append_assoc, lastPart_append hdir (by simp) hslash]
    simp
  have hno : ¬ (root ++ before = [] ∨
      (root ++ before) ++ ('.' : CodeUnit) :: behind = (".." : Text)) := by
    rw [not_or]
    exact ⟨by simp [hroot], by simpa using htwo⟩
  rw [extension, hname, extensionOfName_point hbehind, if_neg hno]
  simp

/-! ### Companions -/

private theorem AreParts.companionPath_eq {path dir root ending : Text}
    (h : AreParts path dir root ending) (suffix : Text) :
    companionPath path suffix = dir ++ root ++ suffix ++ ending := by
  have hlength : path.length - ending.length = (dir ++ root).length := by
    rw [h.path_eq, List.length_append, Nat.add_sub_cancel]
  unfold companionPath
  simp only [h.extension_eq, hlength]
  rw [h.path_eq, List.take_left]

theorem companionPath_length {path : Text} (suffix : Text) (hfile : NamesFile path) :
    (companionPath path suffix).length = path.length + suffix.length := by
  obtain ⟨dir, root, ending, h⟩ := exists_parts hfile
  rw [h.companionPath_eq, h.path_eq]
  simp only [List.length_append]
  omega

/-- The path with the shorter extension is the other one. -/
private theorem eq_of_shorter {p q suffix : Text} (hslash : ('/' : CodeUnit) ∉ suffix)
    {dir root ending dir' root' ending' : Text} (hp : AreParts p dir root ending)
    (hq : AreParts q dir' root' ending') (hlength : ending.length ≤ ending'.length)
    (h : companionPath p suffix = companionPath q suffix) : p = q := by
  rw [hp.companionPath_eq, hq.companionPath_eq] at h
  rcases Nat.eq_or_lt_of_le hlength with heq | hlt
  · obtain ⟨hfront, rfl⟩ := List.append_inj' h heq
    obtain ⟨hstem, -⟩ := List.append_inj' hfront rfl
    rw [hp.path_eq, hq.path_eq, hstem]
  exfalso
  obtain ⟨hroot', htwo', behind', rfl, hpoint'⟩ := hq.point.resolve_left (by rintro rfl; simp at hlt)
  rcases hp.point with rfl | ⟨-, -, behind, rfl, hpoint⟩
  · -- without an extension `p` ends with a rest that has the point of the extension of `q`
    obtain ⟨rest, hrest, hturn⟩ : ∃ rest, dir ++ root = dir' ++ root' ++ rest ∧
        rest ++ suffix = suffix ++ ('.' : CodeUnit) :: behind' := by
      rw [List.append_nil, List.append_assoc (dir' ++ root')] at h
      rcases List.append_eq_append_iff.1 h with ⟨rest, hrest, hturn⟩ | ⟨rest, hrest, hturn⟩
      · have := congrArg List.length hturn
        simp only [List.length_append, List.length_cons] at this
        omega
      · exact ⟨rest, hrest, hturn.symm⟩
    have hcount := congrArg (List.count ('.' : CodeUnit)) hturn
    simp only [List.count_append, List.count_cons_self] at hcount
    have hmem : ('.' : CodeUnit) ∈ rest := List.count_pos_iff.1 (by omega)
    have hrestslash : ('/' : CodeUnit) ∉ rest := by
      intro hin
      have hin' : ('/' : CodeUnit) ∈ suffix ++ ('.' : CodeUnit) :: behind' :=
        hturn ▸ List.mem_append_left _ hin
      rcases List.mem_append.1 hin' with hin' | hin'
      · exact hslash hin'
      · exact hq.slash (List.mem_append_right _ hin')
    refine extension_ne_nil hq.directory hroot' ?_ hmem ?_ ?_
    · intro hin
      rcases List.mem_append.1 hin with hin | hin
      · exact hq.slash (List.mem_append_left _ hin)
      · exact hrestslash hin
    · -- the rest is as long as the extension of `q`, so one point, and `q` would have that name
      intro htwo
      have hlong : (root' ++ rest).length = 2 := congrArg List.length htwo
      have hturn' := congrArg List.length hturn
      have hone := List.length_pos_iff.2 hroot'
      have hrest' := List.length_pos_of_mem hmem
      simp only [List.length_append, List.length_cons] at hlong hturn'
      obtain rfl : behind' = [] := List.length_eq_zero_iff.1 (by omega)
      obtain ⟨u, rfl⟩ := List.length_eq_one_iff.1 (show rest.length = 1 by omega)
      obtain rfl : ('.' : CodeUnit) = u := by simpa using hmem
      exact htwo' htwo
    · have hext := hp.extension_eq
      rwa [hp.path_eq, List.append_nil, hrest] at hext
  · -- the extension of `p` is part of that of `q` and begins with a point of its own
    have hsuffix : ('.' : CodeUnit) :: behind <:+ ('.' : CodeUnit) :: behind' :=
      List.suffix_of_suffix_length_le (h ▸ List.suffix_append _ _) (List.suffix_append _ _) hlength
    rcases List.suffix_cons_iff.1 hsuffix with heq | hsuffix
    · exact absurd (congrArg List.length heq) (by simpa using hlt.ne)
    · exact hpoint' (hsuffix.subset (by simp))

/-- Different files have different companions. -/
theorem companionPath_injective {p q suffix : Text} (hslash : ('/' : CodeUnit) ∉ suffix)
    (hp : NamesFile p) (hq : NamesFile q) (h : companionPath p suffix = companionPath q suffix) :
    p = q := by
  obtain ⟨_, _, ending, hp'⟩ := exists_parts hp
  obtain ⟨_, _, ending', hq'⟩ := exists_parts hq
  rcases Nat.le_total ending.length ending'.length with hle | hle
  · exact eq_of_shorter hslash hp' hq' hle h
  · exact (eq_of_shorter hslash hq' hp' hle h.symm).symm

/-! ### Directories -/

/-- The directory of a path, as it stands in front of the last part. -/
def directoryOf (path : Text) : Text := path.take (path.length - (lastPart path).length)

/-- The path that a specifier names from a directory: behind a point and a slash stands what is to
be found there. -/
def namedFrom? (dir specifier : Text) : Option Text :=
  (Text.dropBeginning? "./" specifier).map (dir ++ ·)

private theorem directory_append {dir name : Text} (hdir : IsDirectory dir) (hname : name ≠ [])
    (hslash : ('/' : CodeUnit) ∉ name) : directoryOf (dir ++ name) = dir := by
  rw [directoryOf, lastPart_append hdir hname hslash, List.length_append, Nat.add_sub_cancel,
    List.take_left]

private theorem AreParts.directory_eq {path dir root ending : Text} (h : AreParts path dir root ending)
    (hfile : NamesFile path) : directoryOf path = dir := by
  by_cases hname : root ++ ending = []
  · obtain ⟨rfl, rfl⟩ := List.append_eq_nil_iff.1 hname
    obtain rfl : path = dir := by simpa using h.path_eq
    rcases h.directory with rfl | hlast
    · rfl
    · exact absurd hlast hfile
  · rw [h.path_eq, List.append_assoc]
    exact directory_append h.directory hname h.slash

/-- What a suffix makes of a path: the path of another file in the same directory, which a module
there finds by the specifier of a sibling. -/
structure NamesSibling (path companion : Text) : Prop where
  ne : companion ≠ path
  directory_eq : directoryOf companion = directoryOf path
  named : namedFrom? (directoryOf path) (siblingSpecifier companion) = some companion

private theorem namesSibling_companionPath {path suffix : Text} (hne : suffix ≠ [])
    (hslash : ('/' : CodeUnit) ∉ suffix) (hfile : NamesFile path) :
    NamesSibling path (companionPath path suffix) := by
  obtain ⟨dir, root, ending, h⟩ := exists_parts hfile
  have hcompanion :
      companionPath path suffix = dir ++
      (root ++ suffix ++ ending) := by simp [h.companionPath_eq suffix]
  have hname : root ++ suffix ++ ending ≠ [] := by simp [hne]
  have hnameSlash : ('/' : CodeUnit) ∉ root ++ suffix ++ ending := by
    have hparts := h.slash
    simp only [List.mem_append, not_or] at hparts ⊢
    exact ⟨⟨hparts.1, hslash⟩, hparts.2⟩
  have hdirectory : directoryOf (companionPath path suffix) = dir := by
    rw [hcompanion, directory_append h.directory hname hnameSlash]
  constructor
  case ne =>
    intro heq
    have hlength := companionPath_length suffix hfile
    rw [heq] at hlength
    have hpos := List.length_pos_iff.2 hne
    omega
  case directory_eq => rw [hdirectory, h.directory_eq hfile]
  case named =>
    have hspecifier : siblingSpecifier (companionPath path suffix) = "./" ++
        (root ++ suffix ++ ending) := by
      rw [siblingSpecifier, hcompanion, lastPart_append h.directory hname hnameSlash]
    rw [hspecifier, h.directory_eq hfile, hcompanion]
    rfl

/-- With a suffix that is part of a name, different files have different companions, and the
companion of a file is another file beside it. -/
theorem companionPath_settles {suffix : Text} (hne : suffix ≠ []) (hslash : ('/' : CodeUnit) ∉ suffix) :
    (∀ p q, NamesFile p → NamesFile q → companionPath p suffix = companionPath q suffix → p = q) ∧
      ∀ path, NamesFile path → NamesSibling path (companionPath path suffix) :=
  ⟨fun _ _ hp hq h => companionPath_injective hslash hp hq h,
    fun _ hfile => namesSibling_companionPath hne hslash hfile⟩

/-- The suffix has points as the names do, one of which is hidden. -/
theorem companionPath_settles_hidden :
    let suffix : Text := ".g.js"
    suffix ≠ [] ∧ ('/' : CodeUnit) ∉ suffix ∧ NamesFile "src/.env" ∧ NamesFile "src/.env.js" ∧
      companionPath "src/.env" suffix = "src/.env.g.js" ∧
        companionPath "src/.env.js" suffix = "src/.env.g.js.js" ∧
      companionPath "src/.env" suffix ≠ companionPath "src/.env.js" suffix ∧
      NamesSibling "src/.env" (companionPath "src/.env" suffix) := by
  intro suffix
  have hne : suffix ≠ [] := by decide
  have hslash : ('/' : CodeUnit) ∉ suffix := by decide
  have hhidden : NamesFile "src/.env" := by decide
  have hscript : NamesFile "src/.env.js" := by decide
  obtain ⟨hinjective, hsibling⟩ := companionPath_settles hne hslash
  have hpaths : ("src/.env" : Text) ≠ "src/.env.js" := by decide
  exact ⟨hne, hslash, hhidden,
    hscript, by decide, by decide, fun heq => hpaths (hinjective _ _ hhidden hscript heq),
    hsibling _ hhidden⟩

end JsonCompanion
