import JsonCompanion.Proofs.Read.Braces
import JsonCompanion.Proofs.Script.Lexing
import JsonCompanion.Proofs.Text.Beginning
import JsonCompanion.Proofs.Text.Dotted
import JsonCompanion.Proofs.Text.Join
import JsonCompanion.Proofs.Text.Words
import JsonCompanion.Read.DocComment

/-!
# Type parameters in comments

A tag declares type parameters as a list of names, perhaps behind a constraint in braces.

* `templateNames_append`: tags whose constraints are closed do not reach into the next tag.
* `templateNames_constrained`: the list begins behind the first closing brace of a constraint,
  whether that one closes the constraint or a brace in it.
* `listedNames_join`: a list of identifiers lists those of them that are plain.
* `templates_settle`: so a constraint without braces is passed, and of one with braces the rest is
  read as a part of the list, in the place of the first name.
-/

namespace JsonCompanion

variable {t before behind inner more name : Text} {names : List Text} {u : CodeUnit}

/-! ### Passing units -/

theorem templateNames_drop (pending : Nat) (t : Text) :
    templateNames pending t = templateNames 0 (t.drop pending) := by
  induction pending generalizing t with
  | zero => rfl
  | succ pending ih =>
    cases t with
    | nil => rfl
    | cons u t => exact ih t

private theorem templateNames_cons (h : Text.dropBeginning? "@template" (u :: t) = none) :
    templateNames 0 (u :: t) = templateNames 0 t := by
  rw [templateNames, h]

/-- No tag begins in a text without its mark. -/
private theorem templateNames_front (h : CodeUnit.ofChar '@' ∉ before) (t : Text) :
    templateNames 0 (before ++ t) = templateNames 0 t := by
  induction before with
  | nil => rfl
  | cons u before ih =>
    have hnone : Text.dropBeginning? "@template" (u :: (before ++ t)) = none := by
      refine Option.eq_none_iff_forall_ne_some.2 fun rest hrest => h ?_
      rw [(List.cons.inj (Text.dropBeginning?_eq_some_iff.1 hrest)).1]
      exact List.mem_cons_self
    rw [List.cons_append, templateNames_cons hnone]
    exact ih fun hmem => h (List.mem_cons_of_mem u hmem)

/-- What a tag declares, and where the search goes on. -/
private theorem templateNames_tag (behind : Text) : templateNames 0 ("@template" ++ behind) =
    match templateAt? behind with
    | some found => listedNames found.declared ++ templateNames 0 (behind.drop found.width)
    | none => templateNames 0 behind := by
  have hbeginning :
      Text.dropBeginning? "@template" (CodeUnit.ofChar '@' :: ("template" ++ behind)) = some behind :=
    Text.dropBeginning?_append "@template" behind
  show templateNames 0 (CodeUnit.ofChar '@' :: ("template" ++ behind)) = _
  rw [templateNames, hbeginning]
  dsimp only
  cases templateAt? behind with
  | none =>
    have hmark : CodeUnit.ofChar '@' ∉ Text.ofString "template" := by decide
    exact templateNames_front hmark behind
  | some found =>
    dsimp only
    rw [templateNames_drop, ← List.drop_drop]
    rfl

/-! ### Lists and constraints -/

/-- The first unit that is no blank may stand in a list. -/
def BeginsList (t : Text) : Prop := ∃ u ∈ t.trimStart.head?, isTemplateUnit u = true

private theorem templateList?_begins (h : BeginsList t) (width : Nat) : templateList? width t.trimStart =
    some ⟨t.trimStart.takeWhile isTemplateUnit,
      width + (t.trimStart.takeWhile isTemplateUnit).length⟩ := by
  obtain ⟨u, hu, hunit⟩ := h
  obtain ⟨rest, hrest⟩ := List.head?_eq_some_iff.1 hu
  rw [templateList?, hrest, List.takeWhile_cons_of_pos hunit]
  rfl

/-- The list is taken from what stands behind the front of a tag, with the blanks between. -/
private theorem templateNames_found (front : Text) {tail : Text} (htail : BeginsList tail)
    (h : templateAt? (front ++ tail) = templateList?
      (front.length + (tail.takeWhile CodeUnit.isBlank).length) tail.trimStart) :
    templateNames 0 ("@template" ++ (front ++ tail)) =
      listedNames (tail.trimStart.takeWhile isTemplateUnit) ++ templateNames 0 tail := by
  rw [templateList?_begins htail] at h
  have hmark : isTemplateUnit '@' = false := by decide
  have hblank : CodeUnit.isBlank '@' = false := by decide
  -- neither the blanks nor the list hold another tag
  have htail : templateNames 0 tail = templateNames 0 (tail.trimStart.dropWhile isTemplateUnit) := by
    conv_lhs => rw [← List.takeWhile_append_dropWhile (p := CodeUnit.isBlank) (l := tail)]
    rw [templateNames_front fun hmem =>
      absurd (List.mem_takeWhile_imp hmem) (by rw [hblank]; exact Bool.false_ne_true)]
    show templateNames 0 tail.trimStart = _
    conv_lhs => rw [← List.takeWhile_append_dropWhile (p := isTemplateUnit) (l := tail.trimStart)]
    exact templateNames_front
      (fun hmem => absurd (List.mem_takeWhile_imp hmem) (by rw [hmark]; exact Bool.false_ne_true)) _
  rw [templateNames_tag, h, htail]
  dsimp only
  rw [Nat.add_assoc, ← List.drop_drop, List.drop_left, ← List.drop_drop, Text.drop_takeWhile]
  exact congrArg (_ ++ templateNames 0 ·) (Text.drop_takeWhile isTemplateUnit tail.trimStart)

/-- A constraint ends at its first closing brace. -/
private theorem constrainedList?_eq (hinner : CodeUnit.ofChar '\x7d' ∉ inner) (tail : Text)
    (width : Nat) :
    constrainedList? width (CodeUnit.ofChar '\x7b' :: inner ++ CodeUnit.ofChar '\x7d' :: tail) =
      (templateList? (width + (inner.length + 2) + (tail.takeWhile CodeUnit.isBlank).length)
        tail.trimStart).or
        (blankList? (width + (inner.length + 2)) (tail.takeWhile CodeUnit.isBlank)) := by
  have htake : (CodeUnit.ofChar '\x7b' :: inner ++ CodeUnit.ofChar '\x7d' :: tail).takeWhile
      (fun u => u != CodeUnit.ofChar '\x7d') = CodeUnit.ofChar '\x7b' :: inner := by
    refine (Text.takeWhile_stop (by decide) _ tail).trans
      (List.takeWhile_eq_self_iff.2 fun u hu => bne_iff_ne.2 ?_)
    rintro rfl
    rcases List.mem_cons.1 hu with heq | hu
    · exact absurd heq (by decide)
    · exact hinner hu
  have hdrop : (CodeUnit.ofChar '\x7b' :: inner ++ CodeUnit.ofChar '\x7d' :: tail).drop
      ((CodeUnit.ofChar '\x7b' :: inner).length + 1) = tail := by
    rw [← List.drop_drop, List.drop_left]
    rfl
  have hblanks : tail.drop (tail.takeWhile CodeUnit.isBlank).length = tail.trimStart :=
    Text.drop_takeWhile CodeUnit.isBlank tail
  have hhead : ((CodeUnit.ofChar '\x7b' :: inner ++ CodeUnit.ofChar '\x7d' :: tail).head? ==
      some (CodeUnit.ofChar '\x7b')) = true := rfl
  simp only [constrainedList?, htake, hdrop, hblanks, hhead, if_true]
  rw [if_pos (by simp), List.length_cons]
  rfl

/-- A constraint is passed up to its first closing brace. -/
theorem templateNames_constrained (hinner : CodeUnit.ofChar '\x7d' ∉ inner) {tail : Text}
    (htail : BeginsList tail) :
    templateNames 0 ("@template \x7b" ++ inner ++ "\x7d" ++ tail) =
      listedNames (tail.trimStart.takeWhile isTemplateUnit) ++ templateNames 0 tail := by
  have hfront : (" \x7b" ++ inner ++ "\x7d" : Text).length = 1 + (inner.length + 2) := by
    have hopen : (Text.ofString " \x7b").length = 2 := rfl
    have hclose : (Text.ofString "\x7d").length = 1 := rfl
    rw [List.length_append, List.length_append, hopen, hclose]
    omega
  have hfound : templateAt? (" \x7b" ++ inner ++ "\x7d" ++ tail) =
      ((constrainedList? 1 (CodeUnit.ofChar '\x7b' :: inner ++ CodeUnit.ofChar '\x7d' :: tail)).or
        (templateList? 1
        (CodeUnit.ofChar '\x7b' :: inner ++ CodeUnit.ofChar '\x7d' :: tail))).or (blankList? 1 []) := by
    rw [List.append_assoc]
    rfl
  rw [constrainedList?_eq hinner, templateList?_begins htail, Option.some_or, Option.some_or,
    Option.some_or, ← templateList?_begins htail, ← hfront] at hfound
  have htag := templateNames_found _ htail hfound
  rw [List.append_assoc, List.append_assoc] at htag ⊢
  exact htag

/-- Without a constraint the list begins behind the tag. -/
theorem templateNames_unconstrained {tail : Text} (htail : BeginsList tail)
    (hopen : tail.trimStart.head? ≠ some (CodeUnit.ofChar '\x7b')) :
    templateNames 0 ("@template " ++ tail) =
      listedNames (tail.trimStart.takeWhile isTemplateUnit) ++ templateNames 0 tail := by
  have hblanks : (0x20 :: tail).takeWhile CodeUnit.isBlank = 0x20 ::
      tail.takeWhile CodeUnit.isBlank := rfl
  have hdrop : (0x20 :: tail).drop (0x20 :: tail.takeWhile CodeUnit.isBlank).length = tail.trimStart :=
    Text.drop_takeWhile CodeUnit.isBlank tail
  have hnone (width : Nat) : constrainedList? width tail.trimStart = none := by
    rw [constrainedList?, if_neg (by simpa using hopen)]
  have hfound : templateAt? (0x20 :: tail) =
      templateList? (1 + (tail.takeWhile CodeUnit.isBlank).length) tail.trimStart := by
    simp only [templateAt?, hblanks, hdrop, hnone, Option.none_or, templateList?_begins htail,
      Option.some_or]
    rw [Nat.add_comm 1]
    rfl
  exact templateNames_found " " htail hfound

/-! ### Earlier tags -/

/-- If blanks and an opening brace stand behind a tag, a closing one does as well. -/
def ClosesConstraint (behind : Text) : Prop :=
  (∃ u ∈ behind.head?, u.isBlank = true) → behind.trimStart.head? = some (CodeUnit.ofChar '\x7b') →
    CodeUnit.ofChar '\x7d' ∈ behind

/-- Every constraint that a tag of the text begins is closed in the text. -/
def ConstraintsClose (t : Text) : Prop :=
  ∀ behind, Text.ofString "@template" ++ behind <:+ t → ClosesConstraint behind

private theorem templateList?_mark (width : Nat) (t more : Text) :
    templateList? width (t ++ CodeUnit.ofChar '@' :: more) = templateList? width t := by
  rw [templateList?, templateList?, Text.takeWhile_stop (by decide)]

private theorem constrainedList?_mark
    (hclosed : t.head? = some (CodeUnit.ofChar '\x7b') → CodeUnit.ofChar '\x7d' ∈ t) (width : Nat)
    (more : Text) :
    constrainedList? width (t ++ CodeUnit.ofChar '@' :: more) = constrainedList? width t := by
  by_cases hopen : t.head? = some (CodeUnit.ofChar '\x7b')
  · -- the constraint ends before the mark, and the list begins before it
    obtain ⟨front, tail, ht, hfront⟩ := List.eq_append_cons_of_mem (hclosed hopen)
    obtain ⟨inner, rfl⟩ : ∃ inner : Text, front = CodeUnit.ofChar '\x7b' :: inner := by
      cases front with
      | nil =>
        rw [ht, List.nil_append, List.head?_cons] at hopen
        exact absurd (Option.some.inj hopen) (by decide)
      | cons u inner =>
        rw [ht, List.cons_append, List.head?_cons] at hopen
        exact ⟨inner, by rw [Option.some.inj hopen]⟩
    have hinner : CodeUnit.ofChar '\x7d' ∉ inner := fun hmem => hfront (List.mem_cons_of_mem _ hmem)
    have hstart : Text.trimStart (tail ++ CodeUnit.ofChar '@' :: more) = Text.trimStart tail ++
        CodeUnit.ofChar '@' :: more :=
      Text.dropWhile_stop (by decide) tail more
    have hblanks : (tail ++ CodeUnit.ofChar '@' :: more).takeWhile CodeUnit.isBlank =
        tail.takeWhile CodeUnit.isBlank :=
      Text.takeWhile_stop (by decide) tail more
    have happend : CodeUnit.ofChar '\x7b' :: inner ++ CodeUnit.ofChar '\x7d' :: tail ++
        CodeUnit.ofChar '@' :: more =
        CodeUnit.ofChar '\x7b' :: inner ++ CodeUnit.ofChar '\x7d' ::
          (tail ++ CodeUnit.ofChar '@' :: more) :=
      List.append_assoc ..
    rw [ht, happend, constrainedList?_eq hinner, constrainedList?_eq hinner, hstart,
      templateList?_mark, hblanks]
  · have hopen' : (t ++ CodeUnit.ofChar '@' :: more).head? ≠ some (CodeUnit.ofChar '\x7b') := by
      cases t with
      | nil => exact fun h => absurd (Option.some.inj h) (by decide)
      | cons u t => exact hopen
    rw [constrainedList?, constrainedList?, if_neg (by simpa using hopen'),
      if_neg (by simpa using hopen)]

/-- A tag does not reach beyond the mark of the next one. -/
private theorem templateAt?_mark (hclosed : ClosesConstraint behind) (more : Text) :
    templateAt? (behind ++ CodeUnit.ofChar '@' :: more) = templateAt? behind := by
  have hblanks : (behind ++ CodeUnit.ofChar '@' :: more).takeWhile CodeUnit.isBlank =
      behind.takeWhile CodeUnit.isBlank :=
    Text.takeWhile_stop (by decide) behind more
  have hrest : (behind ++ CodeUnit.ofChar '@' :: more).drop (behind.takeWhile CodeUnit.isBlank).length =
      behind.trimStart ++ CodeUnit.ofChar '@' :: more := by
    rw [← hblanks, Text.drop_takeWhile]
    exact Text.dropWhile_stop (by decide) behind more
  have hdrop : behind.drop (behind.takeWhile CodeUnit.isBlank).length = behind.trimStart :=
    Text.drop_takeWhile _ behind
  rw [templateAt?, templateAt?]
  simp only [hblanks, hrest, hdrop]
  split
  · rfl
  · next hblank =>
    have hclosed' : behind.trimStart.head? = some (CodeUnit.ofChar '\x7b') →
        CodeUnit.ofChar '\x7d' ∈ behind.trimStart := by
      intro hopen
      have hhead : ∃ u ∈ behind.head?, u.isBlank = true := by
        cases behind with
        | nil => exact absurd rfl hblank
        | cons u behind =>
          refine ⟨u, rfl, ?_⟩
          cases hu : u.isBlank with
          | true => rfl
          | false =>
            have hnot : ¬ u.isBlank = true := by rw [hu]; exact Bool.false_ne_true
            exact absurd (by rw [List.takeWhile_cons_of_neg hnot]; rfl) hblank
      -- the closing brace is none of the blanks in front
      have hmem := hclosed hhead hopen
      rw [← List.takeWhile_append_dropWhile (p := CodeUnit.isBlank) (l := behind),
        List.mem_append] at hmem
      exact hmem.resolve_left fun hmem => absurd (List.mem_takeWhile_imp hmem) (by decide)
    rw [constrainedList?_mark hclosed', templateList?_mark]

private theorem length_takeWhile_le (isIn : CodeUnit → Bool) (t : Text) :
    (t.takeWhile isIn).length ≤ t.length :=
  (List.takeWhile_prefix isIn).length_le

private theorem templateList?_width_le {width : Nat} {found : TemplateMatch}
    (h : templateList? width t = some found) :
    found.width ≤ width + t.length := by
  rw [templateList?] at h
  split at h
  · cases h
  · obtain rfl := Option.some.inj h
    have hle := length_takeWhile_le isTemplateUnit t
    show width + (t.takeWhile isTemplateUnit).length ≤ _
    omega

private theorem blankList?_width_le {width : Nat} {found : TemplateMatch}
    (h : blankList? width t = some found) :
    found.width ≤ width + t.length := by
  rw [blankList?] at h
  split at h
  · cases h
  · obtain rfl := Option.some.inj h
    have hle := (List.dropWhile_suffix (fun u => u == 0x0A) (l := t.reverse)).length_le
    rw [List.length_reverse] at hle
    show width + _ ≤ _
    omega

private theorem constrainedList?_width_le {width : Nat} {found : TemplateMatch}
    (h : constrainedList? width t = some found) :
    found.width ≤ width + t.length := by
  simp only [constrainedList?] at h
  split at h
  · split at h
    · next hlt =>
      have hblanks :=
        length_takeWhile_le CodeUnit.isBlank
        (t.drop ((t.takeWhile fun u => u != CodeUnit.ofChar '\x7d').length + 1))
      rcases Option.or_eq_some_iff.1 h with h | ⟨-, h⟩
      · have hle := templateList?_width_le h
        simp only [List.length_drop] at hle hblanks
        omega
      · have hle := blankList?_width_le h
        simp only [List.length_drop] at hle hblanks
        omega
    · cases h
  · cases h

/-- What a tag covers is part of the text. -/
private theorem templateAt?_width_le {found : TemplateMatch} (h : templateAt? behind = some found) :
    found.width ≤ behind.length := by
  have hblanks := length_takeWhile_le CodeUnit.isBlank behind
  rw [templateAt?] at h
  split at h
  · cases h
  · next hblank =>
    rcases Option.or_eq_some_iff.1 h with h | ⟨-, h⟩
    · have hle : found.width ≤ (behind.takeWhile CodeUnit.isBlank).length +
          (behind.drop (behind.takeWhile CodeUnit.isBlank).length).length := by
        rcases Option.or_eq_some_iff.1 h with h | ⟨-, h⟩
        · exact constrainedList?_width_le h
        · exact templateList?_width_le h
      rw [List.length_drop] at hle
      omega
    · have hle := blankList?_width_le h
      have hpos : 0 < (behind.takeWhile CodeUnit.isBlank).length := by
        rw [List.length_pos_iff]
        exact fun hnil => hblank (by rw [hnil]; rfl)
      rw [List.length_drop] at hle
      omega

/-- Tags whose constraints are closed do not reach into the next tag. -/
theorem templateNames_append (hbefore : ConstraintsClose before) (more : Text) :
    templateNames 0 (before ++ CodeUnit.ofChar '@' :: more) =
      templateNames 0 before ++ templateNames 0 (CodeUnit.ofChar '@' :: more) := by
  -- a step takes a whole tag or one unit, so that the length decides
  induction hlength : before.length using Nat.strongRecOn generalizing before with
  | ind length ih =>
    subst hlength
    have hsuffix {t : Text} (ht : t <:+ before) : ConstraintsClose t :=
      fun behind h => hbefore behind (h.trans ht)
    cases hfirst : Text.dropBeginning? "@template" before with
    | none =>
      cases before with
      | nil => rfl
      | cons u before =>
        have hnone :
            Text.dropBeginning? "@template" (u :: (before ++ CodeUnit.ofChar '@' :: more)) = none := by
          refine Option.eq_none_iff_forall_ne_some.2 fun rest hrest => ?_
          have hmark : CodeUnit.ofChar '@' ∉ Text.ofString "template" := by decide
          obtain ⟨rest, hrest⟩ :=
            Text.isPrefix_marked hmark ⟨rest, (Text.dropBeginning?_eq_some_iff.1 hrest).symm⟩
          exact absurd (hfirst.symm.trans (Text.dropBeginning?_eq_some_iff.2 hrest.symm)) (by simp)
        rw [List.cons_append, templateNames_cons hnone, templateNames_cons hfirst]
        exact ih before.length (Nat.lt_succ_self _) (hsuffix (List.suffix_cons u before)) rfl
    | some behind =>
      obtain rfl := Text.dropBeginning?_eq_some_iff.1 hfirst
      have hmark := templateAt?_mark (hbefore behind List.suffix_rfl) more
      have hlt : behind.length < (Text.ofString "@template" ++ behind).length := by
        have htag : (Text.ofString "@template").length = 9 := rfl
        rw [List.length_append, htag]
        omega
      rw [List.append_assoc]
      cases hfound : templateAt? behind with
      | none =>
        rw [templateNames_tag, templateNames_tag, hmark, hfound]
        exact ih behind.length hlt (hsuffix (List.suffix_append _ _)) rfl
      | some found =>
        have hwidth := templateAt?_width_le hfound
        rw [templateNames_tag, templateNames_tag, hmark, hfound]
        dsimp only
        rw [List.drop_append_of_le_length hwidth, List.append_assoc]
        have hle : (behind.drop found.width).length ≤ behind.length := by
          rw [List.length_drop]
          omega
        rw [ih _ (Nat.lt_of_le_of_lt hle hlt)
          (hsuffix ((List.drop_suffix found.width behind).trans (List.suffix_append _ _))) rfl]

/-! ### Names of a list -/

/-- The plain ones of the first words of the parts are listed. -/
theorem listedNames_eq (t : Text) :
    listedNames t = ((t.splitOn ',').map Text.firstWord).filter Text.isPlainIdentifier := by
  rw [listedNames, ← List.filterMap_eq_filter, List.filterMap_map]
  simp only [Text.takeWhile_trim]
  rfl

private theorem comma_not_mem (hblanks : t.isBlank = true) : CodeUnit.ofChar ',' ∉ t := fun hmem =>
  absurd (List.all_eq_true.1 hblanks _ hmem) (by decide)

/-- Each side of a comma has its names. -/
private theorem listedNames_comma (t more : Text) :
    listedNames (t ++ CodeUnit.ofChar ',' :: more) = listedNames t ++ listedNames more := by
  simp only [listedNames_eq, Text.splitOn_append, List.map_append, List.filter_append]

private theorem listedNames_front (hblanks : before.isBlank = true) (t : Text) :
    listedNames (before ++ t) = listedNames t := by
  obtain ⟨first, rest, hsplit, -⟩ := Text.exists_splitOn (CodeUnit.ofChar ',') t
  have hword : Text.firstWord (before ++ first) = Text.firstWord first := by
    rw [Text.firstWord, Text.trimStart_blanks hblanks, Text.firstWord]
  rw [listedNames_eq, listedNames_eq, Text.splitOn_front hsplit before (comma_not_mem hblanks),
    hsplit, List.map_cons, List.map_cons, hword]

/-- Behind the last comma only the first word matters. -/
private theorem listedNames_behind {more' : Text} (hcomma : CodeUnit.ofChar ',' ∉ more)
    (hcomma' : CodeUnit.ofChar ',' ∉ more')
    (hword : ∀ t, Text.firstWord (t ++ more) = Text.firstWord (t ++ more')) (t : Text) :
    listedNames (t ++ more) = listedNames (t ++ more') := by
  obtain ⟨front, last, hsplit, hmore⟩ := Text.splitOn_behind hcomma t
  obtain ⟨front', last', hsplit', hmore'⟩ := Text.splitOn_behind hcomma' t
  obtain ⟨rfl, hlast⟩ := List.append_inj' (hsplit.symm.trans hsplit') rfl
  obtain rfl := (List.cons.inj hlast).1
  simp only [listedNames_eq, hmore, hmore', List.map_append, List.map_cons, List.map_nil, hword]

private theorem listedNames_blanks (hblanks : more.isBlank = true) (t : Text) :
    listedNames (t ++ more) = listedNames t := by
  have hword (t : Text) : Text.firstWord (t ++ more) = Text.firstWord (t ++ []) := by
    rw [Text.firstWord_blanks hblanks, List.append_nil]
  rw [listedNames_behind (comma_not_mem hblanks) List.not_mem_nil hword, List.append_nil]

/-! ### Identifiers -/

private theorem not_isBlank_half (hlow : 0xD800 ≤ u.toNat) (hhigh : u.toNat < 0xE000) :
    u.isBlank = false := by
  refine Bool.eq_false_iff.2 fun hblank => ?_
  simp only [CodeUnit.isBlank, Bool.or_eq_true, Bool.and_eq_true, decide_eq_true_eq, beq_iff_eq,
    ← UInt16.toNat_inj] at hblank
  simp at hblank
  omega

/-- The units of an identifier are no blanks, and the ASCII ones may stand in a plain identifier. -/
private theorem identifier_units (h : name.isIdentifier = true) : ∀ u ∈ name, u.isBlank = false ∧
    (u.toNat < 128 → Text.continuesPlainIdentifier u = true) := by
  rintro u hmem
  rcases Text.codePoints_units (Bool.and_eq_true_iff.1 h).2 u hmem with hpart | ⟨hlow, hhigh⟩
  · rcases Nat.lt_or_ge u.toNat 128 with hascii | hascii
    · have hunit := CodeUnit.of_ascii (P := fun u => Text.isIdentifierPart u.toNat = true →
        u.isBlank = false ∧ Text.continuesPlainIdentifier u = true) hascii (by decide +kernel) hpart
      exact ⟨hunit.1, fun _ => hunit.2⟩
    · have hseparator := Script.Spells.not_isSeparator hpart hascii
      simp only [Script.isSeparator, Bool.or_eq_false_iff] at hseparator
      exact ⟨hseparator.1.1.1, fun h => absurd h (Nat.not_lt.2 hascii)⟩
  · exact ⟨not_isBlank_half hlow hhigh, fun h => absurd h (by omega)⟩

/-- Signs of a list and marks stand in no identifier. -/
private theorem ne_of_identifier (h : name.isIdentifier = true) (hu : u ∈ name) {sign : CodeUnit}
    (hascii : sign.toNat < 128) (hsign : Text.continuesPlainIdentifier sign = false) : u ≠ sign := by
  rintro rfl
  rw [(identifier_units h u hu).2 hascii] at hsign
  cases hsign

private theorem isTemplateUnit_identifier (h : name.isIdentifier = true) :
    ∀ u ∈ name, isTemplateUnit u = true := by
  rintro u hu
  have hfeed : (u == 0x0A) = false := beq_false_of_ne (ne_of_identifier h hu (by decide) (by decide))
  have hstar : (u == CodeUnit.ofChar '*') = false :=
    beq_false_of_ne (ne_of_identifier h hu (by decide) (by decide))
  have hmark : (u == CodeUnit.ofChar '@') = false :=
    beq_false_of_ne (ne_of_identifier h hu (by decide) (by decide))
  simp only [isTemplateUnit, bne, hfeed, hstar, hmark]
  rfl

private theorem firstWord_identifier (h : name.isIdentifier = true) : Text.firstWord name = name := by
  have hstart : name.trimStart = name :=
    Text.trimStart_eq_self fun u hu => (identifier_units h u (List.mem_of_mem_head? hu)).1
  rw [Text.firstWord, hstart, List.takeWhile_eq_self_iff]
  exact fun u hu => by rw [(identifier_units h u hu).1]; rfl

private theorem listedNames_identifier (h : name.isIdentifier = true) :
    listedNames name = [name].filter Text.isPlainIdentifier := by
  have hcomma : CodeUnit.ofChar ',' ∉ name :=
    fun hmem => ne_of_identifier h hmem (by decide) (by decide) rfl
  rw [listedNames_eq, Text.splitOn_of_not_mem hcomma, List.map_cons, List.map_nil,
    firstWord_identifier h]

/-! ### Lists of identifiers -/

/-- Of a list in front of other identifiers the last part has the first of them. -/
private theorem listedNames_lead {others : List Text}
    (h : ∀ other ∈ others, other.isIdentifier = true) (lead name : Text) :
    listedNames (lead ++ Text.join ", " (name :: others)) =
      listedNames (lead ++ name) ++ others.filter Text.isPlainIdentifier := by
  induction others generalizing lead name with
  | nil => exact (List.append_nil _).symm
  | cons other others ih =>
    have hother := h other List.mem_cons_self
    have hblank : (Text.ofString " ").isBlank = true := by decide
    have hjoin : lead ++ Text.join ", " (name :: other :: others) =
        lead ++ name ++ CodeUnit.ofChar ',' :: (" " ++ Text.join ", " (other :: others)) := by
      rw [Text.join_cons (List.cons_ne_nil other others), List.append_assoc, List.append_assoc]
      rfl
    rw [hjoin, listedNames_comma, ih fun next hnext => h next (List.mem_cons_of_mem other hnext),
      listedNames_front hblank, listedNames_identifier hother, ← List.filter_append,
      List.singleton_append]

theorem listedNames_join (h : ∀ name ∈ names, name.isIdentifier = true) :
    listedNames (Text.join ", " names) = names.filter Text.isPlainIdentifier := by
  cases names with
  | nil => rfl
  | cons name others =>
    have hlead :=
      listedNames_lead (fun other hother => h other (List.mem_cons_of_mem name hother)) [] name
    rwa [List.nil_append, List.nil_append, listedNames_identifier (h name List.mem_cons_self),
      ← List.filter_append] at hlead

/-- Behind the end of a constraint the first name is not listed. -/
theorem listedNames_rest {others : List Text} (hname : name.isIdentifier = true)
    (h : ∀ other ∈ others, other.isIdentifier = true) (more : Text) :
    listedNames (more ++ "\x7d " ++ Text.join ", " (name :: others)) =
      listedNames (more ++ "\x7d") ++ others.filter Text.isPlainIdentifier := by
  have hcomma : CodeUnit.ofChar ',' ∉ CodeUnit.ofChar '\x7d' :: 0x20 :: name := by
    simp only [List.mem_cons, not_or]
    exact ⟨by decide, by decide, fun hmem => ne_of_identifier hname hmem (by decide) (by decide) rfl⟩
  have hword (t : Text) :
      Text.firstWord (t ++ CodeUnit.ofChar '\x7d' :: 0x20 :: name) = Text.firstWord (t ++ "\x7d") := by
    have hclose : (t ++ "\x7d").isBlank = false := by
      rw [Text.isBlank, List.all_append, Bool.and_eq_false_iff]
      exact .inr (by decide)
    rw [← Text.firstWord_stop hclose (u := 0x20) (by decide) name, List.append_assoc]
    rfl
  have hrest : listedNames (more ++ "\x7d " ++ name) = listedNames (more ++ "\x7d") := by
    rw [List.append_assoc]
    exact listedNames_behind hcomma (by decide) hword more
  rw [listedNames_lead h, hrest]

/-! ### Lines -/

private theorem isTemplateUnit_join (h : ∀ name ∈ names, name.isIdentifier = true) :
    ∀ u ∈ Text.join ", " names, isTemplateUnit u = true := by
  induction names with
  | nil => exact fun u hu => absurd hu List.not_mem_nil
  | cons name names ih =>
    have hname := isTemplateUnit_identifier (h name List.mem_cons_self)
    cases names with
    | nil => exact hname
    | cons other names =>
      have hcomma : (Text.ofString ", ").all isTemplateUnit = true := by decide
      rw [Text.join_cons (List.cons_ne_nil other names)]
      simp only [List.mem_append]
      rintro u ((hu | hu) | hu)
      · exact hname u hu
      · exact List.all_eq_true.1 hcomma u hu
      · exact ih (fun name hname => h name (List.mem_cons_of_mem _ hname)) u hu

/-- A list of identifiers begins with a unit of one. -/
private theorem exists_join (h : name.isIdentifier = true) (others : List Text) :
    ∃ u rest, Text.join ", " (name :: others) = u :: rest ∧ u ∈ name := by
  cases name with
  | nil => exact absurd h (by decide)
  | cons u name =>
    have hprefix : u :: name <+: Text.join ", " ((u :: name) :: others) := Text.isPrefix_join
    obtain ⟨more, hmore⟩ := hprefix
    exact ⟨u, name ++ more, hmore.symm, List.mem_cons_self⟩

/-- What stands on a line is listed. -/
private theorem listed_line (ht : ∀ u ∈ t, isTemplateUnit u = true) (hblank : t.isBlank = false)
    (hbehind : Text.isBlank (behind.takeWhile isTemplateUnit) = true) : BeginsList (t ++ behind) ∧
      listedNames ((t ++ behind).trimStart.takeWhile isTemplateUnit) ++ templateNames 0 (t ++ behind) =
        listedNames t ++ templateNames 0 behind := by
  have hstart : (t ++ behind).trimStart = t.trimStart ++ behind := Text.trimStart_append hblank behind
  have hsub : ∀ u ∈ t.trimStart, isTemplateUnit u = true :=
    fun u hu => ht u ((List.dropWhile_suffix _).mem hu)
  have hlist : listedNames t.trimStart = listedNames t := by
    conv_rhs => rw [← List.takeWhile_append_dropWhile (p := CodeUnit.isBlank) (l := t)]
    exact (listedNames_front (List.all_eq_true.2 fun u hu => List.mem_takeWhile_imp hu) _).symm
  have hmark : CodeUnit.ofChar '@' ∉ t := fun hmem => absurd (ht _ hmem) (by decide)
  constructor
  · cases hfirst : t.trimStart with
    | nil =>
      rw [Text.trimStart_eq_nil.1 hfirst] at hblank
      cases hblank
    | cons u rest =>
      refine ⟨u, by rw [hstart, hfirst]; rfl, hsub u ?_⟩
      rw [hfirst]
      exact List.mem_cons_self
  · rw [hstart, List.takeWhile_append_of_pos hsub, listedNames_blanks hbehind, hlist,
      templateNames_front hmark]

/-- A line with a constraint, among other tags. -/
private theorem templateNames_constrainedLine (hbefore : ConstraintsClose before)
    (hinner : CodeUnit.ofChar '\x7d' ∉ inner) (ht : ∀ u ∈ t, isTemplateUnit u = true)
    (hblank : t.isBlank = false) (hbehind : Text.isBlank (behind.takeWhile isTemplateUnit) = true) :
    templateNames 0 (before ++ ("@template \x7b" ++ inner ++ "\x7d" ++ t) ++ behind) =
      templateNames 0 before ++ listedNames t ++ templateNames 0 behind := by
  obtain ⟨hbegins, hlist⟩ := listed_line ht hblank hbehind
  have htag := templateNames_constrained hinner hbegins
  rw [hlist, List.append_assoc, List.append_assoc] at htag
  have hbefore := templateNames_append hbefore ("template \x7b" ++ (inner ++ ("\x7d" ++ (t ++ behind))))
  simp only [List.append_assoc]
  exact hbefore.trans (congrArg _ htag)

/-- A line without a constraint, among other tags. -/
private theorem templateNames_line (hbefore : ConstraintsClose before)
    (ht : ∀ u ∈ t, isTemplateUnit u = true)
    (hfirst : ∃ u rest, t = u :: rest ∧ u.isBlank = false ∧ u ≠ CodeUnit.ofChar '\x7b')
    (hbehind : Text.isBlank (behind.takeWhile isTemplateUnit) = true) :
    templateNames 0 (before ++ ("@template " ++ t) ++ behind) =
      templateNames 0 before ++ listedNames t ++ templateNames 0 behind := by
  obtain ⟨u, rest, rfl, hu, hopen⟩ := hfirst
  have hblank : Text.isBlank (u :: rest) = false := by
    rw [Text.isBlank, List.all_cons, hu, Bool.false_and]
  obtain ⟨hbegins, hlist⟩ := listed_line ht hblank hbehind
  have hstart : Text.trimStart (u :: rest ++ behind) = u :: rest ++ behind :=
    List.dropWhile_cons_of_neg (by rw [hu]; exact Bool.false_ne_true)
  have htag :=
    templateNames_unconstrained hbegins (by rw [hstart]; exact fun h => hopen (Option.some.inj h))
  rw [hlist] at htag
  have hbefore := templateNames_append hbefore ("template " ++ (u :: rest ++ behind))
  simp only [List.append_assoc]
  exact hbefore.trans (congrArg _ htag)

/-- A constraint is passed if it has no closing brace.  Otherwise what follows the first one is read
as part of the list, and the first name is lost with it. -/
theorem templates_settle {others : List Text} (hbefore : ConstraintsClose before)
    (hnames : ∀ other ∈ name :: others, other.isIdentifier = true)
    (hbehind : Text.isBlank (behind.takeWhile isTemplateUnit) = true) :
    let listed := Text.join ", " (name :: others)
    let templates (t : Text) := (DocTags.ofComment (some t)).templates
    templates (before ++ ("@template " ++ listed) ++ behind) =
      templates before ++ (name :: others).filter Text.isPlainIdentifier ++ templates behind ∧
    (∀ constraint, CodeUnit.ofChar '\x7d' ∉ constraint →
      templates (before ++ ("@template \x7b" ++ constraint ++ "\x7d " ++ listed) ++ behind) =
        templates (before ++ ("@template " ++ listed) ++ behind)) ∧
    ∀ constraint inner more, constraint = inner ++ CodeUnit.ofChar '\x7d' :: more →
      CodeUnit.ofChar '\x7d' ∉ inner → (∀ u ∈ more, isTemplateUnit u = true) →
      templates (before ++ ("@template \x7b" ++ constraint ++ "\x7d " ++ listed) ++ behind) =
        templates before ++
          (listedNames (more ++ "\x7d") ++ others.filter Text.isPlainIdentifier) ++ templates behind ∧
      (templates (before ++ ("@template \x7b" ++ constraint ++ "\x7d " ++ listed) ++ behind) =
        templates (before ++ ("@template " ++ listed) ++ behind) ↔
          listedNames (more ++ "\x7d") = [name].filter Text.isPlainIdentifier) := by
  intro listed templates
  have hname := hnames name List.mem_cons_self
  have hothers : ∀ other ∈ others, other.isIdentifier = true := fun other hother =>
    hnames other (List.mem_cons_of_mem name hother)
  have hlist := listedNames_join hnames
  have hunits : ∀ u ∈ listed, isTemplateUnit u = true := isTemplateUnit_join hnames
  obtain ⟨u, rest, hlisted, hu⟩ := exists_join hname others
  have hnonblank := (identifier_units hname u hu).1
  have hblank (lead : Text) : (lead ++ listed).isBlank = false := by
    rw [Text.isBlank, List.all_append, Bool.and_eq_false_iff]
    refine .inr ?_
    rw [show listed = u :: rest from hlisted, List.all_cons, hnonblank, Bool.false_and]
  have hline : templates (before ++ ("@template " ++ listed) ++ behind) =
      templates before ++ (name :: others).filter Text.isPlainIdentifier ++ templates behind := by
    rw [← hlist]
    exact templateNames_line hbefore hunits
      ⟨u, rest, hlisted, hnonblank, ne_of_identifier hname hu (by decide) (by decide)⟩ hbehind
  refine ⟨hline, fun constraint hconstraint => ?_, ?_⟩
  · -- the constraint ends where its brace stands, and a blank is in front of the list
    have hconstrained := templateNames_constrainedLine hbefore hconstraint (t := " " ++ listed)
      (fun u hu => (List.mem_cons.1 hu).elim (fun heq => by rw [heq]; rfl) (hunits u))
        (hblank " ") hbehind
    rw [listedNames_front (by decide), hlist] at hconstrained
    rw [hline]
    simp only [List.append_assoc] at hconstrained ⊢
    exact hconstrained
  · rintro constraint inner more rfl hinner hmore
    -- the list begins with what is left of the constraint
    have hclose : (Text.ofString "\x7d ").all isTemplateUnit = true := by decide
    have hconstrained := templateNames_constrainedLine hbefore hinner (t := more ++ "\x7d " ++ listed)
      (fun u hu => by
        simp only [List.mem_append] at hu
        exact hu.elim (fun hu => hu.elim (hmore u) (List.all_eq_true.1 hclose u)) (hunits u))
          (hblank _) hbehind
    have hrest : templates
        (before ++ ("@template \x7b" ++ (inner ++ CodeUnit.ofChar '\x7d' :: more) ++ "\x7d " ++
        listed) ++ behind) =
        templates before ++
          (listedNames (more ++ "\x7d") ++ others.filter Text.isPlainIdentifier) ++
          templates behind := by
      rw [← listedNames_rest hname hothers]
      simp only [List.append_assoc] at hconstrained ⊢
      exact hconstrained
    refine ⟨hrest, ?_⟩
    rw [hrest, hline, ← List.singleton_append, List.filter_append]
    simp only [List.append_cancel_right_eq, List.append_cancel_left_eq]

/-- A record in a constraint: the first name is not read. -/
theorem templates_settle_record :
    ConstraintsClose "* " ∧ (∀ name ∈ ([("T" : Text), "U"] : List Text), name.isIdentifier = true) ∧
      Text.isBlank (("\n " : Text).takeWhile isTemplateUnit) = true ∧
      (DocTags.ofComment (some "* @template T, U\n ")).templates = ["T", "U"] ∧
      (DocTags.ofComment (some "* @template \x7bobject\x7d T, U\n ")).templates = ["T", "U"] ∧
      Balanced "Record<string, \x7ba: number\x7d>" ∧
      (DocTags.ofComment
        (some "* @template \x7bRecord<string, \x7ba: number\x7d>\x7d T, U\n ")).templates = ["U"] := by
  have hbefore : ConstraintsClose "* " := fun behind h => absurd h.length_le (by
    rw [List.length_append]
    exact Nat.not_le.2 (Nat.lt_of_lt_of_le (by decide) (Nat.le_add_right _ _)))
  have hnames : ∀ name ∈ ([("T" : Text), "U"] : List Text), name.isIdentifier = true := by decide
  have hbehind : Text.isBlank (("\n " : Text).takeWhile isTemplateUnit) = true := by decide
  obtain ⟨hline, hconstrained, hbraces⟩ := templates_settle hbefore hnames hbehind
  have hmore : (Text.ofString ">").all isTemplateUnit = true := by decide
  have hrecord :=
    (hbraces _ "Record<string, \x7ba: number" ">" rfl (by decide) (List.all_eq_true.1 hmore)).1
  exact ⟨hbefore, hnames, hbehind, hline,
    (hconstrained "object" (by decide)).trans hline, by decide, hrecord⟩

end JsonCompanion
