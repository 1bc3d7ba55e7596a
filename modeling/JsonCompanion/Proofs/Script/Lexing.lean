import JsonCompanion.Proofs.Script.Quoted
import JsonCompanion.Proofs.Script.Reading
import JsonCompanion.Proofs.Text.Ascii

/-!
# Tokens of a text

Which tokens a text consists of is seen from its front.

* `Spells.token` puts a token in front, `Spells.space` a blank.
* `Spells.word`, `Spells.mark` and `Spells.quote` do so for identifiers, for punctuation and for
  quoted texts.
-/

namespace JsonCompanion

/-- An identifier in front of the text would end there. -/
def Text.endsName : Text → Bool
  | [] => true
  | u :: _ => decide (u.toNat < 128) && !Text.isIdentifierPart u.toNat && u != '\\'

namespace Script

/-- The token of a name without escapes. -/
def Token.ofName (name : Text) : Token := .word ⟨name, false, Vocabulary.ofWord name⟩

/-! ### Blanks -/

/-- A text begins with a token. -/
def beginsToken : Text → Bool
  | [] => true
  | u :: _ => !isSeparator u && u != '/' && u != '<'

theorem skip_eq {t : Text} (h : beginsToken t) (hasMarkup lineBreak : Bool) (offset : Nat)
    (comments : List Comment) :
    skip hasMarkup t offset .between lineBreak comments = some ⟨t, offset, lineBreak, comments⟩ := by
  match t with
  | [] => rfl
  | [u] =>
    simp only [beginsToken, Bool.and_eq_true, Bool.not_eq_true', bne_iff_ne] at h
    simp only [skip, h.1.1, Bool.false_eq_true, if_false]
  | u :: v :: us =>
    simp only [beginsToken, Bool.and_eq_true, Bool.not_eq_true', bne_iff_ne] at h
    have hslash : (u == CodeUnit.ofChar '/') = false := beq_false_of_ne h.1.2
    have hless : (u == CodeUnit.ofChar '<') = false := beq_false_of_ne h.2
    simp only [skip, h.1.1, hslash, hless, Bool.false_and, Bool.and_false, Bool.false_eq_true, if_false]

/-- A token behind an ended line. -/
theorem at?_line {t : Text} (h : beginsToken t) (ctx : Context) (offset previousStop : Nat)
    (comments : List Comment) (written : Text) :
    Cursor.at? ctx (0x0A :: t) offset previousStop comments written =
      (Cursor.at? ctx t (offset + 1) previousStop comments written).map fun cursor =>
        { cursor with lineBreak := true } := by
  have hskip : skip (!ctx.isModule) (0x0A :: t) offset .between false comments =
      some ⟨t, offset + 1, true, comments⟩ := by
    match t with
    | [] => rfl
    | v :: us => exact skip_eq h _ true _ _
  simp only [Cursor.at?, hskip, skip_eq h, Option.bind_eq_bind, Option.bind_some]
  cases tokenAt? ctx t <;> rfl

theorem at?_space (ctx : Context) (t : Text) (offset previousStop : Nat) (comments : List Comment)
    (written : Text) :
    Cursor.at? ctx (0x20 :: t) offset previousStop comments written =
      Cursor.at? ctx t (offset + 1) previousStop comments written := by
  have hskip : skip (!ctx.isModule) (0x20 :: t) offset .between false comments =
      skip (!ctx.isModule) t (offset + 1) .between false comments := by
    match t with
    | [] => rfl
    | v :: us => rfl
  simp only [Cursor.at?, hskip]

namespace Spells

variable {t rest : Text} {first : Token} {tokens : List Token}

/-- A token in front. -/
theorem token (width : Nat) (hrest : Spells rest tokens) (hbegins : beginsToken t)
    (htoken : ∀ ctx : Context, first.FitsIn ctx → tokenAt? ctx t = some (first, width))
    (hdrop : t.drop width = rest) :
    Spells t (first :: tokens) := by
  refine ⟨rest, hrest, fun ctx offset previousStop comments written hfits =>
    ⟨offset, offset + width, false, fun _ => rfl, ?_⟩⟩
  simp only [Cursor.at?, skip_eq hbegins, htoken ctx hfits, Option.bind_eq_bind, Option.bind_some, hdrop]

theorem space (h : Spells t tokens) : Spells (0x20 :: t) tokens := by
  match tokens with
  | [] => trivial
  | first :: tokens =>
    obtain ⟨rest, hrest, hat⟩ := h
    refine ⟨rest, hrest, fun ctx offset previousStop comments written hfits => ?_⟩
    rw [at?_space]
    exact hat ctx (offset + 1) previousStop comments written hfits

/-- A word may begin a line. -/
theorem line {name : Text} (hbegins : beginsToken t) (h : Spells t (.ofName name :: tokens)) :
    Spells (0x0A :: t) (.ofName name :: tokens) := by
  obtain ⟨rest, hrest, hat⟩ := h
  refine ⟨rest, hrest, fun ctx offset previousStop comments written hfits => ?_⟩
  obtain ⟨start, stop, lineBreak, -, heq⟩ := hat ctx (offset + 1) previousStop comments written hfits
  refine ⟨start, stop, true, nofun, ?_⟩
  rw [at?_line hbegins, heq]
  rfl

theorem finish : Spells [] [.finish] :=
  ⟨[], trivial, fun _ offset _ _ _ _ => ⟨offset, offset, false, fun _ => rfl, rfl⟩⟩

/-! ### Punctuation -/

/-- Punctuation in generated code that is read alike whatever follows. -/
def freeMarks : List Text :=
  (["(", ")", "[", "]", "\x7b", "\x7d", ",", ":", ";", "=>", "..."] : List String).map Text.ofString

private theorem tokenAt?_free (ctx : Context) (rest : Text) : ∀ mark ∈ freeMarks,
    tokenAt? ctx (mark ++ rest) = some (.mark mark, mark.length) := by
  simp only [freeMarks, List.map_cons, List.map_nil, List.forall_mem_cons]
  refine ⟨?_, ?_, ?_, ?_, ?_, ?_, ?_, ?_, ?_, ?_, ?_, ?_⟩
  case refine_12 => exact fun _ h => absurd h List.not_mem_nil
  all_goals
    match rest with
    | [] => rfl
    | v :: r => rfl

private theorem beginsToken_free (rest : Text) : ∀ mark ∈ freeMarks, beginsToken (mark ++ rest) := by
  simp only [freeMarks, List.map_cons, List.map_nil, List.forall_mem_cons]
  exact ⟨rfl, rfl, rfl, rfl, rfl, rfl, rfl, rfl, rfl, rfl, rfl, fun _ h => absurd h List.not_mem_nil⟩

theorem mark (hrest : Spells rest tokens) (mark : Text) (hmark : mark ∈ freeMarks) :
    Spells (mark ++ rest) (.mark mark :: tokens) :=
  hrest.token mark.length (beginsToken_free rest mark hmark)
    (fun ctx _ => tokenAt?_free ctx rest mark hmark) List.drop_left

/-- Punctuation of one unit is found if the unit behind it continues none that is tried earlier. -/
theorem find?_sign {sign u : CodeUnit} {us : Text} (n : Nat) (longer : Text)
    (hmarks : marks = marks.take n ++ [sign] :: marks.drop (n + 1))
    (hbefore : ((marks.take n).all fun mark =>
      mark.head?.any fun v => v != sign || mark.tail.head?.any longer.contains) = true)
    (hu : u ∉ longer) :
    marks.find? (fun mark => Text.beginsWith (sign :: u :: us) mark) = some [sign] := by
  rw [List.find?_eq_some_iff_append]
  refine ⟨?_, marks.take n, marks.drop (n + 1), hmarks, fun mark hmark => ?_⟩
  · simp only [Text.beginsWith, Text.dropBeginning?, beq_self_eq_true, if_true, Option.isSome_some]
  rw [Bool.not_eq_true', Text.beginsWith, Option.isSome_eq_false_iff, Option.isNone_iff_eq_none]
  have hcontinues := List.all_eq_true.mp hbefore mark hmark
  cases mark with
  | nil => contradiction
  | cons v vs =>
    rw [Text.dropBeginning?]
    split
    · rename_i hv
      cases vs with
      | nil => simp [eq_of_beq hv] at hcontinues
      | cons w ws =>
        have hw : w ∈ longer := by simpa [eq_of_beq hv] using hcontinues
        have hwu : (w == u) = false := beq_false_of_ne fun heq => hu (heq ▸ hw)
        rw [Text.dropBeginning?, hwu]
        rfl
    · rfl

/-- A point in front of what is neither a digit nor another point. -/
theorem point {u : CodeUnit} {us : Text} (hrest : Spells (u :: us) tokens) (hdigit : u.isDigit = false)
    (hpoint : u ≠ CodeUnit.ofChar '.') : Spells ("." ++ u :: us) (.mark "." :: tokens) := by
  refine hrest.token 1 rfl (fun ctx _ => ?_) rfl
  have hname : beginsName (CodeUnit.ofChar '.' :: u :: us) = false := rfl
  have hmarkAt : markAt? (CodeUnit.ofChar '.' :: u :: us) = some (.mark ".", 1) := by
    show (marks.find? _).map _ = _
    rw [find?_sign 56 [CodeUnit.ofChar '.'] (by decide) (by decide)
      (by simpa only [List.mem_singleton] using hpoint)]
    rfl
  show tokenAt? ctx (CodeUnit.ofChar '.' :: u :: us) = _
  simp only [tokenAt?, List.head?_cons, Option.any_some, hdigit, Bool.and_false, Bool.or_false,
    hname, hmarkAt]
  rfl

/-- The operator of equality in front of a blank. -/
theorem equal (hrest : Spells (0x20 :: rest) tokens) :
    Spells ("==" ++ 0x20 :: rest) (.mark "==" :: tokens) :=
  hrest.token 2 rfl (fun _ _ => rfl) rfl

/-- A question mark in front of a blank. -/
theorem question (hrest : Spells (0x20 :: rest) tokens) :
    Spells ("?" ++ 0x20 :: rest) (.mark "?" :: tokens) :=
  hrest.token 1 rfl (fun _ _ => rfl) rfl

/-- An asterisk in front of a blank. -/
theorem star (hrest : Spells (0x20 :: rest) tokens) :
    Spells ("*" ++ 0x20 :: rest) (.mark "*" :: tokens) :=
  hrest.token 1 rfl (fun _ _ => rfl) rfl

/-! ### Words -/

private theorem ne_backslash {u : CodeUnit} (h : Text.isIdentifierPart u.toNat) :
    u ≠ CodeUnit.ofChar '\\' := by
  rintro rfl
  exact absurd h (by decide)

private theorem nameAt?_end {rest : Text} (h : rest.endsName) :
    nameAt? 0 rest = some ⟨[], 0, false⟩ := by
  cases rest with
  | nil => rfl
  | cons u us =>
    simp only [Text.endsName, Bool.and_eq_true, decide_eq_true_eq, Bool.not_eq_true', bne_iff_ne] at h
    have hslash : (u == CodeUnit.ofChar '\\') = false := beq_false_of_ne h.2
    have hlead : u.isLeading = false := by
      simp only [CodeUnit.isLeading, Bool.and_eq_false_iff, decide_eq_false_iff_not]
      exact Or.inl (by omega)
    cases us with
    | nil => simp only [nameAt?, hslash, h.1.2, Bool.false_eq_true, if_false]
    | cons v vs =>
        simp only [nameAt?, hslash, hlead, h.1.2, Bool.false_and, Bool.false_eq_true, if_false]

private theorem nameAt?_single {u : CodeUnit} {us : Text} {name : Name}
    (hpart : Text.isIdentifierPart u.toNat)
    (hpair : ∀ v vs, us = v :: vs → (u.isLeading && v.isTrailing) = false)
    (hrest : nameAt? 0 us = some name) :
    nameAt? 0 (u :: us) = some { name with name := u :: name.name, width := name.width + 1 } := by
  have hslash : (u == CodeUnit.ofChar '\\') = false := beq_false_of_ne (ne_backslash hpart)
  match us with
  | [] =>
    rw [nameAt?]
    simp only [hslash, hpart, hrest, Bool.false_eq_true, if_false, if_true, Option.map_some,
      List.cons_append, List.nil_append]
  | v :: vs =>
    have hunpaired := hpair v vs rfl
    rw [nameAt?]
    simp only [hslash, hunpaired, hpart, hrest, Bool.false_eq_true, if_false, if_true,
      Option.map_some, List.cons_append, List.nil_append]

private theorem nameAt?_pair {u v : CodeUnit} {us : Text} {name : Name}
    (hpair : (u.isLeading && v.isTrailing) = true)
    (hpart : Text.isIdentifierPart (Text.pairValue u v)) (hrest : nameAt? 0 us = some name) :
    nameAt? 0 (u :: v :: us) =
      some { name with name := u :: v :: name.name, width := name.width + 2 } := by
  have hslash : (u == CodeUnit.ofChar '\\') = false := by
    refine beq_false_of_ne ?_
    rintro rfl
    exact absurd hpair (by simp [show CodeUnit.isLeading (CodeUnit.ofChar '\\') = false from rfl])
  rw [nameAt?]
  simp only [hslash, hpair, hpart, Bool.false_eq_true, if_false, if_true]
  simp only [nameAt?, hrest, Option.map_some, List.cons_append, List.nil_append]

theorem nameAt?_identifier {rest : Text} (hrest : rest.endsName) {name : Text}
    (hall : name.codePoints.all Text.isIdentifierPart) :
    nameAt? 0 (name ++ rest) = some ⟨name, name.length, false⟩ := by
  fun_induction Text.codePoints name with
  | case1 => exact nameAt?_end hrest
  | case2 u =>
    refine nameAt?_single (by simpa using hall) (fun v vs heq => ?_) (nameAt?_end hrest)
    rw [← List.nil_append rest, List.nil_append, heq] at hrest
    simp only [Text.endsName, Bool.and_eq_true, decide_eq_true_eq] at hrest
    simp only [CodeUnit.isTrailing, Bool.and_eq_false_iff, decide_eq_false_iff_not]
    exact Or.inr (Or.inl (by omega))
  | case3 u v r hpair ih =>
    simp only [List.all_cons, Bool.and_eq_true] at hall
    exact nameAt?_pair hpair hall.1 (ih hall.2)
  | case4 u v r hpair ih =>
    simp only [List.all_cons, Bool.and_eq_true] at hall
    refine nameAt?_single hall.1 (fun w ws heq => ?_) (ih hall.2)
    obtain ⟨rfl, -⟩ := List.cons.inj heq
    simpa using hpair

/-- The separators outside ASCII, as ranges. -/
private def separatorRanges : List (Nat × Nat) :=
  [(0x85, 0x85), (0xA0, 0xA0), (0x1680, 0x1680), (0x2000, 0x200B), (0x2028, 0x2029), (0x202F, 0x202F),
   (0x205F, 0x205F), (0x3000, 0x3000), (0xFEFF, 0xFEFF), (0xFFEF, 0xFFEF)]

private theorem separators_disjoint :
    ((Text.identifierStartRanges.toList ++ Text.identifierPartRanges.toList).all fun range =>
      separatorRanges.all fun separators =>
      decide (range.2 < separators.1) || decide (separators.2 < range.1)) = true := by
  decide +kernel

private theorem mem_separatorRanges {u : CodeUnit} (hsep : isSeparator u = true)
    (hascii : 128 ≤ u.toNat) :
    ∃ range ∈ separatorRanges, range.1 ≤ u.toNat ∧ u.toNat ≤ range.2 := by
  simp only [isSeparator, CodeUnit.isBlank, Bool.or_eq_true, Bool.and_eq_true, decide_eq_true_eq,
    beq_iff_eq, ← UInt16.toNat_inj] at hsep
  simp [separatorRanges] at hsep ⊢
  omega

/-- Beyond ASCII, what stands in an identifier is a joiner or in one of the ranges. -/
private theorem mem_identifierRanges {n : Nat} (h : Text.isIdentifierPart n) (hascii : 128 ≤ n) :
    n = 0x200C ∨ n = 0x200D ∨
    ∃ range ∈ Text.identifierStartRanges.toList ++ Text.identifierPartRanges.toList, range.1 ≤ n ∧
      n ≤ range.2 := by
  simp only [Text.isIdentifierPart, Text.isIdentifierStart, if_neg (Nat.not_lt.mpr hascii),
    Text.inRanges, ← Array.any_toList, Bool.or_eq_true, Bool.and_eq_true, List.any_eq_true,
    decide_eq_true_eq, beq_iff_eq] at h
  rcases h with (⟨range, hrange, hin⟩ | ⟨-, hdigit⟩) | ⟨-, (h | h) | ⟨range, hrange, hin⟩⟩
  · exact .inr (.inr ⟨range, List.mem_append_left _ hrange, hin⟩)
  · omega
  · exact .inl h
  · exact .inr (.inl h)
  · exact .inr (.inr ⟨range, List.mem_append_right _ hrange, hin⟩)

/-- Separators stand in no identifier. -/
theorem not_isSeparator {u : CodeUnit} (h : Text.isIdentifierPart u.toNat) (hascii : 128 ≤ u.toNat) :
    isSeparator u = false := by
  refine Bool.eq_false_iff.mpr fun hsep => ?_
  obtain ⟨separators, hmem, hlow, hhigh⟩ := mem_separatorRanges hsep hascii
  have hjoiner : ∀ separators ∈ separatorRanges, separators.2 < 0x200C ∨
      0x200D < separators.1 := by decide
  have hjoiners := hjoiner separators hmem
  rcases mem_identifierRanges h hascii with h | h | ⟨range, hrange, hin⟩
  · omega
  · omega
  · have hdisjoint :=
      List.all_eq_true.mp (List.all_eq_true.mp separators_disjoint range hrange) separators hmem
    simp only [Bool.or_eq_true, decide_eq_true_eq] at hdisjoint
    omega

/-- The unit begins neither a blank nor a number, a string, a template, a comment or a regular
expression. -/
def opensWord (u : CodeUnit) : Bool :=
  !(isSeparator u || u.isDigit || u == '.' || u == '"' || u == 0x27 || u == '\x60' || u == '/' ||
    u == '<')

private theorem opensWord_beyond {u : CodeUnit} (hsep : isSeparator u = false) (hascii : 128 ≤ u.toNat) :
    opensWord u := by
  have hne (c : CodeUnit) (hc : c.toNat < 128) : (u == c) = false :=
    beq_false_of_ne fun heq => Nat.not_lt.mpr hascii (heq ▸ hc)
  have hdigit : u.isDigit = false := by
    have hlate : ¬ u.toNat ≤ '9'.toNat := Nat.not_le.mpr (Nat.lt_of_lt_of_le (by decide) hascii)
    simp only [CodeUnit.isDigit, CodeUnit.between, hlate, decide_false, Bool.and_false]
  simp only [opensWord, hsep, hdigit, hne _ (show (CodeUnit.ofChar '.').toNat < 128 by decide),
    hne _ (show (CodeUnit.ofChar '"').toNat < 128 by decide),
    hne _ (show UInt16.toNat 0x27 < 128 by decide),
    hne _ (show (CodeUnit.ofChar '\x60').toNat < 128 by decide),
    hne _ (show (CodeUnit.ofChar '/').toNat < 128 by decide),
    hne _ (show (CodeUnit.ofChar '<').toNat < 128 by decide)]
  rfl

private theorem opensWord_start {u : CodeUnit} (h : Text.isIdentifierStart u.toNat) : opensWord u := by
  rcases Nat.lt_or_ge u.toNat 128 with hascii | hascii
  · exact CodeUnit.of_ascii (P := fun u => Text.isIdentifierStart u.toNat → opensWord u) hascii
      (by decide) h
  · have hpart : Text.isIdentifierPart u.toNat := by
      rw [Text.isIdentifierPart, h]
      rfl
    exact opensWord_beyond (not_isSeparator hpart hascii) hascii

private theorem opensWord_leading {u : CodeUnit} (h : u.isLeading = true) : opensWord u := by
  simp only [CodeUnit.isLeading, Bool.and_eq_true, decide_eq_true_eq] at h
  have hascii : 128 ≤ u.toNat := by omega
  refine opensWord_beyond (Bool.eq_false_iff.mpr fun hsep => ?_) hascii
  obtain ⟨range, hmem, hlow, hhigh⟩ := mem_separatorRanges hsep hascii
  have hoff : ∀ range ∈ separatorRanges, range.2 < 0xD800 ∨ 0xDC00 ≤ range.1 := by decide
  have := hoff range hmem
  omega

private theorem opensWord_identifier {u : CodeUnit} {us : Text} (h : Text.isIdentifier (u :: us)) :
    opensWord u := by
  simp only [Text.isIdentifier, Bool.and_eq_true] at h
  match us with
  | [] => exact opensWord_start h.1
  | v :: vs =>
    rw [Text.codePoints] at h
    split at h
    · rename_i hpair
      exact opensWord_leading (Bool.and_eq_true_iff.mp hpair).1
    · exact opensWord_start h.1

private theorem beginsName_identifier {name : Text} (h : name.isIdentifier) {rest : Text}
    (hends : rest.endsName) :
    beginsName (name ++ rest) = true := by
  simp only [Text.isIdentifier, Bool.and_eq_true] at h
  have hall := h.2
  -- a pair of units is one character; what follows the name is no second half of one
  match name with
  | [] => exact absurd h.1 (by decide)
  | [u] =>
    match rest with
    | [] =>
      have hpart : Text.isIdentifierPart u.toNat = true := by simpa [Text.codePoints] using hall
      simp only [List.cons_append, List.nil_append, beginsName, hpart, Bool.or_true]
    | v :: vs =>
      have hpart : Text.isIdentifierPart u.toNat = true := by simpa [Text.codePoints] using hall
      simp only [Text.endsName, Bool.and_eq_true, decide_eq_true_eq] at hends
      have htrail : v.isTrailing = false := by
        simp only [CodeUnit.isTrailing, Bool.and_eq_false_iff, decide_eq_false_iff_not]
        exact Or.inl (by omega)
      simp only [List.cons_append, List.nil_append, beginsName, htrail, Bool.and_false,
        Bool.false_eq_true, if_false, hpart, Bool.or_true]
  | u :: v :: vs =>
    rw [Text.codePoints] at hall
    split at hall <;> rename_i hpair
    · have hpart : Text.isIdentifierPart (Text.pairValue u v) = true := (Bool.and_eq_true_iff.mp hall).1
      simp only [List.cons_append, beginsName, hpair, if_true, hpart, Bool.or_true]
    · have hpart : Text.isIdentifierPart u.toNat = true := (Bool.and_eq_true_iff.mp hall).1
      simp only [List.cons_append, beginsName, hpair, if_false, hpart, Bool.or_true, Bool.false_eq_true]

theorem word (hrest : Spells rest tokens) (name : Text) (hname : name.isIdentifier)
    (hends : rest.endsName) :
    Spells (name ++ rest) (.ofName name :: tokens) := by
  have hbegins := beginsName_identifier hname hends
  have hscan : nameAt? 0 (name ++ rest) = some ⟨name, name.length, false⟩ :=
    nameAt?_identifier hends (Bool.and_eq_true_iff.mp hname).2
  have hfirst : name.codePoints.head?.any Text.isIdentifierStart = true :=
    (Bool.and_eq_true_iff.mp hname).1
  have hidentifier : identifierAt? (name ++ rest) = some ⟨name, name.length, false⟩ := by
    obtain ⟨first, hhead, hstart⟩ := (Option.any_eq_true _ _).mp hfirst
    simp only [identifierAt?, hscan, hhead, hstart, Option.bind_eq_bind, Option.bind_some, if_true]
  match name with
  | [] => exact absurd hfirst (by decide)
  | u :: us =>
    have hopens := opensWord_identifier hname
    simp only [opensWord, Bool.not_eq_true', Bool.or_eq_false_iff] at hopens
    obtain ⟨⟨⟨⟨⟨⟨⟨hsep, hdigit⟩, hpoint⟩, hquote⟩, hsingle⟩, hback⟩, hslash⟩, hless⟩ := hopens
    refine hrest.token ((u :: us).length) ?_ (fun ctx _ => ?_) List.drop_left
    · simp only [List.cons_append, beginsToken, hsep, bne, hslash, hless, Bool.not_false, Bool.and_self]
    · rw [List.cons_append] at hbegins hidentifier ⊢
      simp only [tokenAt?, hdigit, hpoint, hquote, hsingle, hback, hslash, hbegins, wordAt?, hidentifier,
        Bool.false_and, Bool.or_false, Bool.false_eq_true, if_false, if_true, Option.map_some]
      rfl

/-- The name of a member behind a point. -/
theorem label (hrest : Spells rest tokens) (name : Text) (hname : name.isIdentifier)
    (hends : rest.endsName) :
    Spells ("." ++ (name ++ rest)) (.mark "." :: .ofName name :: tokens) := by
  have hword := hrest.word name hname hends
  match name with
  | [] => exact absurd hname (by decide)
  | u :: us =>
    have hopens := opensWord_identifier hname
    simp only [opensWord, Bool.not_eq_true', Bool.or_eq_false_iff] at hopens
    exact hword.point hopens.1.1.1.1.1.1.2 (ne_of_beq_false hopens.1.1.1.1.1.2)

/-! ### Strings -/

theorem quote (hrest : Spells rest tokens) (value : Text) :
    Spells (value.quote ++ rest) (.string value false :: tokens) := by
  refine hrest.token (value.quote.length) rfl (fun ctx _ => ?_) List.drop_left
  have htext : value.quote ++ rest =
      CodeUnit.ofChar '"' :: (Text.escapeAll value ++ CodeUnit.ofChar '"' :: rest) := by
    show (CodeUnit.ofChar '"' :: Text.escapeAll value ++ [CodeUnit.ofChar '"']) ++ rest = _
    simp only [List.cons_append, List.append_assoc, List.nil_append]
  have hlength : value.quote.length = (Text.escapeAll value).length + 2 := by
    show (CodeUnit.ofChar '"' :: Text.escapeAll value ++ [CodeUnit.ofChar '"']).length = _
    simp only [List.cons_append, List.length_cons, List.length_append, List.length_nil]
  have htoken : tokenAt? ctx
      (CodeUnit.ofChar '"' :: (Text.escapeAll value ++ CodeUnit.ofChar '"' :: rest)) =
      literalAt? ctx '"' (Text.escapeAll value ++ CodeUnit.ofChar '"' :: rest) := rfl
  rw [htext, htoken, literalAt?, stringAt?_escapeAll, hlength]
  rfl

end Spells

end Script

end JsonCompanion
