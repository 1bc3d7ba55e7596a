import JsonCompanion.Proofs.Script.Lexing

/-!
# Regular expressions as tokens

* `RegexLiteral.ofPattern?_source`: a running program has the literal with its flags in order.
* `RegexLiteral.regexAt?_text`: a literal is scanned again in front of anything that ends a name.
* `Spells.regex` puts the text of a literal in front.
-/

namespace JsonCompanion

open Script

variable {flags rest : Text} {tokens : List Token}

/-! ### Bodies -/

private theorem lineEndLetter?_none {u : CodeUnit} (h : u.isLineEnd = false) :
    RegexLiteral.lineEndLetter? u = none := by
  simp only [CodeUnit.isLineEnd, Bool.or_eq_false_iff] at h
  simp only [RegexLiteral.lineEndLetter?, h, Bool.false_eq_true, if_false]

private theorem inClass_eq (u : CodeUnit) (inClass : Bool) :
    (u == CodeUnit.ofChar '[' || (inClass && u != CodeUnit.ofChar ']')) =
      (if u == CodeUnit.ofChar '[' then true else if u ==
        CodeUnit.ofChar ']' then false else inClass) := by
  cases hopen : u == CodeUnit.ofChar '['
  · cases hclose : u == CodeUnit.ofChar ']'
    · simp [bne, hclose]
    · simp [bne, hclose]
  · rfl

/-- What stands between slashes needs no escapes. -/
private theorem escapedPattern_body {state : RegexState} {t body : Text}
    (h : regexBodyAt? state t = some body) :
    RegexLiteral.escapedPattern state.escaped state.inClass body = body := by
  fun_induction regexBodyAt? state t generalizing body with
  | case1 => cases h
  | case2 => cases h
  | case3 state u us hline hescaped ih =>
    obtain ⟨body, hbody, rfl⟩ := Option.map_eq_some_iff.1 h
    rw [RegexLiteral.escapedPattern, lineEndLetter?_none (Bool.eq_false_iff.2 hline)]
    simp only [hescaped, if_true, ih hbody]
  | case4 =>
    obtain rfl := Option.some.inj h
    rfl
  | case5 =>
    rename_i state u us hline hescaped hslash inClass ih
    obtain ⟨body, hbody, rfl⟩ := Option.map_eq_some_iff.1 h
    have hrest := ih hbody
    rw [RegexLiteral.escapedPattern, lineEndLetter?_none (Bool.eq_false_iff.2 hline)]
    simp only [hescaped, hslash, inClass_eq, Bool.false_eq_true, if_false]
    rw [hrest]

/-- What stands between slashes is scanned up to the same slash in front of anything else. -/
private theorem regexBodyAt?_append {state : RegexState} {t body : Text}
    (h : regexBodyAt? state t = some body) :
    regexBodyAt? state (body ++ CodeUnit.ofChar '/' :: rest) = some body := by
  fun_induction regexBodyAt? state t generalizing body with
  | case1 => cases h
  | case2 => cases h
  | case3 state u us hline hescaped ih =>
    obtain ⟨body, hbody, rfl⟩ := Option.map_eq_some_iff.1 h
    rw [List.cons_append, regexBodyAt?]
    simp only [hline, hescaped, ih hbody, Bool.false_eq_true, if_false, if_true, Option.map_some]
  | case4 state u us hline hescaped hslash =>
    obtain rfl := Option.some.inj h
    have hu : CodeUnit.ofChar '/' = u := (eq_of_beq (Bool.and_eq_true_iff.1 hslash).1).symm
    rw [List.nil_append, hu, regexBodyAt?]
    simp only [hline, hescaped, hslash, Bool.false_eq_true, if_false, if_true]
  | case5 =>
    rename_i state u us hline hescaped hslash inClass ih
    obtain ⟨body, hbody, rfl⟩ := Option.map_eq_some_iff.1 h
    have hrest := ih hbody
    rw [List.cons_append, regexBodyAt?]
    simp only [hline, hescaped, hslash, Bool.false_eq_true, if_false]
    rw [hrest]
    rfl

/-! ### Flags -/

private theorem nameAt?_flags (hvalid : validFlags flags) (hends : rest.endsName) :
    nameAt? 0 (flags ++ rest) = some ⟨flags, flags.length, false⟩ := by
  have hall : (Text.ofString "dgimsuvy").all
      (fun u => !CodeUnit.isLeading u && Text.isIdentifierPart u.toNat) = true := by
    decide
  simp only [validFlags, Bool.and_eq_true, List.all_eq_true, List.contains_iff_mem] at hvalid
  have hflags : ∀ u ∈ flags, u.isLeading = false ∧ Text.isIdentifierPart u.toNat = true := by
    intro u hu
    have hflag := List.all_eq_true.mp hall u (hvalid.1.1 u hu)
    rwa [Bool.and_eq_true, Bool.not_eq_true'] at hflag
  refine Spells.nameAt?_identifier hends ?_
  rw [Text.codePoints_eq_map fun u hu => (hflags u hu).1, List.all_map, List.all_eq_true]
  exact fun u hu => (hflags u hu).2

/-! ### Literals -/

namespace RegexLiteral

variable (literal : RegexLiteral)

/-- The slash of a literal begins neither a blank nor a comment. -/
private theorem exists_source :
    ∃ v us, literal.source = v :: us ∧ v ≠ CodeUnit.ofChar '/' ∧ v ≠ CodeUnit.ofChar '*' := by
  obtain ⟨source, flags, hbegins, hcloses, -, -⟩ := literal
  match source with
  | [] => cases hbegins
  | v :: us =>
    refine ⟨v, us, rfl, ?_, by simpa using hbegins⟩
    rintro rfl
    cases hcloses

private theorem text_append : literal.text ++ rest =
    CodeUnit.ofChar '/' :: (literal.source ++ CodeUnit.ofChar '/' :: (literal.flags ++ rest)) := by
  show (CodeUnit.ofChar '/' :: literal.source ++ [CodeUnit.ofChar '/'] ++ literal.flags) ++ rest = _
  simp only [List.cons_append, List.append_assoc, List.nil_append]

private theorem length_text :
    literal.text.length = literal.source.length + 1 + literal.flags.length + 1 := by
  show (CodeUnit.ofChar '/' :: literal.source ++ [CodeUnit.ofChar '/'] ++ literal.flags).length = _
  simp only [List.length_append, List.length_cons, List.length_nil]
  omega

private theorem ofParts?_eq : RegexLiteral.ofParts? literal.source literal.flags = some literal :=
  dif_pos ⟨literal.begins, literal.closes, literal.validFlags_flags, literal.isValid_source⟩

/-- The pattern of a literal is made into that literal again, with its flags in order. -/
theorem ofPattern?_source : ofPattern? literal.source literal.flags = some literal.inOrder := by
  obtain ⟨v, us, hsource, -, -⟩ := literal.exists_source
  have hbody : escapedPattern false false literal.source = literal.source :=
    escapedPattern_body literal.closes
  have hnonempty : literal.source.isEmpty = false := by rw [hsource]; rfl
  rw [ofPattern?, hnonempty, if_neg Bool.false_ne_true, hbody, ofParts?_eq]
  rfl

/-- A literal is scanned again behind its slash. -/
theorem regexAt?_text (hends : rest.endsName) :
    regexAt? (literal.source ++ CodeUnit.ofChar '/' :: (literal.flags ++ rest)) =
      some (.regex literal, literal.source.length + 1 + literal.flags.length) := by
  have hscan : regexBodyAt? ⟨false, false⟩
      (literal.source ++ CodeUnit.ofChar '/' :: (literal.flags ++ rest)) = some literal.source :=
    regexBodyAt?_append literal.closes
  have hbehind : (literal.source ++ CodeUnit.ofChar '/' :: (literal.flags ++ rest)).drop
      (literal.source.length + 1) = literal.flags ++ rest := by simp
  simp only [regexAt?, hscan, hbehind, nameAt?_flags literal.validFlags_flags hends, ofParts?_eq,
    Option.bind_eq_bind, Option.bind_some, Bool.false_eq_true, if_false]

private theorem tokenAt?_text (hends : rest.endsName) {ctx : Context}
    (hoperand : ctx.expectsOperand = true) :
    tokenAt? ctx (literal.text ++ rest) = some (.regex literal, literal.text.length) := by
  have hslash : CodeUnit.isDigit (CodeUnit.ofChar '/') = false ∧
      (CodeUnit.ofChar '/' == CodeUnit.ofChar '.') = false ∧
      (CodeUnit.ofChar '/' == CodeUnit.ofChar '"') = false ∧ (CodeUnit.ofChar '/' == 0x27) = false ∧
      (CodeUnit.ofChar '/' == CodeUnit.ofChar '\x60') = false := by decide
  rw [text_append, length_text]
  simp only [tokenAt?, hslash, hoperand, beq_self_eq_true, literal.regexAt?_text hends,
    Bool.false_and, Bool.or_self, Bool.and_self, Bool.false_eq_true, if_false, if_true, Option.map_some]

private theorem skip_text (hasMarkup : Bool) (offset : Nat) (comments : List Comment) :
    skip hasMarkup (literal.text ++ rest) offset .between false comments =
      some ⟨literal.text ++ rest, offset, false, comments⟩ := by
  obtain ⟨v, us, hsource, hline, hblock⟩ := literal.exists_source
  have hv : (v == CodeUnit.ofChar '/') = false := beq_false_of_ne hline
  have hv' : (v == CodeUnit.ofChar '*') = false := beq_false_of_ne hblock
  have hsep : isSeparator (CodeUnit.ofChar '/') = false := by decide
  have hless : (CodeUnit.ofChar '/' == CodeUnit.ofChar '<') = false := by decide
  rw [text_append, hsource, List.cons_append]
  simp only [skip, hsep, hv, hv', hless, Bool.and_false, Bool.false_and, Bool.false_eq_true, if_false]

end RegexLiteral

/-- A regular expression is scanned again. -/
theorem Script.Spells.regex (literal : RegexLiteral) (hrest : Spells rest tokens)
    (hends : rest.endsName) :
    Spells (literal.text ++ rest) (.regex literal :: tokens) := by
  refine ⟨rest, hrest, fun ctx offset previousStop comments written hfits => ?_⟩
  have hoperand : ctx.expectsOperand = true := hfits
  refine ⟨offset, offset + literal.text.length, false, fun _ => rfl, ?_⟩
  unfold Cursor.at?
  simp only [literal.skip_text, Option.bind_eq_bind, Option.bind_some,
    literal.tokenAt?_text hends hoperand, List.drop_left]

end JsonCompanion
