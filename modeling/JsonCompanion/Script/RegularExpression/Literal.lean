import JsonCompanion.Script.RegularExpression

/-!
# Regular expressions in code

* `regexBodyAt?` scans a pattern up to the slash that closes it, and `validFlags` tells which flags
  go together.
* A `RegexLiteral` is a regular expression that can stand in code.
* `RegexLiteral.inOrder` has the flags in the order in which a running program sees them, and
  `RegexLiteral.ofPattern?` is what it makes of a pattern.
-/

namespace JsonCompanion

/-- Where a scan stands in a regular expression. -/
structure RegexState where
  escaped : Bool
  inClass : Bool

/-- The body of a regular expression up to the closing slash. -/
def regexBodyAt? : RegexState → Text → Option Text
  | _, [] => none
  | state, u :: us =>
    if u.isLineEnd then none
    else if state.escaped then (regexBodyAt? { state with escaped := false } us).map (u :: ·)
    else if u == '/' && !state.inClass then some []
    else
      let inClass := if u == '[' then true else if u == ']' then false else state.inClass
      (regexBodyAt? ⟨u == '\\', inClass⟩ us).map (u :: ·)

/-- Each flag occurs once, and only one of the two Unicode modes. -/
def validFlags (flags : Text) : Bool :=
  flags.all (fun u => ("dgimsuvy" : Text).contains u) && decide flags.Nodup &&
  !(flags.contains (CodeUnit.ofChar 'u') && flags.contains (CodeUnit.ofChar 'v'))

/-- A regular expression that can stand in code: its source is a pattern that begins no comment and
reaches up to the closing slash. -/
structure RegexLiteral where
  source : Text
  flags : Text
  begins : source.head?.any fun u => u != CodeUnit.ofChar '*'
  closes : regexBodyAt? ⟨false, false⟩ (source ++ "/") = some source
  validFlags_flags : validFlags flags
  isValid_source : RegularExpression.isValid source flags

namespace RegexLiteral

/-- The literal with a source and flags, if there is one. -/
def ofParts? (source flags : Text) : Option RegexLiteral :=
  if h : (source.head?.any fun u => u != CodeUnit.ofChar '*') ∧
      regexBodyAt? ⟨false, false⟩ (source ++ "/") = some source ∧ validFlags flags ∧
      RegularExpression.isValid source flags then
    some ⟨source, flags, h.1, h.2.1, h.2.2.1, h.2.2.2⟩
  else none

/-- The text of a literal. -/
def text (literal : RegexLiteral) : Text := "/" ++ literal.source ++ "/" ++ literal.flags

/-! ### Flags -/

/-- Flags in order. -/
def sortedFlags (flags : Text) : Text := ("dgimsuvy" : Text).filter flags.contains

private theorem sortedFlags_contains (flags : Text) {c : CodeUnit} (hc : c ∈ Text.ofString "dgimsuvy") :
    (sortedFlags flags).contains c = flags.contains c := by
  rw [Bool.eq_iff_iff, List.contains_iff_mem, List.contains_iff_mem, sortedFlags, List.mem_filter,
    List.contains_iff_mem]
  exact and_iff_right hc

private theorem sortedFlags_idem (flags : Text) : sortedFlags (sortedFlags flags) = sortedFlags flags :=
  List.filter_congr fun _ hc => sortedFlags_contains flags hc

private theorem validFlags_sortedFlags {flags : Text} (h : validFlags flags) :
    validFlags (sortedFlags flags) := by
  have hsets := sortedFlags_contains flags (c := 'v') (by decide)
  have hunicode := sortedFlags_contains flags (c := 'u') (by decide)
  have hnodup : (sortedFlags flags).Nodup :=
    (show (Text.ofString "dgimsuvy").Nodup by decide).sublist List.filter_sublist
  have hall : (sortedFlags flags).all (fun u => (Text.ofString "dgimsuvy").contains u) = true :=
    List.all_eq_true.2 fun u hu => List.contains_iff_mem.2 (List.mem_filter.1 hu).1
  simp only [validFlags, Bool.and_eq_true] at h ⊢
  rw [hsets, hunicode]
  exact ⟨⟨hall, decide_eq_true hnodup⟩, h.2⟩

/-- The order of the flags does not matter to a pattern. -/
private theorem isValid_sortedFlags (source flags : Text) :
    RegularExpression.isValid source (sortedFlags flags) =
      RegularExpression.isValid source flags := by
  have hsets := sortedFlags_contains flags (c := 'v') (by decide)
  have hunicode := sortedFlags_contains flags (c := 'u') (by decide)
  unfold RegularExpression.isValid
  rw [hsets, hunicode]

/-- The literal with its flags in order. -/
def inOrder (literal : RegexLiteral) : RegexLiteral where
  source := literal.source
  flags := sortedFlags literal.flags
  begins := literal.begins
  closes := literal.closes
  validFlags_flags := validFlags_sortedFlags literal.validFlags_flags
  isValid_source := (isValid_sortedFlags literal.source literal.flags).trans literal.isValid_source

theorem inOrder_inOrder (literal : RegexLiteral) : literal.inOrder.inOrder = literal.inOrder := by
  simp only [inOrder, sortedFlags_idem]

/-! ### Patterns -/

/-- The letter behind the backslash that a line end is written with. -/
def lineEndLetter? (u : CodeUnit) : Option Text :=
  if u == 0x0A then some "n"
  else if u == 0x0D then some "r"
  else if u == 0x2028 then some "u2028"
  else if u == 0x2029 then some "u2029"
  else none

/-- A pattern as it stands between slashes: a slash outside of classes and every line end get a
backslash, unless one is in front. -/
def escapedPattern : (isEscaped inClass : Bool) → Text → Text
  | _, _, [] => []
  | isEscaped, inClass, u :: us =>
    match lineEndLetter? u with
    | some letter => (if isEscaped then [] else "\\") ++ letter ++ escapedPattern false inClass us
    | none =>
      if isEscaped then u :: escapedPattern false inClass us
      else if u == '/' && !inClass then "\\" ++ u :: escapedPattern false inClass us
      else u :: escapedPattern (u == '\\') (u == '[' || (inClass && u != ']')) us

/-- The regular expression that a running program makes of a pattern and flags.  Its source stands
between slashes, where an empty one would begin a comment. -/
def ofPattern? (pattern flags : Text) : Option RegexLiteral :=
  (ofParts? (if pattern.isEmpty then "(?:)" else escapedPattern false false pattern) flags).map
    inOrder

end RegexLiteral

end JsonCompanion
