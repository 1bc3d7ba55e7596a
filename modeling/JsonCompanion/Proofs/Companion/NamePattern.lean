import JsonCompanion.Proofs.Companion.Imports
import JsonCompanion.Proofs.Text.Beginning
import JsonCompanion.Script.RegularExpression

/-!
# Names as patterns

Whether code refers to a name can be asked of a regular expression: the name with its signs escaped,
and nothing beside it that could be part of a name.

* `Matcher` is what a pattern stands for, `Matcher.Spans` says which parts of a text it matches, and
  `Matcher.read?` reads a pattern as far as it is made of units, escapes, classes and negative
  assertions.
* `read?_namePattern`: an escaped name stands for its units, whatever they are;
  `isValid_namePattern`: the pattern is one by the grammar as well.
* `references_settles`: the pattern finds the name, and the code refers to it, exactly if it occurs
  in the code with no unit of a name beside it.
-/

namespace JsonCompanion

/-! ### Matching -/

/-- What a pattern stands for, read by code units. -/
inductive Matcher
  | empty
  | unit (isIn : CodeUnit → Bool)
  | seq (first second : Matcher)
  | notAhead (inner : Matcher)
  | notBehind (inner : Matcher)

namespace Matcher

/-- The part of the text from one offset up to another one is matched. -/
def Spans (text : Text) : Matcher → (start stop : Nat) → Prop
  | empty, i, j => i = j
  | unit isIn, i, j => i + 1 = j ∧ ∃ u ∈ text[i]?, isIn u = true
  | seq first second, i, j => ∃ k, first.Spans text i k ∧ second.Spans text k j
  | notAhead inner, i, j => i = j ∧ ∀ k, ¬ inner.Spans text i k
  | notBehind inner, i, j => i = j ∧ ∀ k, ¬ inner.Spans text k i

/-- Some part of the text is matched. -/
def Finds (matcher : Matcher) (text : Text) : Prop := ∃ i j, i ≤ text.length ∧ matcher.Spans text i j

/-- A text stands for its units, one behind the other. -/
def literal (t : Text) (behind : Matcher) : Matcher :=
  t.foldr (fun u matcher => seq (unit (· == u)) matcher) behind

/-! ### Reading patterns -/

/-- The units that have a meaning of their own in a pattern. -/
def signs : Text := "^$\\.*+?()[]\x7b\x7d|"

/-- The units that an escape stands for: those of words, or a sign itself. -/
def escaped? (u : CodeUnit) : Option (CodeUnit → Bool) :=
  if u == 'w' then some CodeUnit.isWord else if signs.contains u then some (· == u) else none

/-- The units of a class behind its bracket: single ones and escapes, no range and no
complement.  The first argument says whether a backslash stands in front. -/
def class? : (isEscaped : Bool) → Text → Option ((CodeUnit → Bool) × Text)
  | _, [] => none
  | true, u :: us => do
    let isFirst ← escaped? u
    let (isIn, rest) ← class? false us
    return (fun w => isFirst w || isIn w, rest)
  | false, u :: us =>
    if u == ']' then some (fun _ => false, us)
    else if u == '\\' then class? true us
    else if u == '-' || u == '^' then none
    else do
      let (isIn, rest) ← class? false us
      return (fun w => w == u || isIn w, rest)

/-- An escape behind its backslash. -/
def escape? : Text → Option (Matcher × Text)
  | [] => none
  | u :: us => (escaped? u).map fun isIn => (unit isIn, us)

/-- A group behind its bracket, which must be a negative assertion; the argument reads what stands
in it. -/
def assertion? (inner : Text → Option (Matcher × Text)) (t : Text) : Option (Matcher × Text) := do
  let (wrap, t) ← ((Text.dropBeginning? "?<!" t).map (notBehind, ·)).or
    ((Text.dropBeginning? "?!" t).map (notAhead, ·))
  let (matcher, rest) ← inner t
  return (wrap matcher, ← Text.dropBeginning? ")" rest)

/-- The first part of a pattern; the argument reads what stands in a group. -/
def part? (inner : Text → Option (Matcher × Text)) : Text → Option (Matcher × Text)
  | [] => none
  | u :: us =>
    if u == '(' then assertion? inner us
    else if u == '[' then (class? false us).map fun (isIn, rest) => (unit isIn, rest)
    else if u == '\\' then escape? us
    else if signs.contains u then none
    else some (unit (· == u), us)

/-- The parts of a pattern up to its end or the end of a group; the first argument bounds their
number. -/
def parts? : (bound : Nat) → Text → Option (Matcher × Text)
  | 0, _ => none
  | _ + 1, [] => some (empty, [])
  | bound + 1, u :: us =>
    if u == ')' then some (empty, u :: us)
    else do
      let (first, rest) ← part? (parts? bound) (u :: us)
      let (second, rest) ← parts? bound rest
      return (seq first second, rest)

/-- What a pattern stands for; a sign that is not escaped, other than those of classes and
assertions, is not read. -/
def read? (pattern : Text) : Option Matcher :=
  match parts? (pattern.length + 1) pattern with
  | some (matcher, []) => some matcher
  | _ => none

end Matcher

/-! ### The pattern of a name -/

/-- The text with a backslash in front of every sign. -/
def escapeSigns (t : Text) : Text :=
  t.flatMap fun u => if Matcher.signs.contains u then [CodeUnit.ofChar '\\', u] else [u]

/-- The pattern of a name that stands alone. -/
def namePattern (name : Text) : Text := "(?<![\\w$])" ++ escapeSigns name ++ "(?![\\w$])"

/-- What the pattern of a name stands for. -/
def nameMatcher (name : Text) : Matcher :=
  let part : Matcher := .seq (.unit Text.continuesPlainIdentifier) .empty
  .seq (.notBehind part) (.literal name (.seq (.notAhead part) .empty))

open Matcher

variable {name code t rest : Text} {u : CodeUnit} {matcher : Matcher} {bound : Nat}

private theorem escapeSigns_sign (hsign : signs.contains u = true) (t : Text) :
    escapeSigns (u :: t) = CodeUnit.ofChar '\\' :: u :: escapeSigns t := by
  rw [escapeSigns, List.flatMap_cons, if_pos hsign]
  rfl

private theorem escapeSigns_unit (hsign : signs.contains u = false) (t : Text) :
    escapeSigns (u :: t) = u :: escapeSigns t := by
  rw [escapeSigns, List.flatMap_cons, if_neg (by rw [hsign]; exact Bool.false_ne_true)]
  rfl

private theorem length_le_escapeSigns (t : Text) : t.length ≤ (escapeSigns t).length := by
  induction t with
  | nil => exact Nat.le_refl 0
  | cons u t ih =>
    cases hsign : signs.contains u with
    | true =>
      rw [escapeSigns_sign hsign, List.length_cons, List.length_cons, List.length_cons]
      omega
    | false =>
      rw [escapeSigns_unit hsign, List.length_cons, List.length_cons]
      omega

/-! ### What the pattern stands for -/

private theorem parts?_of_part? (hclose : u ≠ ')')
    (hpart : part? (parts? bound) (u :: t) = some (matcher, rest)) :
    parts? (bound + 1) (u :: t) = (parts? bound rest).map fun (behind, rest) =>
      (seq matcher behind, rest) := by
  rw [parts?, if_neg (by simpa using hclose), hpart]
  show (parts? bound rest >>= fun p => pure (seq matcher p.1, p.2)) = _
  cases parts? bound rest <;> rfl

/-- A sign behind a backslash stands for itself. -/
private theorem parts?_sign (hsign : signs.contains u = true) (bound : Nat) (t : Text) :
    parts? (bound + 1) (CodeUnit.ofChar '\\' :: u :: t) =
      (parts? bound t).map fun (behind, rest) => (seq (unit (· == u)) behind, rest) := by
  have hword : ¬ (u == CodeUnit.ofChar 'w') = true := by
    rintro hword
    rw [eq_of_beq hword] at hsign
    exact absurd hsign (by decide)
  have hescaped : escaped? u = some (· == u) := by
    rw [escaped?, if_neg hword, if_pos hsign]
  refine parts?_of_part? (by decide) ?_
  show escape? (u :: t) = _
  rw [escape?, hescaped, Option.map_some]

/-- Any other unit stands for itself without a backslash. -/
private theorem parts?_unit (hsign : signs.contains u = false) (bound : Nat) (t : Text) :
    parts? (bound + 1) (u :: t) = (parts? bound t).map fun (behind, rest) =>
      (seq (unit (· == u)) behind, rest) := by
  have hother (v : CodeUnit) (hv : signs.contains v = true) : ¬ (u == v) = true := by
    rintro hsame
    rw [eq_of_beq hsame, hv] at hsign
    cases hsign
  refine parts?_of_part? (by simpa using hother ')' (by decide)) ?_
  rw [part?, if_neg (hother '(' (by decide)), if_neg (hother '[' (by decide)),
    if_neg (hother '\\' (by decide)), if_neg (by rw [hsign]; exact Bool.false_ne_true)]

/-- An escaped text stands for its units. -/
private theorem parts?_escapeSigns (t rest : Text) (bound : Nat) :
    parts? (bound + t.length) (escapeSigns t ++ rest) =
    (parts? bound rest).map fun (behind, rest) => (literal t behind, rest) := by
  induction t with
  | nil => simp [escapeSigns, literal]
  | cons u t ih =>
    have hbound : bound + (u :: t).length = (bound + t.length) + 1 := by
      rw [List.length_cons]
      omega
    rw [hbound]
    cases hsign : signs.contains u with
    | true =>
      rw [escapeSigns_sign hsign, List.cons_append, List.cons_append, parts?_sign hsign, ih,
        Option.map_map]
      rfl
    | false =>
      rw [escapeSigns_unit hsign, List.cons_append, parts?_unit hsign, ih, Option.map_map]
      rfl

private theorem class?_names (rest : Text) :
    class? false ("\\w$]" ++ rest) = some (Text.continuesPlainIdentifier, rest) := by
  have hunits : (fun u : CodeUnit => u.isWord || (u == CodeUnit.ofChar '$' || false)) =
      Text.continuesPlainIdentifier := by
    funext u
    rw [Bool.or_false]
    rfl
  rw [← hunits]
  rfl

/-- What stands in the assertions on both sides. -/
private theorem parts?_names (bound : Nat) (t : Text) : parts? (bound + 2) ("[\\w$])" ++ t) =
    some (seq (unit Text.continuesPlainIdentifier) empty, CodeUnit.ofChar ')' :: t) := by
  have hpart : part? (parts? (bound + 1))
      (CodeUnit.ofChar '[' :: ("\\w$]" ++ CodeUnit.ofChar ')' :: t)) =
      some (unit Text.continuesPlainIdentifier, CodeUnit.ofChar ')' :: t) := by
    show (class? false ("\\w$]" ++ CodeUnit.ofChar ')' :: t)).map (fun p => (unit p.1, p.2)) = _
    rw [class?_names, Option.map_some]
  exact parts?_of_part? (by decide) hpart

private theorem parts?_assertion {wrap : Matcher → Matcher} (opening : Text)
    (hopening : ∀ t, ((Text.dropBeginning? "?<!" (opening ++ t)).map (notBehind, ·)).or
      ((Text.dropBeginning? "?!" (opening ++ t)).map (notAhead, ·)) = some (wrap, t)) (bound : Nat)
        (t : Text) :
    parts? (bound + 3) (CodeUnit.ofChar '(' :: (opening ++ ("[\\w$])" ++ t))) =
      (parts? (bound + 2) t).map fun (behind, rest) =>
        (seq (wrap (seq (unit Text.continuesPlainIdentifier) empty)) behind, rest) := by
  refine parts?_of_part? (by decide) ?_
  show assertion? (parts? (bound + 2)) (opening ++ ("[\\w$])" ++ t)) = _
  rw [assertion?, hopening]
  show (parts? (bound + 2) ("[\\w$])" ++ t) >>= fun p =>
    Text.dropBeginning? ")" p.2 >>= fun rest => some (wrap p.1, rest)) = _
  rw [parts?_names]
  rfl

/-- The pattern of a name stands for the name between the two assertions, whatever units it has. -/
theorem read?_namePattern (name : Text) : read? (namePattern name) = some (nameMatcher name) := by
  have hlength := length_le_escapeSigns name
  have hopen : (Text.ofString "(?<![\\w$])").length = 10 := rfl
  obtain ⟨bound, hbound⟩ : ∃ bound, (namePattern name).length + 1 = bound + 1 + name.length + 3 := by
    refine ⟨(namePattern name).length + 1 - (name.length + 4), ?_⟩
    rw [namePattern, List.length_append, List.length_append, hopen]
    omega
  have hbehind : parts? (bound + 3) (Text.ofString "(?![\\w$])" ++ []) =
      some (seq (notAhead (seq (unit Text.continuesPlainIdentifier) empty)) empty, []) :=
    parts?_assertion "?!" (fun _ => rfl) bound []
  have hparts :
      parts? (bound + 1 + name.length + 3) (namePattern name) = some (nameMatcher name, []) := by
    have hfront := parts?_assertion "?<!" (fun _ => rfl) (bound + 1 + name.length)
      (escapeSigns name ++ (Text.ofString "(?![\\w$])" ++ []))
    rw [show bound + 1 + name.length + 2 =
      bound + 3 + name.length by omega, parts?_escapeSigns, hbehind] at hfront
    rw [namePattern, List.append_assoc]
    exact hfront
  rw [read?, hbound, hparts]

/-! ### Validity -/

section

open JsonCompanion.RegularExpression

/-- A unit that is no sign differs from every sign. -/
private theorem ne_of_signs {v : CodeUnit} (hu : signs.contains u = false)
    (hv : signs.contains v = true) :
    (u == v) = false := by
  refine beq_false_of_ne ?_
  rintro rfl
  rw [hv] at hu
  cases hu

private theorem captures_unit {depth : Nat} (hescape : (u == CodeUnit.ofChar '\\') = false)
    (hopen : (u == CodeUnit.ofChar '[') = false) (hclose : (u == CodeUnit.ofChar ']') = false)
    (hgroup : (u == CodeUnit.ofChar '(' && depth == 0) = false) (t : Text) :
    captures false depth (u :: t) = captures false depth t := by
  rw [captures.eq_def]
  simp only [hescape, hopen, hclose, hgroup, Bool.false_eq_true, if_false]

private theorem captures_escaped (depth : Nat) (u : CodeUnit) (t : Text) :
    captures false depth (CodeUnit.ofChar '\\' :: u :: t) = captures false depth t := by
  rw [captures.eq_def]
  simp only [beq_self_eq_true, if_true]

private theorem captures_escapeSigns (t rest : Text) :
    captures false 0 (escapeSigns t ++ rest) = captures false 0 rest := by
  induction t with
  | nil => rfl
  | cons u t ih =>
    cases hsign : signs.contains u with
    | true => rw [escapeSigns_sign hsign, List.cons_append, List.cons_append, captures_escaped, ih]
    | false =>
      rw [escapeSigns_unit hsign, List.cons_append, captures_unit (ne_of_signs hsign (by decide))
        (ne_of_signs hsign (by decide)) (ne_of_signs hsign (by decide))
        (by rw [ne_of_signs hsign (by decide), Bool.false_and]), ih]

private theorem captures_names (t : Text) : captures false 0 ("[\\w$])" ++ t) = captures false 0 t := by
  have hopen (t : Text) : captures false 0 (CodeUnit.ofChar '[' :: t) = captures false 1 t := by
    rw [captures.eq_def]
    rfl
  have hclose (t : Text) : captures false 1 (CodeUnit.ofChar ']' :: t) = captures false 0 t := by
    rw [captures.eq_def]
    rfl
  show captures false 0
    (CodeUnit.ofChar '[' :: CodeUnit.ofChar '\\' :: CodeUnit.ofChar 'w' :: CodeUnit.ofChar '$' ::
    CodeUnit.ofChar ']' :: CodeUnit.ofChar ')' :: t) = _
  rw [hopen, captures_escaped, captures_unit (by decide) (by decide) (by decide) (by decide), hclose,
    captures_unit (by decide) (by decide) (by decide) (by decide)]

/-- A group that is not named and begins with a question mark does not capture. -/
private theorem captures_group {angle look : CodeUnit}
    (hplain : (angle == CodeUnit.ofChar '<' && look != CodeUnit.ofChar '=' && look !=
      CodeUnit.ofChar '!') = false)
    (t : Text) : captures false 0 (CodeUnit.ofChar '(' :: CodeUnit.ofChar '?' :: angle :: look :: t) =
      captures false 0 (angle :: look :: t) := by
  rw [captures.eq_def]
  dsimp only
  rw [if_neg (by decide), if_neg (by decide), if_neg (by decide), if_pos (by decide), if_pos (by decide),
    if_neg (by rw [hplain]; exact Bool.false_ne_true),
    captures_unit (by decide) (by decide) (by decide) (by decide)]

private theorem captures_behind (t : Text) :
    captures false 0 ("(?<![\\w$])" ++ t) = captures false 0 t := by
  show captures false 0
    (CodeUnit.ofChar '(' :: CodeUnit.ofChar '?' :: CodeUnit.ofChar '<' :: CodeUnit.ofChar '!' ::
    ("[\\w$])" ++ t)) = _
  rw [captures_group (by decide), captures_unit (by decide) (by decide) (by decide) (by decide),
    captures_unit (by decide) (by decide) (by decide) (by decide), captures_names]

private theorem captures_ahead (t : Text) :
    captures false 0 ("(?![\\w$])" ++ t) = captures false 0 t := by
  show captures false 0
    (CodeUnit.ofChar '(' :: CodeUnit.ofChar '?' :: CodeUnit.ofChar '!' :: ("[\\w$])" ++ t)) = _
  refine (captures_group (by decide) _).trans ?_
  rw [captures_unit (by decide) (by decide) (by decide) (by decide)]
  exact captures_names t

/-- How a pattern without capturing groups is read. -/
private def plainMode : Mode := ⟨false, false, 0, []⟩

private theorem piece?_sign (hsign : signs.contains u = true) (t : Text) :
    piece? plainMode (CodeUnit.ofChar '\\' :: u :: t) = some (.atom, t) := by
  have hletters :
      (signs.all fun v =>
        !(v == 'b' || v == 'B') && !isClassLetter v && !(v == 'k') && (control? v).isNone &&
        !(v == 'c') && !v.isDigit && !(v == 'x') && !(v == 'u')) = true := by decide
  have hletter := List.all_eq_true.1 hletters u (List.contains_iff_mem.1 hsign)
  simp only [Bool.and_eq_true, Bool.not_eq_true', Option.isNone_iff_eq_none] at hletter
  obtain ⟨⟨⟨⟨⟨⟨⟨hb, hclass⟩, hk⟩, hcontrol⟩, hc⟩, hdigit⟩, hx⟩, hu⟩ := hletter
  show RegularExpression.escape? plainMode (u :: t) = _
  simp only [RegularExpression.escape?, classEscape?, characterEscape?, selfEscape?, hb, hclass, hk,
    hcontrol, hc, hdigit, hx, hu, plainMode, Bool.false_and, Bool.and_false, Bool.false_eq_true,
    if_false, Option.map_some]

private theorem piece?_unit (hsign : signs.contains u = false) (t : Text) :
    piece? plainMode (u :: t) = some (.atom, t) := by
  have hcharacter : character? plainMode (u :: t) = some (u.toNat, t) := by
    cases t with
    | nil => rfl
    | cons v t => rfl
  unfold piece?
  simp only [ne_of_signs hsign (v := CodeUnit.ofChar '^') (by decide),
    ne_of_signs hsign (v := CodeUnit.ofChar '$') (by decide),
    ne_of_signs hsign (v := CodeUnit.ofChar '|') (by decide),
    ne_of_signs hsign (v := CodeUnit.ofChar ')') (by decide),
    ne_of_signs hsign (v := CodeUnit.ofChar '(') (by decide),
      ne_of_signs hsign (v := CodeUnit.ofChar '*') (by decide),
    ne_of_signs hsign (v := CodeUnit.ofChar '+') (by decide),
    ne_of_signs hsign (v := CodeUnit.ofChar '?') (by decide),
    ne_of_signs hsign (v := CodeUnit.ofChar '\x7b') (by decide),
    ne_of_signs hsign (v := CodeUnit.ofChar '\x7d') (by decide),
    ne_of_signs hsign (v := CodeUnit.ofChar ']') (by decide),
    ne_of_signs hsign (v := CodeUnit.ofChar '[') (by decide),
    ne_of_signs hsign (v := CodeUnit.ofChar '\\') (by decide), Bool.or_self, Bool.false_eq_true,
    if_false, hcharacter, Option.map_some]

private theorem fits_atom {mode : Mode} (hpiece : piece? mode (u :: t) = some (.atom, rest))
    (bound : Nat) (isRepeatable : Bool) (groups : List Bool) :
    fits mode (bound + 1) isRepeatable groups (u :: t) = fits mode bound true groups rest := by
  rw [fits.eq_def]
  dsimp only
  rw [hpiece]

/-- Escaped units are read as atoms. -/
private theorem fits_escapeSigns (t rest : Text) (bound : Nat) (isRepeatable : Bool) (groups : List Bool)
    (hrest : ∀ isRepeatable, fits plainMode bound isRepeatable groups rest = true) :
    fits plainMode (bound + t.length) isRepeatable groups (escapeSigns t ++ rest) = true := by
  induction t generalizing isRepeatable with
  | nil => exact hrest isRepeatable
  | cons u t ih =>
    rw [List.length_cons, ← Nat.add_assoc]
    cases hsign : signs.contains u with
    | true =>
      rw [escapeSigns_sign hsign, List.cons_append, List.cons_append, fits_atom (piece?_sign hsign _)]
      exact ih true
    | false =>
      rw [escapeSigns_unit hsign, List.cons_append, fits_atom (piece?_unit hsign _)]
      exact ih true

private theorem classEnd?_names (bound : Nat) (t : Text) :
    classEnd? plainMode (bound + 3) ("\\w$]" ++ t) = some t := by
  cases t <;> rfl

private theorem piece?_names (t : Text) :
    piece? plainMode (CodeUnit.ofChar '[' :: ("\\w$]" ++ t)) = some (.atom, t) := by
  have hlength : (Text.ofString "\\w$]" ++ t).length + 1 = (t.length + 2) + 3 := by
    rw [List.length_append, Nat.add_comm _ t.length]
    rfl
  show (classEnd? plainMode ((Text.ofString "\\w$]" ++ t).length + 1) ("\\w$]" ++ t)).map
    (fun rest => (Piece.atom, rest)) = _
  rw [hlength, classEnd?_names, Option.map_some]

private theorem fits_assertion (opening : Text) {group : Bool}
    (hopening : ∀ t,
      piece? plainMode (CodeUnit.ofChar '(' :: (opening ++ t)) = some (.opening group, t)) (bound : Nat)
    (isRepeatable : Bool) (groups : List Bool) (t : Text) :
    fits plainMode (bound + 3) isRepeatable groups
    (CodeUnit.ofChar '(' :: (opening ++ ("[\\w$])" ++ t))) =
      fits plainMode bound group groups t := by
  rw [fits.eq_def]
  dsimp only
  rw [hopening]
  show fits plainMode (bound + 2) false (group :: groups)
    (CodeUnit.ofChar '[' :: ("\\w$]" ++ CodeUnit.ofChar ')' :: t)) = _
  rw [fits_atom (piece?_names _), fits.eq_def]
  dsimp only
  rfl

/-- The pattern of a name is a pattern, and nothing in it captures. -/
theorem isValid_namePattern (name : Text) : isValid (namePattern name) [] = true := by
  have hcaptures : captures false 0 (namePattern name) = [] := by
    rw [namePattern, List.append_assoc, captures_behind, captures_escapeSigns,
      ← List.append_nil (Text.ofString "(?![\\w$])"), captures_ahead, captures]
  have hlength := length_le_escapeSigns name
  have hopen : (Text.ofString "(?<![\\w$])").length = 10 := rfl
  obtain ⟨bound, hbound⟩ : ∃ bound, (namePattern name).length + 1 = bound + 4 + name.length + 3 := by
    refine ⟨(namePattern name).length + 1 - (name.length + 7), ?_⟩
    rw [namePattern, List.length_append, List.length_append, hopen]
    omega
  have hbehind (isRepeatable : Bool) :
      fits plainMode (bound + 4) isRepeatable [] (Text.ofString "(?![\\w$])" ++ []) = true :=
    fits_assertion "?!" (fun _ => rfl) (bound + 1) isRepeatable [] []
  have hfits : fits plainMode (bound + 4 + name.length + 3) false [] (namePattern name) = true := by
    rw [namePattern, List.append_assoc]
    refine (fits_assertion "?<!" (fun _ => rfl) _ false [] _).trans ?_
    rw [← List.append_nil (Text.ofString "(?![\\w$])")]
    exact fits_escapeSigns name _ _ false [] hbehind
  simp only [isValid, List.contains_nil, hcaptures, hbound]
  exact hfits

end

/-! ### What the pattern finds -/

private theorem spans_names {isIn : CodeUnit → Bool} {i j : Nat} :
    (seq (unit isIn) empty).Spans code i j ↔
    i + 1 = j ∧ ∃ u ∈ code[i]?, isIn u = true := by
  simp only [Spans]
  constructor
  · rintro ⟨k, hunit, rfl⟩
    exact hunit
  · rintro ⟨rfl, hunit⟩
    exact ⟨i + 1, ⟨rfl, hunit⟩, rfl⟩

private theorem cons_isPrefix_drop {i : Nat} :
    u :: t <+: code.drop i ↔ code[i]? = some u ∧ t <+: code.drop (i + 1) := by
  rw [← List.head?_drop, ← List.tail_drop]
  cases code.drop i with
  | nil => simp
  | cons v rest => simp [List.cons_prefix_cons, eq_comm]

/-- A literal is matched where its units stand. -/
private theorem spans_literal {i j : Nat} : (literal t matcher).Spans code i j ↔
    t <+: code.drop i ∧ matcher.Spans code (i + t.length) j := by
  induction t generalizing i with
  | nil => simp [literal]
  | cons u t ih =>
    have hfirst : (literal (u :: t) matcher).Spans code i j ↔
        code[i]? = some u ∧ (literal t matcher).Spans code (i + 1) j := by
      show (∃ k, (i + 1 = k ∧ ∃ v ∈ code[i]?, (v == u) = true) ∧ (literal t matcher).Spans code k j) ↔ _
      simp
    rw [hfirst, ih, cons_isPrefix_drop, List.length_cons, and_assoc, Nat.add_right_comm i 1,
      Nat.add_assoc i]

/-- The name occurs in the code with no unit beside it that could be part of a name. -/
def StandsAlone (name code : Text) : Prop :=
  ∃ before behind, code = before ++ (name ++ behind) ∧
    (∀ u ∈ before.getLast?, Text.continuesPlainIdentifier u = false) ∧
    ∀ u ∈ behind.head?, Text.continuesPlainIdentifier u = false

private theorem spans_behind {i j : Nat} (hi : i ≤ code.length) :
    (notBehind (seq (unit Text.continuesPlainIdentifier) empty)).Spans code i j ↔
      i = j ∧ ∀ u ∈ (code.take i).getLast?, Text.continuesPlainIdentifier u = false := by
  show (i = j ∧ ∀ k, ¬ (seq (unit Text.continuesPlainIdentifier) empty).Spans code k i) ↔ _
  refine and_congr_right fun _ => ?_
  simp only [spans_names]
  cases i with
  | zero => simp
  | succ i =>
    have hlast : (code.take (i + 1)).getLast? = code[i]? := by
      rw [List.getLast?_take, if_neg (Nat.succ_ne_zero i), Nat.add_sub_cancel,
        List.getElem?_eq_getElem (by omega), Option.some_or]
    rw [hlast]
    simp

private theorem spans_ahead {i j : Nat} :
    (seq (notAhead (seq (unit Text.continuesPlainIdentifier) empty)) empty).Spans code i j ↔
      (∀ u ∈ (code.drop i).head?, Text.continuesPlainIdentifier u = false) ∧ i = j := by
  show (∃ k, (i = k ∧ ∀ l, ¬ (seq (unit Text.continuesPlainIdentifier) empty).Spans code i l) ∧
    k = j) ↔ _
  simp only [spans_names, List.head?_drop]
  simp

private theorem spans_nameMatcher {i j : Nat} (hi : i ≤ code.length) :
    (nameMatcher name).Spans code i j ↔
    (∀ u ∈ (code.take i).getLast?, Text.continuesPlainIdentifier u = false) ∧ name <+: code.drop i ∧
      (∀ u ∈ (code.drop (i + name.length)).head?, Text.continuesPlainIdentifier u = false) ∧
        i + name.length = j := by
  show (∃ k, (notBehind _).Spans code i k ∧ (literal name _).Spans code k j) ↔ _
  simp only [spans_behind hi, spans_literal, spans_ahead]
  constructor
  · rintro ⟨k, ⟨rfl, hbehind⟩, hrest⟩
    exact ⟨hbehind, hrest⟩
  · rintro ⟨hbehind, hrest⟩
    exact ⟨i, ⟨rfl, hbehind⟩, hrest⟩

theorem finds_nameMatcher_iff : (nameMatcher name).Finds code ↔ StandsAlone name code := by
  constructor
  · rintro ⟨i, j, hi, hspans⟩
    obtain ⟨hbefore, ⟨behind, hname⟩, hbehind, -⟩ := (spans_nameMatcher hi).1 hspans
    refine ⟨code.take i, behind, ?_, hbefore, ?_⟩
    · rw [hname, List.take_append_drop]
    · have hrest : code.drop (i + name.length) = behind := by
        rw [← List.drop_drop, ← hname, List.drop_left]
      rwa [hrest] at hbehind
  · rintro ⟨before, behind, rfl, hbefore, hbehind⟩
    have hlength : before.length ≤ (before ++ (name ++ behind)).length := by simp
    refine ⟨before.length, _, hlength, (spans_nameMatcher hlength).2 ⟨?_, ?_, ?_, rfl⟩⟩
    · rwa [List.take_left]
    · rw [List.drop_left]
      exact List.prefix_append name behind
    · rwa [← List.drop_drop, List.drop_left, List.drop_left]

/-! ### References -/

private theorem beginsWithName_iff : beginsWithName name code = true ↔
    ∃ behind, code = name ++ behind ∧ behind.head?.any Text.continuesPlainIdentifier = false := by
  unfold beginsWithName
  constructor
  · intro h
    split at h
    · next behind hbehind => exact ⟨behind, Text.dropBeginning?_eq_some_iff.1 hbehind, by simpa using h⟩
    · cases h
  · rintro ⟨behind, rfl, hbehind⟩
    rw [Text.dropBeginning?_append]
    simpa using hbehind

/-- What code refers to stands in it alone; the first argument of the search stands for a unit in
front. -/
private theorem stands_of_referencesFrom {isContinued : Bool}
    (h : referencesFrom isContinued name code = true) :
    ∃ before behind, code = before ++ (name ++ behind) ∧
      (before.getLast?.map Text.continuesPlainIdentifier).getD isContinued = false ∧
      behind.head?.any Text.continuesPlainIdentifier = false := by
  have hhere {isContinued : Bool} {code : Text} (h : (!isContinued && beginsWithName name code) = true) :
      ∃ before behind, code = before ++ (name ++ behind) ∧
        (before.getLast?.map Text.continuesPlainIdentifier).getD isContinued = false ∧
        behind.head?.any Text.continuesPlainIdentifier = false := by
    obtain ⟨hcontinued, hbegins⟩ := Bool.and_eq_true_iff.1 h
    obtain ⟨behind, hcode, hbehind⟩ := beginsWithName_iff.1 hbegins
    exact ⟨[], behind, hcode, by simpa using hcontinued, hbehind⟩
  induction code generalizing isContinued with
  | nil => exact hhere h
  | cons u code ih =>
    rw [referencesFrom, Bool.or_eq_true] at h
    rcases h with h | h
    · exact hhere h
    · obtain ⟨before, behind, rfl, hbefore, hbehind⟩ := ih h
      refine ⟨u :: before, behind, rfl, ?_, hbehind⟩
      rw [List.getLast?_cons]
      cases hlast : before.getLast? <;> simpa [hlast] using hbefore

theorem references_iff : references code name = true ↔ StandsAlone name code := by
  have hunits {unit? : Option CodeUnit} : (∀ u ∈ unit?, Text.continuesPlainIdentifier u = false) ↔
      unit?.any Text.continuesPlainIdentifier = false := by
    cases unit? <;> simp
  have hfront {unit? : Option CodeUnit} : unit?.any Text.continuesPlainIdentifier =
      (unit?.map Text.continuesPlainIdentifier).getD false := by
    cases unit? <;> rfl
  simp only [StandsAlone, hunits]
  constructor
  · intro h
    obtain ⟨before, behind, hcode, hbefore, hbehind⟩ := stands_of_referencesFrom h
    exact ⟨before, behind, hcode, hfront.trans hbefore, hbehind⟩
  · rintro ⟨before, behind, rfl, hbefore, hbehind⟩
    exact referencesFrom_append (hfront.symm.trans hbefore) hbehind

/-- Whatever signs a name has, its pattern is one, the pattern finds the name exactly if it stands
alone in the code, and so does the search for references. -/
theorem references_settles (code name : Text) :
    RegularExpression.isValid (namePattern name) [] = true ∧
      (∃ matcher, Matcher.read? (namePattern name) = some matcher ∧
        (matcher.Finds code ↔ StandsAlone name code)) ∧
      (references code name = true ↔ StandsAlone name code) :=
  ⟨isValid_namePattern name, ⟨nameMatcher name, read?_namePattern name, finds_nameMatcher_iff⟩,
    references_iff⟩

/-- A first occurrence that is part of a longer name does not hide a later one, and signs stand for
themselves. -/
example : references "$a.b + a.b" "a.b" = true ∧ references "$a.b + a_b" "a.b" = false := by decide

end JsonCompanion
