import JsonCompanion.Emit.Names
import JsonCompanion.Proofs.Script.Numerals
import JsonCompanion.Proofs.Script.Paths
import JsonCompanion.Proofs.Script.RegexLiteral

/-!
# Code of data

`Datum` is the part of the language that data is written in: atoms with or without a minus sign in
front, lists, and records with any keys.

* `Atom` is a token that is an expression by itself; it carries the proof that its text is that token.
* `Datum.text` is how data is written, `Datum.tokens` what tokens that are, and `Datum.expr` what it
  means.
* `Datum.writes`: the text consists of the tokens, in front of anything that ends a number.
-/

namespace JsonCompanion.Script

/-! ### Writing -/

/-- In front of what ends a number, the text consists of the tokens. -/
structure Writes (t : Text) (tokens : List Token) : Prop where
  spells : ∀ {rest : Text} {following : List Token}, Spells rest following → rest.endsNumber →
    Spells (t ++ rest) (tokens ++ following)
  length_le : tokens.length ≤ t.length

/-- Parts with commas between them. -/
def commaTokens : List (List Token) → List Token
  | [] => []
  | [part] => part
  | part :: next :: parts => part ++ .mark "," :: commaTokens (next :: parts)

private theorem separator_eq : Text.ofString ", " = Text.ofString "," ++ [0x20] := rfl

theorem Writes.join {texts : List Text} {parts : List (List Token)}
    (h : List.Forall₂ Writes texts parts) :
    Writes (Text.join ", " texts) (commaTokens parts) := by
  induction h with
  | nil => exact ⟨fun hrest _ => hrest, Nat.le_refl _⟩
  | @cons t part texts parts hfirst hmore ih =>
    cases hmore with
    | nil => exact hfirst
    | cons hnext hmore =>
      refine ⟨fun {rest following} hrest hends => ?_, ?_⟩
      · have hcomma := (ih.spells hrest hends).space.mark "," (by decide)
        have hwritten := hfirst.spells hcomma rfl
        simpa only [Text.join, commaTokens, separator_eq, List.append_assoc, List.cons_append,
          List.nil_append] using hwritten
      · have hlength : (Text.ofString ", ").length = 2 := rfl
        have hfirst := hfirst.length_le
        have hrest := ih.length_le
        simp only [Text.join, commaTokens, List.length_append, List.length_cons, hlength]
        omega

/-! ### Atoms -/

/-- A token that is an expression by itself. -/
inductive Token.Means : Token → Expr → Prop
  | name {name : Text} (h : Vocabulary.ofWord name = .plain) : Means (.ofName name) (.name name)
  | null : Means (.ofName "null") .null
  | bool (value : Bool) : Means (.ofName (if value then "true" else "false")) (.bool value)
  | literal {token : Token} {expr : Expr} (h : literal? token = some expr) : Means token expr
  | regex (literal : RegexLiteral) : Means (.regex literal) (.regex literal)

/-- A token that is an expression by itself, as it is written; a minus sign may stand in front. -/
structure Atom where
  text : Text
  token : Token
  expr : Expr
  means : token.Means expr
  writes : Writes text [token]
  first : ∃ u us, text = u :: us ∧ u ≠ CodeUnit.ofChar '-' ∧ u ≠ CodeUnit.ofChar '='

namespace Atom

/-- A word that is a constant. -/
def word (name : Text) (expr : Expr) (hname : name.isIdentifier)
    (hmeans : (Token.ofName name).Means expr)
    (hfirst : ∃ u us, name = u :: us ∧ u ≠ CodeUnit.ofChar '-' ∧ u ≠ CodeUnit.ofChar '=') : Atom where
  text := name
  token := .ofName name
  expr := expr
  means := hmeans
  writes := ⟨fun hrest hends => hrest.word name hname (Text.endsName_of_endsNumber hends), by
    obtain ⟨u, us, rfl, -⟩ := hfirst
    exact Nat.succ_pos _⟩
  first := hfirst

/-- A text between quotes. -/
def string (value : Text) : Atom where
  text := value.quote
  token := .string value false
  expr := .string value
  means := .literal rfl
  writes := ⟨fun hrest _ => hrest.quote value, Nat.succ_pos _⟩
  first := ⟨CodeUnit.ofChar '"', _, rfl, by decide, by decide⟩

private theorem first_of_digits {digits : List Char} (hdigits : ∀ c ∈ digits, c.isDigit)
    (hne : digits ≠ []) (more : Text) :
    ∃ u us, digits.map CodeUnit.ofChar ++ more = u :: us ∧ u ≠ CodeUnit.ofChar '-' ∧
      u ≠ CodeUnit.ofChar '=' := by
  obtain ⟨c, cs, rfl⟩ := List.exists_cons_of_ne_nil hne
  obtain ⟨d, hd, rfl⟩ := Number.exists_digitChar (hdigits c List.mem_cons_self)
  have hall : ∀ d < 10, CodeUnit.ofChar (Nat.digitChar d) ≠ CodeUnit.ofChar '-' ∧
      CodeUnit.ofChar (Nat.digitChar d) ≠ CodeUnit.ofChar '=' := by decide
  exact ⟨_, _, rfl, hall d hd⟩

private theorem length_pos_of_first {t : Text}
    (h : ∃ u us, t = u :: us ∧ u ≠ CodeUnit.ofChar '-' ∧ u ≠ CodeUnit.ofChar '=') :
    0 < t.length := by
  obtain ⟨u, us, rfl, -⟩ := h
  exact Nat.succ_pos _

private theorem first_numeral (n : Numeral) :
    ∃ u us, n.text = u :: us ∧ u ≠ CodeUnit.ofChar '-' ∧ u ≠ CodeUnit.ofChar '=' := by
  rw [n.text_eq, List.append_assoc]
  exact first_of_digits n.isDigit_whole n.whole_ne_nil _

/-- A numeral with the number that it is read as. -/
def number (n : Numeral) (value : Number) (hvalue : Number.ofUnsigned? n.text false = some value) :
    Atom where
  text := n.text
  token := .number value false
  expr := .number value
  means := .literal rfl
  writes := ⟨fun hrest hends => hrest.numeral n hvalue hends, length_pos_of_first (first_numeral n)⟩
  first := first_numeral n

private theorem first_integer (value : Nat) :
    ∃ u us, Text.ofNat value ++ Text.ofString "n" = u :: us ∧ u ≠ CodeUnit.ofChar '-' ∧
      u ≠ CodeUnit.ofChar '=' :=
  first_of_digits (fun _ hc => Nat.isDigit_of_mem_toDigits (by decide) (by decide) hc)
    Nat.toDigits_ne_nil _

/-- An integer with its suffix. -/
def integer (value : Nat) : Atom where
  text := Text.ofNat value ++ "n"
  token := .bigint value
  expr := .bigint value
  means := .literal rfl
  writes := ⟨fun hrest hends => hrest.integer value (Text.endsName_of_endsNumber hends),
    length_pos_of_first (first_integer value)⟩
  first := first_integer value

/-- A regular expression. -/
def regex (literal : RegexLiteral) : Atom where
  text := literal.text
  token := .regex literal
  expr := .regex literal
  means := .regex literal
  writes := ⟨fun hrest hends => hrest.regex literal (Text.endsName_of_endsNumber hends), Nat.succ_pos _⟩
  first := ⟨CodeUnit.ofChar '/', _, rfl, by decide, by decide⟩

end Atom

/-! ### Keys -/

/-- The tokens of the key of a property. -/
def keyTokens (key : Text) : List Token :=
  if key == Emit.prototypeKey then [.mark "[", .string key false, .mark "]"]
  else if key.isPlainIdentifier then [.ofName key]
  else [.string key false]

/-- The key of a property as it is read. -/
def keyOf (key : Text) : Key :=
  if key == Emit.prototypeKey then .computed (.string key)
  else if key.isPlainIdentifier then .label key
  else .literal (.string key)

private theorem brackets_eq :
    Text.ofString "[" = [CodeUnit.ofChar '['] ∧ Text.ofString "]" = [CodeUnit.ofChar ']'] :=
  ⟨rfl, rfl⟩

theorem writes_key (key : Text) : Writes (Emit.propertyKey key) (keyTokens key) := by
  unfold Emit.propertyKey keyTokens Emit.quotedPropertyKey
  split
  · refine ⟨fun {rest following} hrest _ => ?_, ?_⟩
    · have hclose := hrest.mark "]" (by decide)
      have hopen := (hclose.quote key).mark "[" (by decide)
      simpa only [List.append_assoc, List.cons_append, List.nil_append] using hopen
    · have hquote : 0 < key.quote.length := Nat.succ_pos _
      simp only [brackets_eq, List.length_append, List.length_cons, List.length_nil]
      omega
  · split
    · next hplain =>
      have hidentifier := Text.isIdentifier_of_plain hplain
      refine ⟨fun hrest hends => hrest.word key hidentifier (Text.endsName_of_endsNumber hends), ?_⟩
      match key with
      | u :: us => exact Nat.succ_pos _
    · exact (Atom.string key).writes

/-! ### Data -/

/-- Data: atoms, atoms with a minus sign, lists, and records. -/
inductive Datum
  | atom (atom : Atom)
  | negative (atom : Atom)
  | list (items : List Datum)
  | record (entries : List (Text × Datum))

namespace Datum

mutual

/-- How data is written. -/
def text : Datum → Text
  | .atom a => a.text
  | .negative a => "-" ++ a.text
  | .list items => "[" ++ Text.join ", " (texts items) ++ "]"
  | .record entries =>
    if entries.isEmpty then "\x7b\x7d" else "\x7b " ++ Text.join ", " (entryTexts entries) ++ " \x7d"

/-- How several data are written. -/
def texts : List Datum → List Text
  | [] => []
  | item :: items => item.text :: texts items

/-- How properties are written. -/
def entryTexts : List (Text × Datum) → List Text
  | [] => []
  | (key, value) :: entries => (Emit.propertyKey key ++ ": " ++ value.text) :: entryTexts entries

end

mutual

/-- The tokens of data. -/
def tokens : Datum → List Token
  | .atom a => [a.token]
  | .negative a => [.mark "-", a.token]
  | .list items => .mark "[" :: (commaTokens (itemTokens items) ++ [.mark "]"])
  | .record entries => .mark "\x7b" :: (commaTokens (entryTokens entries) ++ [.mark "\x7d"])

/-- The tokens of several data. -/
def itemTokens : List Datum → List (List Token)
  | [] => []
  | item :: items => item.tokens :: itemTokens items

/-- The tokens of properties. -/
def entryTokens : List (Text × Datum) → List (List Token)
  | [] => []
  | (key, value) :: entries => (keyTokens key ++ .mark ":" :: value.tokens) :: entryTokens entries

end

mutual

/-- What data means. -/
def expr : Datum → Expr
  | .atom a => a.expr
  | .negative a => .unary .minus a.expr
  | .list items => .array (elements items)
  | .record entries => .object (properties entries)

/-- What the elements of a list mean. -/
def elements : List Datum → List Element
  | [] => []
  | item :: items => .item item.expr :: elements items

/-- What properties mean. -/
def properties : List (Text × Datum) → List Property
  | [] => []
  | (key, value) :: entries => .entry (keyOf key) value.expr :: properties entries

end

theorem itemTokens_eq (items : List Datum) : itemTokens items = items.map tokens := by
  induction items with
  | nil => rfl
  | cons item items ih => rw [itemTokens, ih, List.map_cons]

theorem elements_eq (items : List Datum) : elements items = items.map fun item => .item item.expr := by
  induction items with
  | nil => rfl
  | cons item items ih => rw [elements, ih, List.map_cons]

/-- The tokens of a property. -/
def entryPart (entry : Text × Datum) : List Token := keyTokens entry.1 ++ .mark ":" :: entry.2.tokens

theorem entryTokens_eq (entries : List (Text × Datum)) :
    entryTokens entries = entries.map entryPart := by
  induction entries with
  | nil => rfl
  | cons entry entries ih => rw [entryTokens, ih, List.map_cons, entryPart]

theorem properties_eq (entries : List (Text × Datum)) :
    properties entries = entries.map fun entry => .entry (keyOf entry.1) entry.2.expr := by
  induction entries with
  | nil => rfl
  | cons entry entries ih => rw [properties, ih, List.map_cons]

/-! ### Spelling -/

private theorem colon_eq : Text.ofString ": " = Text.ofString ":" ++ [0x20] := rfl

private theorem braces_eq : Text.ofString "\x7b " = Text.ofString "\x7b" ++ [0x20] ∧
    Text.ofString " \x7d" = 0x20 :: Text.ofString "\x7d" ∧
    Text.ofString "\x7b\x7d" = Text.ofString "\x7b" ++ Text.ofString "\x7d" := ⟨rfl, rfl, rfl⟩

private theorem length_signs : (Text.ofString "-").length = 1 ∧ (Text.ofString "[").length = 1 ∧
    (Text.ofString "]").length = 1 ∧ (Text.ofString ": ").length = 2 ∧
      (Text.ofString "\x7b ").length = 2 ∧
    (Text.ofString " \x7d").length = 2 := ⟨rfl, rfl, rfl, rfl, rfl, rfl⟩

private theorem writes_negative (atom : Atom) : Writes ("-" ++ atom.text) [.mark "-", atom.token] := by
  have hlength := atom.writes.length_le
  refine ⟨fun {rest following} hrest hends => ?_, ?_⟩
  · obtain ⟨u, us, htext, hminus, hequal⟩ := atom.first
    have hatom := atom.writes.spells hrest hends
    rw [htext, List.cons_append] at hatom
    rw [htext, List.append_assoc]
    exact hatom.minus hminus hequal
  · simp only [List.length_append, length_signs, List.length_cons, List.length_nil] at hlength ⊢
    omega

private theorem writes_list {texts : List Text} {parts : List (List Token)}
    (h : List.Forall₂ Writes texts parts) :
    Writes ("[" ++ Text.join ", " texts ++ "]") (.mark "[" :: (commaTokens parts ++ [.mark "]"])) := by
  have hparts := Writes.join h
  refine ⟨fun {rest following} hrest _ => ?_, ?_⟩
  · have hinside := hparts.spells (hrest.mark "]" (by decide)) rfl
    have hopen := hinside.mark "[" (by decide)
    simpa only [List.append_assoc, List.cons_append, List.nil_append] using hopen
  · have hlength := hparts.length_le
    simp only [List.length_append, length_signs, List.length_cons, List.length_nil]
    omega

private theorem writes_record {texts : List Text} {parts : List (List Token)}
    (h : List.Forall₂ Writes texts parts) :
    Writes ("\x7b " ++ Text.join ", " texts ++ " \x7d")
      (.mark "\x7b" :: (commaTokens parts ++ [.mark "\x7d"])) := by
  have hparts := Writes.join h
  refine ⟨fun {rest following} hrest _ => ?_, ?_⟩
  · have hinside := hparts.spells (hrest.mark "\x7d" (by decide)).space rfl
    have hopen := hinside.space.mark "\x7b" (by decide)
    simpa only [braces_eq, List.append_assoc, List.cons_append, List.nil_append] using hopen
  · have hlength := hparts.length_le
    simp only [List.length_append, length_signs, List.length_cons, List.length_nil]
    omega

private theorem writes_entry {key t : Text} {part : List Token} (h : Writes t part) :
    Writes (Emit.propertyKey key ++ ": " ++ t) (keyTokens key ++ .mark ":" :: part) := by
  refine ⟨fun {rest following} hrest hends => ?_, ?_⟩
  · have hcolon := (h.spells hrest hends).space.mark ":" (by decide)
    have hkey := (writes_key key).spells hcolon rfl
    simpa only [colon_eq, List.append_assoc, List.cons_append, List.nil_append] using hkey
  · have hlength := h.length_le
    have hkey := (writes_key key).length_le
    simp only [List.length_append, length_signs, List.length_cons]
    omega

mutual

/-- Data consists of its tokens. -/
theorem writes : ∀ d : Datum, Writes d.text d.tokens
  | .atom a => a.writes
  | .negative a => writes_negative a
  | .list items => writes_list (writes_items items)
  | .record [] => ⟨fun hrest _ => (hrest.mark "\x7d" (by decide)).mark "\x7b" (by decide), Nat.le_refl 2⟩
  | .record (entry :: entries) => writes_record (writes_entries (entry :: entries))

theorem writes_items : ∀ items : List Datum, List.Forall₂ Writes (texts items) (itemTokens items)
  | [] => .nil
  | item :: items => .cons (writes item) (writes_items items)

theorem writes_entries :
    ∀ entries : List (Text × Datum), List.Forall₂ Writes (entryTexts entries) (entryTokens entries)
  | [] => .nil
  | (_, value) :: entries => .cons (writes_entry (writes value)) (writes_entries entries)

end

end Datum

end JsonCompanion.Script
