import JsonCompanion.Proofs.Script.Code
import JsonCompanion.Proofs.Text.Ascii
import JsonCompanion.Proofs.Text.Dotted

/-!
# Code of dotted names

* `Text.isIdentifier_of_plain`: plain identifiers are identifiers, also with a small first letter.
* `Vocabulary.ofWord_plain`: a word with a capital is a mere name.
* `Code.ofDotted` is the code of a name with points, which is that name again as a text.
-/

namespace JsonCompanion

/-! ### Plain identifiers -/

/-- What holds of ASCII units holds of those of a plain identifier. -/
private theorem of_continues {P : CodeUnit → Prop} {u : CodeUnit} (h : Text.continuesPlainIdentifier u)
    (hall : ∀ n < 128, Text.continuesPlainIdentifier (UInt16.ofNat n) → P (UInt16.ofNat n)) : P u := by
  have hascii : u.toNat < 128 := by
    have hunder : (CodeUnit.ofChar '_').toNat = 95 ∧ (CodeUnit.ofChar '$').toNat = 36 := ⟨rfl, rfl⟩
    have hchars : 'z'.toNat = 122 ∧ 'Z'.toNat = 90 ∧ '9'.toNat = 57 := ⟨rfl, rfl, rfl⟩
    simp only [Text.continuesPlainIdentifier, CodeUnit.isWord, CodeUnit.isSmall, CodeUnit.isCapital,
      CodeUnit.isDigit, CodeUnit.between, Bool.or_eq_true, Bool.and_eq_true, decide_eq_true_eq,
      beq_iff_eq] at h
    rcases h with (((h | h) | h) | rfl) | rfl <;> omega
  exact CodeUnit.of_ascii (P := fun u => Text.continuesPlainIdentifier u → P u) hascii hall h

private theorem part_of_continues {u : CodeUnit} (h : Text.continuesPlainIdentifier u) :
    Text.isIdentifierPart u.toNat ∧ u.isLeading = false :=
  of_continues (P := fun u => Text.isIdentifierPart u.toNat ∧ u.isLeading = false) h (by decide)

private theorem start_of_begins {u : CodeUnit} (h : Text.beginsPlainIdentifier u) :
    Text.isIdentifierStart u.toNat :=
  of_continues (P := fun u => Text.beginsPlainIdentifier u → Text.isIdentifierStart u.toNat)
    (Text.continues_of_begins h) (by decide) h

namespace Text

/-- A plain identifier is an identifier. -/
theorem isIdentifier_of_plain {t : Text} (h : t.isPlainIdentifier) : t.isIdentifier := by
  have hall := all_continues h
  have hparts : ∀ u ∈ t, isIdentifierPart u.toNat ∧ u.isLeading = false :=
    fun u hu => part_of_continues (List.all_eq_true.mp hall u hu)
  rw [isIdentifier, codePoints_eq_map fun u hu => (hparts u hu).2, Bool.and_eq_true, List.all_map,
    List.all_eq_true]
  refine ⟨?_, fun u hu => (hparts u hu).1⟩
  cases t with
  | nil => cases h
  | cons u us => exact start_of_begins (Bool.and_eq_true_iff.mp h).1

private theorem toSmalls_plain {u : CodeUnit} (h : beginsPlainIdentifier u) :
    (toSmalls [u]).isPlainIdentifier :=
  of_continues (P := fun u => beginsPlainIdentifier u → (toSmalls [u]).isPlainIdentifier)
    (continues_of_begins h) (by decide +kernel) h

theorem isPlainIdentifier_lowerFirst {t : Text} (h : t.isPlainIdentifier) :
    t.lowerFirst.isPlainIdentifier := by
  cases t with
  | nil => cases h
  | cons u us =>
    obtain ⟨hu, hus⟩ := Bool.and_eq_true_iff.mp h
    exact isPlainIdentifier_append (toSmalls_plain hu) hus

/-- A name with points is still one with a small first letter. -/
theorem isDotted_lowerFirst {t : Text} (h : t.isDotted) : t.lowerFirst.isDotted := by
  obtain ⟨u, us, rfl, hu⟩ := begins_of_dotted h
  obtain ⟨first, rest, hsplit, -⟩ := exists_splitOn '.' us
  have hpoint : u ≠ CodeUnit.ofChar '.' := by
    rintro rfl
    exact absurd hu (by decide)
  have hsmall : (toSmalls [u]).isPlainIdentifier := toSmalls_plain hu
  rw [isDotted, splitOn_cons hpoint hsplit] at h
  obtain ⟨hfirst, hrest⟩ := Bool.and_eq_true_iff.1 h
  rw [lowerFirst, isDotted, splitOn_front hsplit _ (point_not_mem (all_continues hsmall)),
    List.all_cons, hrest, isPlainIdentifier_append hsmall (Bool.and_eq_true_iff.1 hfirst).2]
  rfl

end Text

namespace Script

/-! ### Words -/

/-- Words each of which has its own use. -/
private def singleWords : List Text :=
  (["as", "constructor", "let", "yield", "await", "async", "eval", "arguments"] : List String).map
    Text.ofString

/-- All words that are more than mere names. -/
private def specialWords : List Text := reservedWords ++ futureWords ++ contextualWords ++ singleWords

private theorem specialWords_small :
    ∀ word ∈ specialWords, word.any CodeUnit.isCapital = false := by decide

/-- A word with a capital is a mere name. -/
theorem Vocabulary.ofWord_plain {word : Text} (h : word.any CodeUnit.isCapital) :
    Vocabulary.ofWord word = .plain := by
  have hnot : ∀ other ∈ specialWords, word ≠ other := by
    rintro other hmem rfl
    exact Bool.false_ne_true ((specialWords_small word hmem).symm.trans h)
  have hlist (list : List Text) (hsub : list ⊆ specialWords) : list.contains word = false := by
    rw [List.contains_eq_mem, decide_eq_false_iff_not]
    exact fun hmem => hnot word (hsub hmem) rfl
  have hword (other : Text) (hmem : other ∈ singleWords) : (word == other) = false :=
    beq_false_of_ne (hnot other (List.mem_append_right _ hmem))
  have hreserved : reservedWords ⊆ specialWords := fun _ h => by simp [specialWords, h]
  have hfuture : futureWords ⊆ specialWords := fun _ h => by simp [specialWords, h]
  have hcontextual : contextualWords ⊆ specialWords := fun _ h => by simp [specialWords, h]
  simp only [ofWord, hlist _ hreserved, hlist _ hfuture, hlist _ hcontextual, hword "as" (by decide),
    hword "constructor" (by decide), hword "let" (by decide), hword "yield" (by decide),
    hword "await" (by decide), hword "async" (by decide), hword "eval" (by decide),
    hword "arguments" (by decide), Bool.or_self, Bool.false_eq_true, if_false]

/-! ### Dotted names -/

namespace Code

/-- The code of a name with points. -/
def ofDotted (name : Text) : Code :=
  match name.splitOn '.' with
  | [] => .reference []
  | first :: rest => rest.foldl .member (.reference first)

private theorem text_foldl (rest : List Text) : ∀ object : Code,
    (rest.foldl .member object).text = object.text ++ rest.flatMap (CodeUnit.ofChar '.' :: ·) := by
  induction rest with
  | nil => exact fun object => (List.append_nil _).symm
  | cons label rest ih =>
    intro object
    rw [List.foldl_cons, ih, text, List.flatMap_cons, List.append_assoc, List.append_assoc]
    rfl

theorem text_ofDotted (name : Text) : (ofDotted name).text = name := by
  obtain ⟨first, rest, hsplit, heq⟩ := Text.exists_splitOn '.' name
  unfold ofDotted
  rw [hsplit]
  exact (text_foldl rest _).trans heq.symm

private theorem foldl_member {rest : List Text} (hrest : rest.all Text.isPlainIdentifier) :
    ∀ {object : Code}, object.isChain → object.IsSpelt → object.isAsync = false → object.isSound →
    (rest.foldl .member object).isChain ∧ (rest.foldl .member object).IsSpelt ∧
      (rest.foldl .member object).isAsync = false ∧ (rest.foldl .member object).isSound := by
  induction rest with
  | nil => exact fun hchain hspelt hasync hsound => ⟨hchain, hspelt, hasync, hsound⟩
  | cons label rest ih =>
    intro object hchain hspelt hasync hsound
    obtain ⟨hlabel, hrest⟩ := Bool.and_eq_true_iff.mp hrest
    exact ih hrest rfl ⟨hchain, hspelt, Text.isIdentifier_of_plain hlabel⟩ rfl hsound

/-- The code of a dotted name is a chain of members. -/
theorem ofDotted_chain {name : Text} (h : name.isDotted) (hcapital : Text.beginsCapital name) :
    (ofDotted name).isChain ∧ (ofDotted name).IsSpelt ∧ (ofDotted name).isAsync = false ∧
    (ofDotted name).isSound := by
  obtain ⟨first, rest, hsplit, -⟩ := Text.exists_splitOn '.' name
  rw [Text.isDotted, hsplit] at h
  rw [Text.beginsCapital, hsplit] at hcapital
  obtain ⟨hfirst, hrest⟩ := Bool.and_eq_true_iff.mp h
  have hplain : Vocabulary.ofWord first = .plain := Vocabulary.ofWord_plain hcapital
  unfold ofDotted
  rw [hsplit]
  refine foldl_member hrest rfl ⟨Text.isIdentifier_of_plain hfirst, by rw [hplain]; rfl⟩ ?_ rfl
  rw [isAsync, hplain]
  rfl

end Code

end Script

end JsonCompanion
