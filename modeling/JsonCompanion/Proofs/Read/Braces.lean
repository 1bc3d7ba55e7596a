import JsonCompanion.Proofs.Text.Beginning
import JsonCompanion.Read.DocComment

/-!
# Types in braces

A type in a documentation comment ends at the brace that balances the one in front of it.

* `Balanced` says that all braces of a text stand in pairs, and `IsClosedAt` that the brace at an
  offset is closed by that at another one.
* `closedAt?_eq_some_iff`: counting open braces finds the end of the balanced text behind a brace.
* `braces_settle`: so the text between a brace and its partner is what is read, and it is the type
  of the first tag.
-/

namespace JsonCompanion

variable {t us text inner before behind : Text} {u : CodeUnit} {depth i j : Nat}

/-! ### Pairs of braces -/

/-- All braces of the text stand in pairs. -/
inductive Balanced : Text → Prop
  | empty : Balanced []
  | unit {u : CodeUnit} {t : Text} (hopen : u ≠ '\x7b') (hclose : u ≠ '\x7d')
      (h : Balanced t) : Balanced (u :: t)
  | braces {inner t : Text} (hinner : Balanced inner) (h : Balanced t) :
    Balanced (CodeUnit.ofChar '\x7b' :: (inner ++ CodeUnit.ofChar '\x7d' :: t))

/-- The braces of the text stand in pairs but for some closing ones. -/
def Closes : (depth : Nat) → Text → Prop
  | 0, t => Balanced t
  | depth + 1, t => ∃ inner rest, t = inner ++ CodeUnit.ofChar '\x7d' :: rest ∧ Balanced inner ∧
      Closes depth rest

private theorem Closes.unit (hopen : u ≠ '\x7b') (hclose : u ≠ '\x7d') (h : Closes depth t) :
    Closes depth (u :: t) := by
  cases depth with
  | zero => exact Balanced.unit hopen hclose h
  | succ depth =>
    obtain ⟨inner, rest, rfl, hinner, hrest⟩ := h
    exact ⟨u :: inner, rest, rfl, .unit hopen hclose hinner, hrest⟩

/-- An open brace takes the first of the closing ones. -/
private theorem Closes.brace (h : Closes (depth + 1) t) :
    Closes depth (CodeUnit.ofChar '\x7b' :: t) := by
  obtain ⟨inner, rest, rfl, hinner, hrest⟩ := h
  cases depth with
  | zero => exact Balanced.braces hinner hrest
  | succ depth =>
    obtain ⟨inner', rest', rfl, hinner', hrest'⟩ := hrest
    refine ⟨CodeUnit.ofChar '\x7b' :: (inner ++ CodeUnit.ofChar '\x7d' :: inner'), rest', ?_,
      .braces hinner hinner', hrest'⟩
    simp

/-! ### Counting -/

private theorem closedAt?_open (depth : Nat) (us : Text) :
    closedAt? depth (CodeUnit.ofChar '\x7b' :: us) =
    (closedAt? (depth + 1) us).map (CodeUnit.ofChar '\x7b' :: ·) := rfl

private theorem closedAt?_close (depth : Nat) (us : Text) :
    closedAt? (depth + 2) (CodeUnit.ofChar '\x7d' :: us) =
    (closedAt? (depth + 1) us).map (CodeUnit.ofChar '\x7d' :: ·) := by
  show (if depth + 2 ≤ 1 then some [] else (closedAt? (depth + 1) us).map
    (CodeUnit.ofChar '\x7d' :: ·)) = _
  exact if_neg (by omega)

private theorem closedAt?_end (us : Text) : closedAt? 1 (CodeUnit.ofChar '\x7d' :: us) = some [] := rfl

private theorem closedAt?_unit (hopen : u ≠ '\x7b') (hclose : u ≠ '\x7d') (depth : Nat) (us : Text) :
    closedAt? depth (u :: us) = (closedAt? depth us).map (u :: ·) := by
  rw [closedAt?, if_neg (by simpa using hopen), if_neg (by simpa using hclose)]

/-- Pairs of braces do not change the number of open ones. -/
private theorem closedAt?_balanced (h : Balanced t) (depth : Nat) (us : Text) :
    closedAt? (depth + 1) (t ++ us) = (closedAt? (depth + 1) us).map (t ++ ·) := by
  induction h generalizing depth us with
  | empty => simp
  | unit hopen hclose _ ih =>
    rw [List.cons_append, closedAt?_unit hopen hclose, ih, Option.map_map]
    rfl
  | braces _ _ ihinner ih =>
    rw [List.cons_append, closedAt?_open, List.append_assoc, ihinner, List.cons_append,
      closedAt?_close, ih, Option.map_map, Option.map_map, Option.map_map]
    refine congrArg (Option.map · _) (funext fun rest => ?_)
    simp

/-- What is found closes the counted braces, but for the last one, which stands behind it. -/
private theorem closes_of_closedAt? (h : closedAt? (depth + 1) us = some t) :
    Closes depth t ∧ ∃ rest, us = t ++ CodeUnit.ofChar '\x7d' :: rest := by
  induction us generalizing depth t with
  | nil => cases h
  | cons u us ih =>
    by_cases hopen : u = CodeUnit.ofChar '\x7b'
    · subst hopen
      obtain ⟨t, hfound, rfl⟩ := Option.map_eq_some_iff.1 (closedAt?_open _ us ▸ h)
      obtain ⟨hcloses, rest, rfl⟩ := ih hfound
      exact ⟨hcloses.brace, rest, rfl⟩
    · by_cases hclose : u = CodeUnit.ofChar '\x7d'
      · subst hclose
        cases depth with
        | zero =>
          obtain rfl := Option.some.inj (closedAt?_end us ▸ h)
          exact ⟨Balanced.empty, us, rfl⟩
        | succ depth =>
          obtain ⟨t, hfound, rfl⟩ := Option.map_eq_some_iff.1 (closedAt?_close _ us ▸ h)
          obtain ⟨hcloses, rest, rfl⟩ := ih hfound
          exact ⟨⟨[], t, rfl, .empty, hcloses⟩, rest, rfl⟩
      · obtain ⟨t, hfound, rfl⟩ := Option.map_eq_some_iff.1 (closedAt?_unit hopen hclose _ us ▸ h)
        obtain ⟨hcloses, rest, rfl⟩ := ih hfound
        exact ⟨hcloses.unit hopen hclose, rest, rfl⟩

/-- Behind an open brace the text up to the closing brace is balanced. -/
theorem closedAt?_eq_some_iff :
    closedAt? 1 us = some t ↔ Balanced t ∧ ∃ rest, us = t ++ CodeUnit.ofChar '\x7d' :: rest := by
  constructor
  · exact closes_of_closedAt?
  · rintro ⟨hbalanced, rest, rfl⟩
    rw [closedAt?_balanced hbalanced, closedAt?_end, Option.map_some, List.append_nil]

private theorem balanced_iff : Balanced t ↔ closedAt? 1 (t ++ [CodeUnit.ofChar '\x7d']) = some t := by
  rw [closedAt?_eq_some_iff]
  exact ⟨fun h => ⟨h, [], rfl⟩, And.left⟩

instance : Decidable (Balanced t) := decidable_of_iff _ balanced_iff.symm

/-! ### Offsets -/

/-- The brace at an offset is closed by the one at another offset. -/
def IsClosedAt (text : Text) (i j : Nat) : Prop :=
  i < j ∧ text[j]? = some (CodeUnit.ofChar '\x7d') ∧ Balanced (text.slice (i + 1) j)

instance {text : Text} : Decidable (IsClosedAt text i j) := inferInstanceAs (Decidable (_ ∧ _ ∧ _))

private theorem getElem?_eq_some_iff_drop {text : Text} :
    text[j]? = some u ↔ ∃ rest, text.drop j = u :: rest := by
  rw [← List.head?_drop]
  cases text.drop j with
  | nil => simp
  | cons v rest => simp

private theorem isClosedAt_iff {text : Text} : IsClosedAt text i j ↔
    i < j ∧ closedAt? 1 (text.drop (i + 1)) = some (text.slice (i + 1) j) := by
  unfold IsClosedAt
  rw [closedAt?_eq_some_iff, and_comm (a := text[j]? = _)]
  refine and_congr_right fun hlt => and_congr_right fun _ => ?_
  -- the text behind the open brace is the slice with what begins at the other offset behind it
  have hcut : text.drop (i + 1) = text.slice (i + 1) j ++ text.drop j := by
    have hdrop : (text.drop (i + 1)).drop (j - (i + 1)) = text.drop j := by
      rw [List.drop_drop]
      congr 1
      omega
    rw [Text.slice, ← hdrop, List.take_append_drop]
  rw [hcut, getElem?_eq_some_iff_drop]
  simp only [List.append_cancel_left_eq]

/-- No brace is closed twice. -/
theorem IsClosedAt.unique {text : Text} {j' : Nat} (h : IsClosedAt text i j)
    (h' : IsClosedAt text i j') : j = j' := by
  obtain ⟨hlt, hfound⟩ := isClosedAt_iff.1 h
  obtain ⟨hlt', hfound'⟩ := isClosedAt_iff.1 h'
  have hbound := (List.getElem?_eq_some_iff.1 h.2.1).1
  have hbound' := (List.getElem?_eq_some_iff.1 h'.2.1).1
  have hlength := congrArg List.length (Option.some.inj (hfound.symm.trans hfound'))
  simp only [Text.slice, List.length_take, List.length_drop] at hlength
  omega

/-- A brace is closed if counting finds an end. -/
private theorem exists_isClosedAt {text : Text} (h : closedAt? 1 (text.drop (i + 1)) = some t) :
    ∃ j, IsClosedAt text i j := by
  obtain ⟨-, rest, hrest⟩ := closedAt?_eq_some_iff.1 h
  have hslice : text.slice (i + 1) (i + 1 + t.length) = t := by
    rw [Text.slice, hrest, Nat.add_sub_cancel_left, List.take_left]
  refine ⟨i + 1 + t.length, isClosedAt_iff.2 ⟨by omega, ?_⟩⟩
  rw [hslice, h]

/-! ### Tags -/

/-- A tag is not found in front of the first text that it has the form of. -/
private theorem tagBrace?_front {tag : Text} (htag : CodeUnit.ofChar '@' ∉ tag)
    (hbefore : ¬ CodeUnit.ofChar '@' :: tag <:+: before) (behind : Text) :
    tagBrace? tag (before ++ CodeUnit.ofChar '@' :: behind) = tagBrace? tag
      (CodeUnit.ofChar '@' :: behind) := by
  induction before with
  | nil => rfl
  | cons u before ih =>
    have hnone : Text.dropBeginning? ("@" ++ tag) (u :: (before ++ CodeUnit.ofChar '@' :: behind)) =
        none := by
      refine Option.eq_none_iff_forall_ne_some.2 fun rest hrest => hbefore ?_
      exact (Text.isPrefix_marked htag ⟨rest, (Text.dropBeginning?_eq_some_iff.1 hrest).symm⟩).isInfix
    rw [List.cons_append, tagBrace?, hnone, Option.map_none]
    exact ih fun h => hbefore (h.trans (List.suffix_cons u before).isInfix)

private theorem tagBrace?_type (hbefore : ¬ ("@type" : Text) <:+: before) (behind : Text) :
    tagBrace? "type" (before ++ "@type \x7b" ++ behind) = some (CodeUnit.ofChar '\x7b' :: behind) := by
  have htag : tagBrace? "type" ("@type \x7b" ++ behind) = some (CodeUnit.ofChar '\x7b' :: behind) := rfl
  rw [List.append_assoc, ← htag]
  exact tagBrace?_front (by decide) hbefore _

/-- The text between a brace and its partner is read, nothing if there is no partner, and a tag in
front of the brace gives it as the type. -/
theorem braces_settle :
    (∀ (text : Text) (i : Nat), text[i]? = some (CodeUnit.ofChar '\x7b') →
      (∀ j, IsClosedAt text i j → braced? (text.drop i) = some (text.slice (i + 1) j).trim ∧
        ∀ j', IsClosedAt text i j' → j' = j) ∧
      (braced? (text.drop i) = none ↔ ∀ j, ¬ IsClosedAt text i j)) ∧
    ∀ before inner behind : Text, ¬ ("@type" : Text) <:+: before → Balanced inner →
      (DocTags.ofComment (some (before ++ "@type \x7b" ++ inner ++ "\x7d" ++ behind))).type =
        some inner.trim := by
  refine ⟨fun text i hopen => ?_, fun before inner behind hbefore hinner => ?_⟩
  · -- behind the opening brace one level is open
    have hbraced : braced? (text.drop i) = (closedAt? 1 (text.drop (i + 1))).map Text.trim := by
      obtain ⟨rest, hrest⟩ := getElem?_eq_some_iff_drop.1 hopen
      rw [← List.drop_drop, hrest]
      rfl
    refine ⟨fun j hclosed => ⟨?_, fun j' hclosed' => hclosed'.unique hclosed⟩, ?_⟩
    · rw [hbraced, (isClosedAt_iff.1 hclosed).2, Option.map_some]
    · rw [hbraced, Option.map_eq_none_iff]
      constructor
      · intro hnone j hclosed
        exact absurd ((isClosedAt_iff.1 hclosed).2.symm.trans hnone) (by simp)
      · intro hopen
        refine Option.eq_none_iff_forall_ne_some.2 fun t hfound => ?_
        obtain ⟨j, hclosed⟩ := exists_isClosedAt hfound
        exact hopen j hclosed
  · -- what is balanced ends at the brace behind it
    have hfound : closedAt? 1 (inner ++ ("\x7d" ++ behind)) = some inner :=
      closedAt?_eq_some_iff.2 ⟨hinner, behind, rfl⟩
    have htype : typeOfTag? (before ++ "@type \x7b" ++ (inner ++ ("\x7d" ++ behind))) "type" =
        some inner.trim := by
      rw [typeOfTag?, tagBrace?_type hbefore, Option.bind_eq_bind, Option.bind_some]
      show (closedAt? 1 (inner ++ ("\x7d" ++ behind))).map Text.trim = _
      rw [hfound, Option.map_some]
    simp only [DocTags.ofComment, DocTags.ofText, List.append_assoc] at htype ⊢
    rw [htype]
    rfl

/-- Braces in a type, and one behind it. -/
theorem braces_settle_record :
    let text : Text := "* @type \x7bRecord<string, \x7ba: number\x7d> \x7d or \x7d"
    text[8]? = some (CodeUnit.ofChar '\x7b') ∧ IsClosedAt text 8 37 ∧
      braced? (text.drop 8) = some "Record<string, \x7ba: number\x7d>" ∧ ¬ ("@type" : Text) <:+: "* " ∧
      Balanced "Record<string, \x7ba: number\x7d> " ∧
      (DocTags.ofComment (some text)).type = some "Record<string, \x7ba: number\x7d>" := by
  intro text
  have hopen : text[8]? = some (CodeUnit.ofChar '\x7b') := by decide
  have hclosed : IsClosedAt text 8 37 := by decide
  have hbefore : ¬ ("@type" : Text) <:+: "* " := by decide
  have hinner : Balanced "Record<string, \x7ba: number\x7d> " := by decide
  have hbraced := ((braces_settle.1 text 8 hopen).1 37 hclosed).1
  have htype := braces_settle.2 "* " _ " or \x7d" hbefore hinner
  exact ⟨hopen, hclosed, hbraced, hbefore, hinner, htype⟩

end JsonCompanion
