import JsonCompanion.Proofs.Text.Ascii

/-!
# Names with points

* `Text.splitOn_append` and its kin cut a text at a separator, `Text.exists_splitOn` puts it
  together again.
* `Text.isDotted` tells plain identifiers with points between them; it is kept by whatever continues
  the last one.
-/

namespace JsonCompanion.Text

/-! ### Separators -/

section

variable {separator : CodeUnit}

theorem splitOn_cons_separator (t : Text) :
    splitOn separator (separator :: t) = [] :: splitOn separator t := by
  rw [splitOn]
  split
  · next h =>
    cases t <;> rw [splitOn] at h
    · cases h
    · split at h
      · cases h
      · split at h <;> cases h
  · next part parts h => rw [h, if_pos (beq_self_eq_true _)]

theorem splitOn_cons {u : CodeUnit} (h : u ≠ separator) {t first : Text} {rest : List Text}
    (ht : splitOn separator t = first :: rest) : splitOn separator (u :: t) = (u :: first) :: rest := by
  rw [splitOn, ht]
  exact if_neg (by simpa using h)

/-- The parts of a text make it up again. -/
theorem exists_splitOn (separator : CodeUnit) :
    ∀ t : Text, ∃ first rest, splitOn separator t = first :: rest ∧
    t = first ++ rest.flatMap (separator :: ·)
  | [] => ⟨[], [], rfl, rfl⟩
  | u :: us => by
    obtain ⟨first, rest, hsplit, heq⟩ := exists_splitOn separator us
    by_cases hu : u = separator
    · subst hu
      exact ⟨[], first ::
        rest, by rw [splitOn_cons_separator, hsplit], by rw [List.flatMap_cons, heq]; rfl⟩
    · exact ⟨u :: first, rest, splitOn_cons hu hsplit, by rw [List.cons_append, ← heq]⟩

theorem splitOn_append (t : Text) : ∀ front : Text,
    splitOn separator (front ++ separator :: t) = splitOn separator front ++ splitOn separator t
  | [] => splitOn_cons_separator t
  | u :: us => by
    have ih := splitOn_append t us
    obtain ⟨first, rest, hsplit, -⟩ := exists_splitOn separator us
    rw [hsplit, List.cons_append] at ih
    by_cases hu : u = separator
    · subst hu
      rw [List.cons_append, splitOn_cons_separator, splitOn_cons_separator, ih, hsplit]
      rfl
    · rw [List.cons_append, splitOn_cons hu ih, splitOn_cons hu hsplit]
      rfl

theorem splitOn_front {t first : Text} {rest : List Text} (ht : splitOn separator t = first :: rest) :
    ∀ front : Text, separator ∉ front → splitOn separator (front ++ t) = (front ++ first) :: rest
  | [], _ => ht
  | u :: us, h => by
    have hu : u ≠ separator := fun heq => h (heq ▸ List.mem_cons_self ..)
    exact splitOn_cons hu (splitOn_front ht us fun hmem => h (List.mem_cons_of_mem _ hmem))

theorem splitOn_of_not_mem {t : Text} (h : separator ∉ t) : splitOn separator t = [t] := by
  have hsplit : splitOn separator (t ++ []) = [t ++ []] := splitOn_front rfl t h
  rwa [List.append_nil] at hsplit

/-- What stands behind a text continues its last part. -/
theorem splitOn_behind {more : Text} (hmore : separator ∉ more) : ∀ t : Text, ∃ front last,
    splitOn separator t = front ++ [last] ∧ splitOn separator (t ++ more) = front ++ [last ++ more]
  | [] => ⟨[], [], rfl, splitOn_of_not_mem hmore⟩
  | u :: us => by
    obtain ⟨front, last, hsplit, hsplit'⟩ := splitOn_behind hmore us
    by_cases hu : u = separator
    · subst hu
      exact ⟨[] :: front, last, by rw [splitOn_cons_separator, hsplit]; rfl,
        by rw [List.cons_append, splitOn_cons_separator, hsplit']; rfl⟩
    · cases front with
      | nil => exact ⟨[], u :: last, splitOn_cons hu hsplit, splitOn_cons hu hsplit'⟩
      | cons first front =>
          exact ⟨(u :: first) :: front, last, splitOn_cons hu hsplit, splitOn_cons hu hsplit'⟩

end

/-! ### Plain identifiers -/

theorem continues_of_begins {u : CodeUnit} (h : beginsPlainIdentifier u) :
    continuesPlainIdentifier u := by
  simp only [beginsPlainIdentifier, Bool.or_eq_true] at h
  simp only [continuesPlainIdentifier, CodeUnit.isWord, Bool.or_eq_true]
  rcases h with ((h | h) | h) | h
  · exact .inl (.inl (.inl (.inl h)))
  · exact .inl (.inl (.inl (.inr h)))
  · exact .inl (.inr h)
  · exact .inr h

theorem all_continues {t : Text} (h : t.isPlainIdentifier) : t.all continuesPlainIdentifier := by
  match t with
  | [] => rfl
  | u :: us =>
    obtain ⟨hu, hus⟩ := Bool.and_eq_true_iff.mp h
    exact List.all_cons.trans (by rw [continues_of_begins hu, hus]; rfl)

theorem isPlainIdentifier_append {t more : Text} (h : t.isPlainIdentifier)
    (hmore : more.all continuesPlainIdentifier) :
    (t ++ more).isPlainIdentifier := by
  match t with
  | [] => cases h
  | u :: us =>
    obtain ⟨hu, hus⟩ := Bool.and_eq_true_iff.mp h
    show (beginsPlainIdentifier u && (us ++ more).all continuesPlainIdentifier) = true
    rw [hu, List.all_append, hus, hmore]
    rfl

private theorem point_not_continues : continuesPlainIdentifier '.' = false := by decide

theorem point_not_mem {t : Text} (h : t.all continuesPlainIdentifier) : CodeUnit.ofChar '.' ∉ t :=
  fun hmem =>
  Bool.false_ne_true (point_not_continues.symm.trans (List.all_eq_true.mp h _ hmem))

theorem point_not_mem_identifier {t : Text} (h : t.isIdentifier) : CodeUnit.ofChar '.' ∉ t := by
  intro hmem
  rcases codePoints_units (Bool.and_eq_true_iff.mp h).2 _ hmem with hpart | ⟨hlow, -⟩
  · exact absurd hpart (by decide)
  · exact absurd hlow (by decide)

/-! ### Dotted names -/

/-- Plain identifiers with points between them. -/
def isDotted (t : Text) : Bool := (t.splitOn '.').all isPlainIdentifier

theorem isDotted_of_plain {t : Text} (h : t.isPlainIdentifier) : t.isDotted := by
  rw [isDotted, splitOn_of_not_mem (point_not_mem (all_continues h)), List.all_cons, h]
  rfl

/-- A dotted name that is an identifier is a plain one. -/
theorem isPlainIdentifier_of_dotted {t : Text} (h : t.isDotted) (hname : t.isIdentifier) :
    t.isPlainIdentifier := by
  rw [isDotted, splitOn_of_not_mem (point_not_mem_identifier hname)] at h
  exact (Bool.and_eq_true_iff.mp h).1

theorem isDotted_append {front t : Text} (hfront : front.isDotted) (ht : t.isDotted) :
    (front ++ CodeUnit.ofChar '.' :: t).isDotted := by
  rw [isDotted] at hfront ht ⊢
  rw [splitOn_append, List.all_append, hfront, ht]
  rfl

theorem isDotted_front {front t : Text} (hfront : front.isPlainIdentifier) (ht : t.isDotted) :
    (front ++ t).isDotted := by
  obtain ⟨first, rest, hsplit, -⟩ := exists_splitOn '.' t
  rw [isDotted, hsplit] at ht
  obtain ⟨hfirst, hrest⟩ := Bool.and_eq_true_iff.mp ht
  rw [isDotted, splitOn_front hsplit front (point_not_mem (all_continues hfront)), List.all_cons, hrest,
    isPlainIdentifier_append hfront (all_continues hfirst)]
  rfl

/-- A name with points can be continued. -/
theorem isDotted_continued {t more : Text} (h : t.isDotted) (hmore : more.all continuesPlainIdentifier) :
    (t ++ more).isDotted := by
  obtain ⟨front, last, hsplit, hsplit'⟩ := splitOn_behind (point_not_mem hmore) t
  rw [isDotted, hsplit, List.all_append, Bool.and_eq_true, List.all_cons, Bool.and_eq_true] at h
  rw [isDotted, hsplit', List.all_append, h.1, List.all_cons, isPlainIdentifier_append h.2.1 hmore]
  rfl

/-- A name with points behind a point is the end of such a name. -/
theorem isDotted_behind {front t : Text} (h : (front ++ CodeUnit.ofChar '.' :: t).isDotted) :
    t.isDotted := by
  rw [isDotted, splitOn_append, List.all_append, Bool.and_eq_true] at h
  exact h.2

theorem begins_of_dotted {t : Text} (h : t.isDotted) :
    ∃ u us, t = u :: us ∧ beginsPlainIdentifier u := by
  obtain ⟨first, rest, hsplit, heq⟩ := exists_splitOn '.' t
  rw [isDotted, hsplit, List.all_cons, Bool.and_eq_true] at h
  cases first with
  | nil => exact absurd h.1 Bool.false_ne_true
  | cons u us => exact ⟨u, _, heq, (Bool.and_eq_true_iff.mp h.1).1⟩

/-- The units of a name with points. -/
theorem continues_of_dotted {t : Text} (h : t.isDotted) {u : CodeUnit} (hu : u ∈ t) :
    continuesPlainIdentifier u ∨ u = CodeUnit.ofChar '.' := by
  obtain ⟨first, rest, hsplit, heq⟩ := exists_splitOn '.' t
  rw [isDotted, hsplit, List.all_cons, Bool.and_eq_true, List.all_eq_true] at h
  rw [heq, List.mem_append, List.mem_flatMap] at hu
  rcases hu with hu | ⟨part, hpart, hu⟩
  · exact .inl (List.all_eq_true.mp (all_continues h.1) u hu)
  · rcases List.mem_cons.mp hu with rfl | hu
    · exact .inr rfl
    · exact .inl (List.all_eq_true.mp (all_continues (h.2 part hpart)) u hu)

/-- The name in front of the first point has a capital. -/
def beginsCapital (t : Text) : Bool :=
  (t.splitOn '.').head?.any fun first => first.any CodeUnit.isCapital

theorem beginsCapital_of_head {t : Text} (h : t.head?.any CodeUnit.isCapital) : t.beginsCapital := by
  match t with
  | u :: us =>
    obtain ⟨first, rest, hsplit, -⟩ := exists_splitOn '.' us
    have hu : u ≠ CodeUnit.ofChar '.' := by
      rintro rfl
      exact absurd (show (CodeUnit.ofChar '.').isCapital = true from h) (by decide)
    have hcapital : u.isCapital = true := h
    rw [beginsCapital, splitOn_cons hu hsplit, List.head?_cons, Option.any_some, List.any_cons, hcapital]
    rfl

theorem beginsCapital_front {front : Text} (hfront : front.isPlainIdentifier)
    (hcapital : front.any CodeUnit.isCapital) (t : Text) : beginsCapital (front ++ t) := by
  obtain ⟨first, rest, hsplit, -⟩ := exists_splitOn '.' t
  rw [beginsCapital, splitOn_front hsplit front (point_not_mem (all_continues hfront)),
    List.head?_cons, Option.any_some, List.any_append, hcapital]
  rfl

end JsonCompanion.Text
