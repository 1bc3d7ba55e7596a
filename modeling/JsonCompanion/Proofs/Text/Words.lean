import JsonCompanion.Proofs.Text.Trim

/-!
# Words

* `takeWhile_stop` and `dropWhile_stop`: a unit of another kind ends a run of units.
* `firstWord` is what stands between the first blanks and the next ones; what follows those does not
  matter for it.
-/

namespace JsonCompanion.Text

variable {t more : Text} {u : CodeUnit}

/-! ### Runs of units -/

section

variable {isIn : CodeUnit → Bool}

theorem takeWhile_stop (hu : isIn u = false) (t more : Text) :
    (t ++ u :: more).takeWhile isIn = t.takeWhile isIn := by
  induction t with
  | nil => exact List.takeWhile_cons_of_neg (by simpa using hu)
  | cons v t ih => rw [List.cons_append, List.takeWhile_cons, List.takeWhile_cons, ih]

theorem dropWhile_stop (hu : isIn u = false) (t more : Text) :
    (t ++ u :: more).dropWhile isIn = t.dropWhile isIn ++ u :: more := by
  induction t with
  | nil => exact List.dropWhile_cons_of_neg (by simpa using hu)
  | cons v t ih =>
    rw [List.cons_append, List.dropWhile_cons, List.dropWhile_cons, ih]
    split <;> rfl

theorem drop_takeWhile (isIn : CodeUnit → Bool) (t : Text) :
    t.drop (t.takeWhile isIn).length = t.dropWhile isIn := by
  induction t with
  | nil => rfl
  | cons u t ih =>
    rw [List.takeWhile_cons, List.dropWhile_cons]
    split
    · exact ih
    · rfl

end

/-! ### First words -/

/-- The first units in a row that are no blanks. -/
def firstWord (t : Text) : Text := t.trimStart.takeWhile fun u => !u.isBlank

theorem takeWhile_trim (t : Text) : (t.trim.takeWhile fun u => !u.isBlank) = firstWord t := by
  obtain ⟨blanks, hblanks, hall⟩ := exists_trimEnd t.trimStart
  rw [firstWord, hblanks, trim]
  cases blanks with
  | nil => rw [List.append_nil]
  | cons u blanks => exact (takeWhile_stop (by rw [hall u List.mem_cons_self]; rfl) _ blanks).symm

/-- A blank ends the first word. -/
theorem firstWord_stop (ht : t.isBlank = false) (hu : u.isBlank = true) (more : Text) :
    firstWord (t ++ u :: more) = firstWord t := by
  rw [firstWord, trimStart_append ht]
  exact takeWhile_stop (by rw [hu]; rfl) _ more

theorem firstWord_blanks (hblanks : more.isBlank = true) (t : Text) :
    firstWord (t ++ more) = firstWord t := by
  cases more with
  | nil => rw [List.append_nil]
  | cons u more =>
    have hu : u.isBlank = true := List.all_eq_true.1 hblanks u List.mem_cons_self
    cases ht : isBlank t with
    | true =>
      rw [firstWord, firstWord, trimStart_blanks ht, trimStart_eq_nil.2 hblanks, trimStart_eq_nil.2 ht]
    | false => exact firstWord_stop ht hu more

end JsonCompanion.Text
