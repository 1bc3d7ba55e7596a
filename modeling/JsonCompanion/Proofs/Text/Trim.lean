import Mathlib.Data.List.TakeWhile
import JsonCompanion.Text.Basic

/-!
# Blanks at the ends of a text

* `exists_trimEnd`: a text is what `trimEnd` leaves of it, with blanks behind.
* `lt_length_trimEnd`: what is left reaches beyond every unit that is no blank.
* `trimStart_blanks` and `trimStart_append`: blanks in front are removed, up to the first unit that
  is none.
* `trim_eq_self`: nothing is removed from a text that begins and ends with units that are no blanks.
-/

namespace JsonCompanion.Text

variable {t before : Text} {u : CodeUnit}

/-- Only blanks are removed from the end. -/
theorem exists_trimEnd (t : Text) :
    ∃ blanks : Text, t = t.trimEnd ++ blanks ∧ ∀ u ∈ blanks, u.isBlank = true := by
  refine ⟨(t.reverse.takeWhile CodeUnit.isBlank).reverse, ?_, fun u hu => ?_⟩
  · rw [trimEnd, trimStart, ← List.reverse_append, List.takeWhile_append_dropWhile, List.reverse_reverse]
  · exact List.mem_takeWhile_imp (List.mem_reverse.1 hu)

theorem length_trimEnd_le (t : Text) : t.trimEnd.length ≤ t.length := by
  obtain ⟨blanks, ht, -⟩ := exists_trimEnd t
  have hlength := congrArg List.length ht
  rw [List.length_append] at hlength
  omega

/-- The part that is left reaches beyond every unit that is no blank. -/
theorem lt_length_trimEnd {i : Nat} (hu : t[i]? = some u) (hblank : u.isBlank = false) :
    i < t.trimEnd.length := by
  obtain ⟨blanks, ht, hblanks⟩ := exists_trimEnd t
  refine Nat.lt_of_not_le fun hle => ?_
  have hmem : u ∈ blanks := by
    rw [ht, List.getElem?_append_right hle] at hu
    exact List.mem_of_getElem? hu
  rw [hblanks u hmem] at hblank
  cases hblank

theorem trimStart_eq_self (hfirst : ∀ u ∈ t.head?, u.isBlank = false) : t.trimStart = t := by
  cases t with
  | nil => rfl
  | cons u t => exact List.dropWhile_cons_of_neg (by simpa using hfirst)

theorem trimStart_blanks (hblanks : before.isBlank = true) (t : Text) :
    (before ++ t).trimStart = t.trimStart :=
  List.dropWhile_append_of_pos (List.all_eq_true.1 hblanks)

theorem trimStart_eq_nil : t.trimStart = [] ↔ t.isBlank = true := by
  rw [trimStart, List.dropWhile_eq_nil_iff, isBlank, List.all_eq_true]

theorem trimStart_append (ht : t.isBlank = false) (more : Text) :
    (t ++ more).trimStart = t.trimStart ++ more := by
  have hne : ¬ t.trimStart.isEmpty = true := by
    rw [List.isEmpty_iff, trimStart_eq_nil, ht]
    exact Bool.false_ne_true
  exact List.dropWhile_append.trans (if_neg hne)

theorem trim_eq_self (hfirst : ∀ u ∈ t.head?, u.isBlank = false)
    (hlast : ∀ u ∈ t.getLast?, u.isBlank = false) :
    t.trim = t := by
  have hreverse : trimStart t.reverse = t.reverse :=
    trimStart_eq_self fun u hu => hlast u (List.head?_reverse ▸ hu)
  rw [trim, trimStart_eq_self hfirst, trimEnd, hreverse, List.reverse_reverse]

end JsonCompanion.Text
