import JsonCompanion.Text.Basic

/-!
# Beginnings of texts

* `dropBeginning?_eq_some_iff`: what follows a given beginning, if the text has it.
* `isPrefix_marked`: a beginning with a mark in front, and none behind it, stands in front of every
  later mark.
-/

namespace JsonCompanion.Text

variable {beginning t rest : Text}

theorem dropBeginning?_eq_some_iff : dropBeginning? beginning t = some rest ↔ t = beginning ++ rest := by
  induction beginning generalizing t with
  | nil => exact ⟨Option.some.inj, congrArg some⟩
  | cons b beginning ih =>
    cases t with
    | nil => simp [dropBeginning?]
    | cons u t =>
      rw [dropBeginning?, List.cons_append, List.cons.injEq]
      by_cases hu : b = u
      · subst hu
        rw [if_pos (beq_self_eq_true b), ih]
        exact ⟨fun h => ⟨rfl, h⟩, And.right⟩
      · rw [if_neg (by simpa using hu)]
        exact ⟨nofun, fun h => absurd h.1.symm hu⟩

theorem dropBeginning?_append (beginning rest : Text) :
    dropBeginning? beginning (beginning ++ rest) = some rest :=
  dropBeginning?_eq_some_iff.2 rfl

/-- A beginning with a single mark, in front, does not reach to a later mark. -/
theorem isPrefix_marked {mark first : CodeUnit} {name before behind : Text} (hname : mark ∉ name)
    (h : mark :: name <+: first :: before ++ mark :: behind) : mark :: name <+: first :: before := by
  rw [List.cons_append, List.cons_prefix_cons] at h
  obtain ⟨rfl, h⟩ := h
  rcases List.prefix_or_prefix_of_prefix h (List.prefix_append before (mark :: behind)) with
    hprefix | ⟨more, rfl⟩
  · exact List.cons_prefix_cons.2 ⟨rfl, hprefix⟩
  · -- what reaches beyond would hold the later mark
    rw [List.prefix_append_right_inj] at h
    cases more with
    | nil => exact List.cons_prefix_cons.2 ⟨rfl, (List.append_nil before).symm ▸ List.prefix_rfl⟩
    | cons u more =>
      obtain ⟨rfl, -⟩ := List.cons_prefix_cons.1 h
      exact absurd (by simp) hname

end JsonCompanion.Text
