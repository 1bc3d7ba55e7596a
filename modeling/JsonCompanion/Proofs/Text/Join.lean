import JsonCompanion.Text.Basic

/-!
# Joined texts

* `join_cons` and `join_concat` take the first and the last part off; `isPrefix_join`,
  `isInfix_join` and `isSuffix_join` find a part.
-/

namespace JsonCompanion.Text

variable {separator part : Text} {parts : List Text}

theorem join_cons (h : parts ≠ []) :
    join separator (part :: parts) = part ++ separator ++ join separator parts := by
  cases parts with
  | nil => exact absurd rfl h
  | cons next parts => rfl

theorem isPrefix_join : part <+: join separator (part :: parts) := by
  cases parts with
  | nil => exact List.prefix_refl part
  | cons next parts => exact ⟨separator ++ join separator (next :: parts), (List.append_assoc ..).symm⟩

theorem isInfix_join (h : part ∈ parts) : part <:+: join separator parts := by
  induction parts with
  | nil => cases h
  | cons first parts ih =>
    by_cases hnil : parts = []
    · subst hnil
      obtain rfl := List.mem_singleton.1 h
      exact List.infix_rfl
    · rw [join_cons hnil]
      rcases List.mem_cons.1 h with rfl | h
      · exact ⟨[], separator ++ join separator parts, by simp⟩
      · exact (ih h).trans (List.suffix_append _ _).isInfix

theorem join_concat (h : parts ≠ []) :
    join separator (parts ++ [part]) = join separator parts ++ separator ++ part := by
  induction parts with
  | nil => exact absurd rfl h
  | cons first parts ih =>
    by_cases hnil : parts = []
    · subst hnil
      rfl
    · rw [List.cons_append, join_cons (by simp), ih hnil, join_cons hnil]
      simp

theorem isSuffix_join (separator part : Text) (parts : List Text) :
    part <:+ join separator (parts ++ [part]) := by
  by_cases hnil : parts = []
  · subst hnil
    exact List.suffix_rfl
  · rw [join_concat hnil]
    exact List.suffix_append _ _

end JsonCompanion.Text
