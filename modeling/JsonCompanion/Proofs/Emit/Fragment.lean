import JsonCompanion.Emit.Fragment
import JsonCompanion.Proofs.Text.Join
import JsonCompanion.Proofs.Text.Trim
import JsonCompanion.Text.Letter

/-!
# Texts of fragments

* `Fragment.exists_rest`: the text of a fragment has the name that it declares, as a word of its own.
* `Fragment.head?_text` and `Fragment.getLast?_text` are the ends of the text, which tell exported
  fragments from the others and functions from constants; `Fragment.trim_text` follows from them.
-/

namespace JsonCompanion

namespace Emit.Fragment

/-- Other modules can import the name. -/
def isExported : Fragment → Bool
  | .function isExported _ _ _ => isExported
  | .constant _ _ => true

/-- What stands in front of the name: `export`, if the fragment is exported, and the kind of the
declaration. -/
def opening : Fragment → Text
  | .function true _ _ _ => "export function "
  | .function false _ _ _ => "function "
  | .constant _ _ => "export const "

/-- The last unit of the text. -/
def ending : Fragment → CodeUnit
  | .function _ _ _ _ => 0x7D
  | .constant _ _ => 0x3B

/-- The name stands behind the opening, and a mark ends it. -/
theorem exists_rest (fragment : Fragment) : ∃ (mark : CodeUnit) (rest : Text),
    fragment.text = fragment.opening ++ fragment.name ++ mark :: rest ∧
      Text.continuesPlainIdentifier mark = false ∧ rest.getLast? = some fragment.ending := by
  cases fragment with
  | constant name value =>
    have hvalue : Fragment.text (.constant name value) =
        ("export const " : Text) ++ name ++ 0x20 :: (("= " : Text) ++ value ++ [0x3B]) := by
      simp only [text, List.append_assoc]
      rfl
    exact ⟨0x20, _, hvalue, by decide, List.getLast?_concat⟩
  | function isExported name parameters lines =>
    have hopening : (if isExported then ("export " : Text) else []) ++ ("function " : Text) =
        (Fragment.function isExported name parameters lines).opening := by
      cases isExported <;> rfl
    obtain ⟨before, hbefore⟩ := Text.isSuffix_join "\n" [0x7D] lines
    have hlines : Fragment.text (.function isExported name parameters lines) =
        (Fragment.function isExported name parameters lines).opening ++ name ++
          0x28 :: (Text.join ", " parameters ++ (") \x7b\n" : Text) ++ before ++ [0x7D]) := by
      show Text.join "\n" (_ :: (lines ++ [[0x7D]])) = _
      rw [Text.join_cons (by simp), ← hbefore, signature, ← hopening]
      simp only [List.append_assoc]
      rfl
    exact ⟨0x28, _, hlines, by decide, List.getLast?_concat⟩

theorem head?_text (fragment : Fragment) :
    fragment.text.head? = some (if fragment.isExported then 0x65 else 0x66) := by
  obtain ⟨mark, rest, htext, -, -⟩ := fragment.exists_rest
  rw [htext]
  cases fragment with
  | constant name value => rfl
  | function isExported name parameters lines => cases isExported <;> rfl

theorem getLast?_text (fragment : Fragment) : fragment.text.getLast? = some fragment.ending := by
  obtain ⟨mark, rest, htext, -, hlast⟩ := fragment.exists_rest
  rw [htext, List.getLast?_append, List.getLast?_cons, hlast]
  rfl

theorem text_ne_nil (fragment : Fragment) : fragment.text ≠ [] := by
  intro hnil
  have hhead := fragment.head?_text
  rw [hnil] at hhead
  cases hhead

/-- Texts of fragments have no blanks at their ends. -/
theorem trim_text (fragment : Fragment) : fragment.text.trim = fragment.text := by
  refine Text.trim_eq_self (fun u hu => ?_) fun u hu => ?_
  · rw [head?_text, Option.mem_some_iff] at hu
    subst hu
    split <;> decide
  · rw [getLast?_text, Option.mem_some_iff] at hu
    subst hu
    cases fragment <;> rfl

theorem isExported_eq_of_text {a b : Fragment} (h : a.text = b.text) : a.isExported = b.isExported := by
  have hheads := congrArg List.head? h
  rw [head?_text, head?_text] at hheads
  cases ha : a.isExported <;> cases hb : b.isExported <;> simp_all

/-- Constants with the same text have values with the same last unit. -/
theorem getLast?_value_eq_of_text {name name' value value' : Text} (hvalue : value ≠ [])
    (hvalue' : value' ≠ []) (h : (constant name value).text = (constant name' value').text) :
    value.getLast? = value'.getLast? := by
  have hlast := congrArg List.getLast? (List.append_cancel_right h)
  rw [List.getLast?_append, List.getLast?_append] at hlast
  simpa [List.getLast?_eq_some_getLast hvalue, List.getLast?_eq_some_getLast hvalue'] using hlast

end Emit.Fragment

end JsonCompanion
