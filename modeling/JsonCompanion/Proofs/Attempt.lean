import Mathlib.Data.List.Forall2
import JsonCompanion.Failure

/-!
# Attempts that succeed

The parts of an attempt that succeeds succeed: both steps of a sequence, and all attempts for the
elements of a list. Of a sequence that fails one of the steps does. A result with a property shows
that the attempt succeeds.

Lists are read up to the first element that something does not hold of, which `exists_first` gives.
-/

namespace JsonCompanion

variable {α β : Type}

/-- The first element that something does not hold of. -/
theorem exists_first {P : α → Prop} {list : List α} (h : ¬ ∀ a ∈ list, P a) :
    ∃ front a rest, list = front ++ a :: rest ∧ (∀ earlier ∈ front, P earlier) ∧ ¬ P a := by
  induction list with
  | nil => exact absurd (fun _ hmem => absurd hmem List.not_mem_nil) h
  | cons first list ih =>
    by_cases hfirst : P first
    · obtain ⟨front, a, rest, rfl, hfront, ha⟩ :=
        ih fun hlist => h (List.forall_mem_cons.mpr ⟨hfirst, hlist⟩)
      exact ⟨first :: front, a, rest, rfl, List.forall_mem_cons.mpr ⟨hfirst, hfront⟩, ha⟩
    · exact ⟨[], first, list, rfl, fun _ hmem => absurd hmem List.not_mem_nil, hfirst⟩

namespace Attempt

theorem of_bind_ok {attempt : Attempt α} {f : α → Attempt β} {b : β} (h : attempt >>= f = .ok b) :
    ∃ a, attempt = .ok a ∧ f a = .ok b := by
  cases attempt with
  | error failure => cases h
  | ok a => exact ⟨a, rfl, h⟩

theorem of_bind_error {attempt : Attempt α} {f : α → Attempt β} {failure : Failure}
    (h : attempt >>= f = .error failure) :
    attempt = .error failure ∨ ∃ a, attempt = .ok a ∧ f a = .error failure := by
  cases attempt with
  | error other => exact .inl (congrArg Except.error (Except.error.inj h))
  | ok a => exact .inr ⟨a, rfl, h⟩

theorem of_mapM_ok {f : α → Attempt β} {list : List α} {results : List β}
    (h : list.mapM f = .ok results) :
    List.Forall₂ (fun a b => f a = .ok b) list results := by
  induction list generalizing results with
  | nil =>
    obtain rfl := Except.ok.inj h
    exact .nil
  | cons a list ih =>
    rw [List.mapM_cons] at h
    obtain ⟨b, hb, h⟩ := of_bind_ok h
    obtain ⟨bs, hbs, h⟩ := of_bind_ok h
    obtain rfl := Except.ok.inj h
    exact .cons hb (ih hbs)

theorem exists_of_any {attempt : Attempt α} {p : α → Bool} (h : attempt.toOption.any p = true) :
    ∃ a, attempt = .ok a ∧ p a = true := by
  cases attempt with
  | error failure => cases h
  | ok a => exact ⟨a, rfl, h⟩

end Attempt

end JsonCompanion
