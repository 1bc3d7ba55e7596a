import Mathlib.Data.List.Basic
import JsonCompanion.Compose.Composition

/-!
# Lists without repetitions

* `FirstSeen` says that a list names the elements of another one in the order in which they first
  occur, as `distinct` does.
* `exists_mem_distinctFragments`: dropping fragments that repeat a text loses no text.
-/

namespace JsonCompanion

open Emit

/-! ### First occurrences -/

/-- A list names the elements of another one, each once, in the order in which they first occur. -/
structure FirstSeen (list seen : List Text) : Prop where
  mem_iff : ∀ a, a ∈ seen ↔ a ∈ list
  pairwise : seen.Pairwise fun a b => list.idxOf a < list.idxOf b

namespace FirstSeen

variable {list seen : List Text}

theorem nodup (h : FirstSeen list seen) : seen.Nodup :=
  h.pairwise.imp fun hlt heq => absurd (heq ▸ hlt) (Nat.lt_irrefl _)

/-- What occurs earlier is named earlier. -/
theorem idxOf_lt (h : FirstSeen list seen) {a b : Text} (ha : a ∈ list) (hb : b ∈ list)
    (hlt : list.idxOf a < list.idxOf b) : seen.idxOf a < seen.idxOf b := by
  have ha := (h.mem_iff a).2 ha
  have hb := (h.mem_iff b).2 hb
  rcases Nat.lt_trichotomy (seen.idxOf a) (seen.idxOf b) with hbefore | hsame | hbehind
  · exact hbefore
  · obtain rfl := (List.idxOf_inj ha).1 hsame
    exact absurd hlt (Nat.lt_irrefl _)
  · have horder := List.pairwise_iff_getElem.1 h.pairwise _ _ (List.idxOf_lt_length_of_mem hb)
      (List.idxOf_lt_length_of_mem ha) hbehind
    rw [List.getElem_idxOf, List.getElem_idxOf] at horder
    omega

/-- One more element is named at the end, unless it occurred before. -/
theorem push (h : FirstSeen list seen) (a : Text) :
    FirstSeen (list ++ [a]) (if seen.contains a then seen else seen ++ [a]) := by
  have hbefore : ∀ b ∈ seen, (list ++ [a]).idxOf b = list.idxOf b := fun b hb =>
    List.idxOf_append_of_mem ((h.mem_iff b).1 hb)
  have hpairwise : seen.Pairwise fun b c => (list ++ [a]).idxOf b < (list ++ [a]).idxOf c :=
    h.pairwise.imp_of_mem fun hb hc hlt => by rwa [hbefore _ hb, hbefore _ hc]
  by_cases hmem : a ∈ seen
  · simp only [List.contains_eq_mem, hmem, decide_true, if_true]
    refine ⟨fun b => ?_, hpairwise⟩
    rw [h.mem_iff, List.mem_append, List.mem_singleton]
    exact ⟨.inl, fun hb => hb.elim id fun heq => heq ▸ (h.mem_iff a).1 hmem⟩
  · simp only [List.contains_eq_mem, hmem, decide_false, Bool.false_eq_true, if_false]
    refine ⟨fun b => by simp [h.mem_iff], List.pairwise_append.2 ⟨hpairwise, by simp, fun b hb c hc => ?_⟩⟩
    obtain rfl := List.mem_singleton.1 hc
    have hnew : c ∉ list := fun hc => hmem ((h.mem_iff c).2 hc)
    rw [hbefore b hb, List.idxOf_append_of_notMem hnew]
    exact Nat.lt_of_lt_of_le (List.idxOf_lt_length_of_mem ((h.mem_iff b).1 hb)) (Nat.le_add_right _ _)

end FirstSeen

private theorem foldl_firstSeen {list seen : List Text} (h : FirstSeen list seen) (names : List Text) :
    FirstSeen (list ++ names)
      (names.foldl (fun seen name => if seen.contains name then seen else seen ++ [name]) seen) := by
  induction names generalizing list seen with
  | nil => simpa using h
  | cons name names ih => simpa using ih (h.push name)

theorem distinct_firstSeen (names : List Text) : FirstSeen names (distinct names) := by
  have hnone : FirstSeen [] [] := ⟨fun _ => Iff.rfl, .nil⟩
  exact foldl_firstSeen hnone names

theorem distinct_nodup (names : List Text) : (distinct names).Nodup := (distinct_firstSeen names).nodup

@[simp]
theorem mem_distinct {names : List Text} {name : Text} : name ∈ distinct names ↔ name ∈ names :=
  (distinct_firstSeen names).mem_iff name

/-! ### Fragments -/

private theorem map_foldl_fragments (fragments seen : List Fragment) :
    (fragments.foldl (fun seen fragment =>
        if seen.any fun earlier => earlier.text == fragment.text then seen else seen ++ [fragment])
          seen).map
      Fragment.text =
    (fragments.map Fragment.text).foldl
      (fun seen name => if seen.contains name then seen else seen ++ [name])
      (seen.map Fragment.text) := by
  induction fragments generalizing seen with
  | nil => rfl
  | cons fragment fragments ih =>
    have hany : (seen.any fun earlier => earlier.text == fragment.text) =
        (seen.map Fragment.text).contains fragment.text := by
      rw [List.contains_eq_any_beq, List.any_map]
      exact congrArg seen.any (funext fun earlier => Bool.beq_comm)
    rw [List.foldl_cons, ih, List.map_cons, List.foldl_cons, hany]
    split <;> simp

/-- The texts of the fragments that are kept are the texts of all, each once. -/
theorem map_distinctFragments (fragments : List Fragment) :
    (distinctFragments fragments).map Fragment.text = distinct (fragments.map Fragment.text) :=
  map_foldl_fragments fragments []

/-- Of every text a fragment is kept. -/
theorem exists_mem_distinctFragments {fragments : List Fragment} {fragment : Fragment}
    (h : fragment ∈ fragments) :
    ∃ kept ∈ distinctFragments fragments, kept.text = fragment.text := by
  have hmem : fragment.text ∈ (distinctFragments fragments).map Fragment.text := by
    rw [map_distinctFragments, mem_distinct]
    exact List.mem_map_of_mem h
  exact List.mem_map.1 hmem

theorem distinctFragments_subset (fragments : List Fragment) :
    distinctFragments fragments ⊆ fragments := by
  suffices h : ∀ seen : List Fragment, fragments.foldl (fun seen fragment =>
      if seen.any fun earlier => earlier.text == fragment.text then seen else seen ++ [fragment]) seen ⊆
        seen ++ fragments from h []
  induction fragments with
  | nil => simp
  | cons fragment fragments ih =>
    intro seen
    rw [List.foldl_cons]
    split
    · exact List.Subset.trans (ih seen)
        (List.append_subset.2 ⟨by simp, fun other hother => by simp [hother]⟩)
    · simpa using ih (seen ++ [fragment])

/-- Fragments of which those with the same name have the same text are kept under different names. -/
theorem nodup_names_distinctFragments {fragments : List Fragment}
    (h : ∀ fragment ∈ fragments, ∀ other ∈ fragments, fragment.name = other.name →
      fragment.text = other.text) :
    ((distinctFragments fragments).map Fragment.name).Nodup := by
  have htexts : ((distinctFragments fragments).map Fragment.text).Nodup := by
    rw [map_distinctFragments]
    exact distinct_nodup _
  rw [List.Nodup, List.pairwise_map] at htexts ⊢
  refine htexts.imp_of_mem fun hfragment hother hne hname => hne ?_
  exact h _ (distinctFragments_subset _ hfragment) _ (distinctFragments_subset _ hother) hname

end JsonCompanion
