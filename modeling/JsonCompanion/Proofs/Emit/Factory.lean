import Mathlib.Data.List.TakeWhile
import JsonCompanion.Emit.Factory
import JsonCompanion.Proofs.Emit.Requests

/-!
# Supporting code that factories request

* `Factory.readings` are the fields that a factory reads, and `Reading.Asks` says which supporting
  code the decoding of one asks for.
* `readings_dropLeftOut`: arguments that are dropped read nothing, since the code of a reading is an
  access.
* `plan_leaves`: a factory requests what its readings ask for, and the check of keys if the options
  ask for it.
-/

namespace JsonCompanion.Emit

open Collecting

/-- The fields that a factory reads. -/
def Factory.readings (factory : Factory) : List Reading :=
  factory.arguments.filterMap id ++ factory.assignments

/-- The decoding of a field goes through the conversion of an enumeration. -/
def Reading.GoesThrough (setting : ClassSetting) (reading : Reading) (model : EnumModel) : Prop :=
  ∃ type, setting.fieldType reading.field = .ok type ∧ Checks setting.enums type model

/-- What the decoding of a field asks for. -/
def Reading.Asks (setting : ClassSetting) (reading : Reading) (fragment : Fragment) : Prop :=
  ∃ model, reading.GoesThrough setting model ∧ (enumValues model = .ok fragment ∨ fragment = enumDecode)

namespace Factory

variable {setting : ClassSetting}

/-! ### Arguments that are left out -/

/-- The code of a reading accesses a member. -/
private def Accesses (reading : Reading) : Prop := 0x5B ∈ reading.code

private theorem Accesses.ne {reading : Reading} (h : Accesses reading) : reading.code ≠ "undefined" := by
  intro hcode
  unfold Accesses at h
  rw [hcode] at h
  exact absurd h (by decide)

/-- No reading is dropped. -/
theorem readings_dropLeftOut {all : List (Option Reading)}
    (h : ∀ reading ∈ all.filterMap id, reading.code ≠ "undefined") :
    (dropLeftOut all).filterMap id = all.filterMap id := by
  have hsplit : all = dropLeftOut all ++
      (all.reverse.takeWhile fun a => argumentCode a == ("undefined" : Text)).reverse := by
    rw [dropLeftOut, ← List.reverse_append, List.takeWhile_append_dropWhile, List.reverse_reverse]
  generalize hdropped :
    (all.reverse.takeWhile fun a => argumentCode a == ("undefined" : Text)).reverse = dropped at hsplit
  -- an argument is dropped if its code is that of a missing one, which accesses nothing
  have hnone : dropped.filterMap id = [] := by
    rw [List.filterMap_eq_nil_iff]
    intro argument hmem
    cases argument with
    | none => rfl
    | some reading =>
      have hall : some reading ∈ all := hsplit ▸ List.mem_append_right _ hmem
      have htaken := List.mem_takeWhile_imp (List.mem_reverse.1 (hdropped ▸ hmem))
      exact absurd (beq_iff_eq.1 htaken) (h reading (List.mem_filterMap.2 ⟨_, hall, rfl⟩))
  conv_rhs => rw [hsplit, List.filterMap_append, hnone, List.append_nil]

/-! ### Readings -/

private theorem asks_iff (reading : Reading) {type : TypeRef} {fragment : Fragment}
    (htype : setting.fieldType reading.field = .ok type) :
    Asks setting.enums .decode type fragment ↔ reading.Asks setting fragment := by
  constructor
  · rintro ⟨-, model, hchecks, hfragment⟩
    exact ⟨model, ⟨type, htype, hchecks⟩, hfragment⟩
  · rintro ⟨model, ⟨other, hother, hchecks⟩, hfragment⟩
    obtain rfl := Except.ok.inj (htype.symm.trans hother)
    exact ⟨rfl, model, hchecks, hfragment⟩

section

variable (hcustoms : setting.customs = []) (hunique : (setting.enums.map EnumModel.name).Nodup)

include hcustoms hunique

/-- A field is read with an access, and what its decoding asks for is requested. -/
private theorem read_leaves (field : Field) : (read setting field).Leaves fun reading left =>
    Accesses reading ∧ ∀ fragment, fragment ∈ left ↔ reading.Asks setting fragment := by
  have hrequests : ∀ type, Requests (convert (setting.conversion field.name) .decode type)
      (Asks setting.enums .decode type) := convert_requests hcustoms hunique
  unfold read
  dsimp only
  refine leaves_ofAttempt_bind fun type htype => ?_
  split
  · refine leaves_ofAttempt_bind fun fallback _ => ?_
    refine leaves_bind (hrequests _ _) fun converted left hleft => leaves_pure ⟨?_, fun fragment => ?_⟩
    · unfold Accesses
      simp only [List.mem_append]
      exact .inl (.inl (.inl (.inl (mem_jsonAccess _))))
    · rw [List.append_nil, hleft.2, asks_nullable]
      exact asks_iff _ htype
  · refine leaves_bind (hrequests _ _) fun converted left hleft =>
      leaves_pure ⟨hleft.1 (mem_jsonAccess _), fun fragment => ?_⟩
    rw [List.append_nil, hleft.2]
    exact asks_iff ⟨field, _, _⟩ htype

private theorem argument_leaves (usable : List Field) (reason? : Text → Option Text)
    (parameter : Parameter) :
    (argument setting usable reason? parameter).Leaves fun argument left =>
      (∀ reading ∈ argument, Accesses reading) ∧
      ∀ fragment, fragment ∈ left ↔ ∃ reading ∈ argument, reading.Asks setting fragment := by
  unfold argument
  split
  · refine leaves_map (read_leaves hcustoms hunique _) fun reading left hleft => ?_
    simpa using hleft
  · split
    · exact leaves_pure ⟨by simp, by simp⟩
    · exact leaves_throw

private theorem readArguments_leaves (usable : List Field) (reason? : Text → Option Text)
    (parameters : List Parameter) :
    (readArguments setting usable reason? parameters).Leaves fun all left =>
      (∀ reading ∈ all.filterMap id, Accesses reading) ∧
        ∀ fragment, fragment ∈ left ↔ ∃ reading ∈ all.filterMap id, reading.Asks setting fragment := by
  induction parameters with
  | nil => exact leaves_pure ⟨by simp, by simp⟩
  | cons parameter parameters ih =>
    unfold readArguments
    refine leaves_bind (argument_leaves hcustoms hunique usable reason? parameter)
      fun first left hfirst => ?_
    refine leaves_bind ih fun all more hall => leaves_pure ⟨?_, fun fragment => ?_⟩
    · cases first with
      | none => exact hall.1
      | some reading => exact List.forall_mem_cons.2 ⟨hfirst.1 reading rfl, hall.1⟩
    · rw [List.append_nil, List.mem_append, hfirst.2, hall.2]
      cases first <;> simp

private theorem readAssignments_leaves (used : List Text) (fields : List Field) :
    (readAssignments setting used fields).Leaves fun assigned left =>
      ∀ fragment, fragment ∈ left ↔ ∃ reading ∈ assigned, reading.Asks setting fragment := by
  induction fields generalizing used with
  | nil => exact leaves_pure (by simp)
  | cons field fields ih =>
    unfold readAssignments
    split
    · exact ih used
    · refine leaves_bind (read_leaves hcustoms hunique field) fun first left hfirst => ?_
      refine leaves_bind (ih _) fun assigned more hassigned => leaves_pure fun fragment => ?_
      rw [List.append_nil, List.mem_append, hfirst.2, hassigned, List.exists_mem_cons_iff]

/-- A factory requests what its readings ask for, and the check of keys if the options ask for it. -/
theorem plan_leaves (usable : List Field) (reason? : Text → Option Text) :
    (plan setting usable reason?).Leaves fun plan left => plan.factory.className = setting.model.name ∧
      ∀ fragment, fragment ∈ left ↔ (∃ reading ∈ plan.factory.readings, reading.Asks setting fragment) ∨
        setting.config.disallowUnrecognizedKeys = true ∧ fragment = checkKeys := by
  unfold plan
  refine leaves_bind (readArguments_leaves hcustoms hunique usable reason? setting.model.parameters)
    fun all left hall => ?_
  have hassignments := readAssignments_leaves hcustoms hunique (consumed all []) usable
  refine leaves_bind hassignments fun assigned more hassigned => ?_
  -- an argument that is left out has no reading, so that no request gets lost with it
  have hreadings : ∀ fragment, fragment ∈ left ++ more ↔
      ∃ reading ∈ (dropLeftOut all).filterMap id ++ assigned, reading.Asks setting fragment := by
    intro fragment
    rw [readings_dropLeftOut fun reading hmem => (hall.1 reading hmem).ne, List.mem_append, hall.2,
      hassigned]
    simp only [List.mem_append, or_and_right, exists_or]
  dsimp only
  split
  · rename_i hchecks
    refine leaves_bind (leaves_add (P := fun _ left => left = [checkKeys]) rfl) ?_
    rintro _ _ rfl
    refine leaves_pure ⟨rfl, fun fragment => ?_⟩
    rw [List.append_nil, ← List.append_assoc, List.mem_append, hreadings]
    simp [hchecks, readings]
  · rename_i hchecks
    refine leaves_pure ⟨rfl, fun fragment => ?_⟩
    rw [List.append_nil, hreadings]
    simp [hchecks, readings]

end

end Factory

end JsonCompanion.Emit
