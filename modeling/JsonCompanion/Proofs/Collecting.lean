import Mathlib.Data.List.Forall2
import JsonCompanion.Collecting
import JsonCompanion.Proofs.Attempt

/-!
# Results of collecting computations

* `Collecting.Yields` says what holds of a result, however the items before it, and it follows the
  structure of a computation.  A computation for each element of a list has results that belong to
  the elements one by one.
* `Collecting.Leaves` says what holds of a result together with the items that are left behind on
  the way to it.
* `Collecting.HasResult` says that a computation has one result, however the items before it, also
  if it fails; `Collecting.Gives` says so with what holds of it.
-/

namespace JsonCompanion.Collecting

variable {Item α β : Type}

/-- Whenever a computation has a result, something holds of it. -/
def Yields (computation : Collecting Item α) (P : α → Prop) : Prop :=
  ∀ items a items', computation.outcome items = (.ok a, items') → P a

theorem yields_true (computation : Collecting Item α) : computation.Yields fun _ => True :=
  fun _ _ _ _ => trivial

/-- Every result is that of some run. -/
theorem yields_outcome (computation : Collecting Item α) :
    computation.Yields fun a => ∃ items items', computation.outcome items = (.ok a, items') :=
  fun items _ items' heq => ⟨items, items', heq⟩

theorem Yields.imp {P Q : α → Prop} {computation : Collecting Item α} (h : computation.Yields P)
    (himp : ∀ a, P a → Q a) : computation.Yields Q :=
  fun items a items' heq => himp a (h items a items' heq)

theorem yields_pure {a : α} {P : α → Prop} (h : P a) : (pure a : Collecting Item α).Yields P := by
  intro items b items' heq
  obtain ⟨hb, -⟩ := Prod.mk.inj heq
  exact Except.ok.inj hb ▸ h

theorem yields_throw {failure : Failure} {P : α → Prop} :
    (throw failure : Collecting Item α).Yields P := by
  intro items a items' heq
  cases (Prod.mk.inj heq).1

theorem yields_ofAttempt {attempt : Attempt α} {P : α → Prop} (h : ∀ a, attempt = .ok a → P a) :
    (ofAttempt attempt : Collecting Item α).Yields P := by
  cases attempt with
  | ok a => exact yields_pure (h a rfl)
  | error failure => exact yields_throw

theorem outcome_bind (computation : Collecting Item α) (next : α → Collecting Item β)
    (items : List Item) :
    (computation >>= next).outcome items = match computation.outcome items with
      | (.ok a, items) => (next a).outcome items
      | (.error failure, items) => (.error failure, items) := by
  unfold outcome
  rw [ExceptT.run_bind]
  simp only [bind, StateT.bind]
  rcases ExceptT.run computation items with ⟨failure | a, items⟩ <;> rfl

theorem yields_bind {computation : Collecting Item α} {next : α → Collecting Item β} {P : α → Prop}
    {Q : β → Prop} (h : computation.Yields P) (hnext : ∀ a, P a → (next a).Yields Q) :
    (computation >>= next).Yields Q := by
  intro items b items' heq
  rw [outcome_bind] at heq
  rcases hfirst : computation.outcome items with ⟨failure | a, between⟩
  · simp [hfirst] at heq
  · rw [hfirst] at heq
    exact hnext a (h items a between hfirst) between b items' heq

theorem yields_map {computation : Collecting Item α} {g : α → β} {P : α → Prop} {Q : β → Prop}
    (h : computation.Yields P) (himp : ∀ a, P a → Q (g a)) : (g <$> computation).Yields Q :=
  map_eq_pure_bind g computation ▸ yields_bind h fun a ha => yields_pure (himp a ha)

/-- Whenever a computation for each element of a list has results, something holds of each element
and its result. -/
theorem yields_mapM {f : α → Collecting Item β} {P : α → β → Prop} {list : List α}
    (h : ∀ a ∈ list, (f a).Yields (P a)) : (list.mapM f).Yields (List.Forall₂ P list) := by
  induction list with
  | nil => exact yields_pure .nil
  | cons first list ih =>
    rw [List.mapM_cons]
    refine yields_bind (h first (by simp)) fun b hb => ?_
    refine yields_bind (ih fun a ha => h a (by simp [ha])) fun bs hbs => ?_
    exact yields_pure (.cons hb hbs)

/-! ### Items left behind -/

/-- Whenever a computation has a result, something holds of it and of the items that it leaves behind. -/
def Leaves (computation : Collecting Item α) (P : α → List Item → Prop) : Prop :=
  ∀ items a items', computation.outcome items = (.ok a, items') → ∃ left, items' = items ++ left ∧
    P a left

theorem Leaves.imp {P Q : α → List Item → Prop} {computation : Collecting Item α}
    (h : computation.Leaves P) (himp : ∀ a left, P a left → Q a left) : computation.Leaves Q := by
  intro items a items' heq
  obtain ⟨left, hleft, hP⟩ := h items a items' heq
  exact ⟨left, hleft, himp a left hP⟩

theorem leaves_pure {a : α} {P : α → List Item → Prop} (h : P a []) :
    (pure a : Collecting Item α).Leaves P := by
  intro items b items' heq
  obtain ⟨hb, hitems⟩ := Prod.mk.inj heq
  obtain rfl := Except.ok.inj hb
  exact ⟨[], by rw [List.append_nil]; exact hitems.symm, h⟩

theorem leaves_throw {failure : Failure} {P : α → List Item → Prop} :
    (throw failure : Collecting Item α).Leaves P := by
  intro items a items' heq
  cases (Prod.mk.inj heq).1

theorem leaves_ofAttempt {attempt : Attempt α} {P : α → List Item → Prop}
    (h : ∀ a, attempt = .ok a → P a []) :
    (ofAttempt attempt : Collecting Item α).Leaves P := by
  cases attempt with
  | ok a => exact leaves_pure (h a rfl)
  | error failure => exact leaves_throw

theorem leaves_add {item : Item} {P : Unit → List Item → Prop} (h : P () [item]) :
    (add item).Leaves P := by
  intro items _ items' heq
  exact ⟨[item], (Prod.mk.inj heq).2.symm, h⟩

theorem leaves_addAll {list : List Item} {P : Unit → List Item → Prop} (h : P () list) :
    (addAll list).Leaves P := by
  intro items _ items' heq
  exact ⟨list, (Prod.mk.inj heq).2.symm, h⟩

theorem leaves_bind {computation : Collecting Item α} {next : α → Collecting Item β}
    {P : α → List Item → Prop} {Q : β → List Item → Prop} (h : computation.Leaves P)
    (hnext : ∀ a left, P a left → (next a).Leaves fun b more => Q b (left ++ more)) :
    (computation >>= next).Leaves Q := by
  intro items b items' heq
  rw [outcome_bind] at heq
  rcases hfirst : computation.outcome items with ⟨failure | a, between⟩
  · simp [hfirst] at heq
  · rw [hfirst] at heq
    obtain ⟨left, rfl, hP⟩ := h items a between hfirst
    obtain ⟨more, rfl, hQ⟩ := hnext a left hP _ b items' heq
    exact ⟨left ++ more, List.append_assoc .., hQ⟩

theorem leaves_ofAttempt_bind {attempt : Attempt α} {next : α → Collecting Item β}
    {Q : β → List Item → Prop} (h : ∀ a, attempt = .ok a → (next a).Leaves Q) :
    (ofAttempt attempt >>= next).Leaves Q := by
  refine leaves_bind
    (leaves_ofAttempt (P := fun a left => attempt = .ok a ∧ left = []) fun a ha => ⟨ha, rfl⟩) ?_
  rintro a _ ⟨ha, rfl⟩
  exact h a ha

theorem leaves_map {computation : Collecting Item α} {g : α → β} {P : α → List Item → Prop}
    {Q : β → List Item → Prop} (h : computation.Leaves P) (himp : ∀ a left, P a left → Q (g a) left) :
    (g <$> computation).Leaves Q := by
  rw [map_eq_pure_bind]
  refine leaves_bind h fun a left hP => leaves_pure ?_
  rw [List.append_nil]
  exact himp a left hP

/-- What computations for the elements of a list leave behind stands in the order of the elements. -/
theorem leaves_mapM {f : α → Collecting Item β} {P : α → β → List Item → Prop} {list : List α}
    (h : ∀ a ∈ list, (f a).Leaves (P a)) :
    (list.mapM f).Leaves fun results left => ∃ parts : List (β × List Item),
      results = parts.map Prod.fst ∧
      left = parts.flatMap Prod.snd ∧ List.Forall₂ (fun a part => P a part.1 part.2) list parts := by
  induction list with
  | nil => exact leaves_pure ⟨[], rfl, rfl, .nil⟩
  | cons first list ih =>
    rw [List.mapM_cons]
    have hrest := ih fun a ha => h a (List.mem_cons_of_mem first ha)
    refine leaves_bind (h first List.mem_cons_self) fun b left hb => ?_
    refine leaves_bind hrest fun bs more hbs => leaves_pure ?_
    obtain ⟨parts, rfl, rfl, hparts⟩ := hbs
    exact ⟨(b, left) :: parts, rfl, by simp, .cons hb hparts⟩

/-- A result with a property shows that the computation has a result. -/
theorem exists_of_any {computation : Collecting Item α} {items : List Item} {p : α → Bool}
    (h : (computation.outcome items).1.toOption.any p = true) :
    ∃ a items', computation.outcome items = (.ok a, items') ∧ p a = true := by
  rcases houtcome : computation.outcome items with ⟨attempt, items'⟩
  rw [houtcome] at h
  obtain ⟨a, rfl, ha⟩ := Attempt.exists_of_any h
  exact ⟨a, items', rfl, ha⟩

/-! ### One result -/

/-- A computation has one result, whatever the items before it. -/
def HasResult (computation : Collecting Item α) (result : Attempt α) : Prop :=
  ∀ items, (computation.outcome items).1 = result

theorem HasResult.unique {computation : Collecting Item α} {a b : α} (ha : computation.HasResult (.ok a))
    (hb : computation.HasResult (.ok b)) : a = b :=
  Except.ok.inj ((ha []).symm.trans (hb []))

theorem hasResult_pure (a : α) : (pure a : Collecting Item α).HasResult (.ok a) := fun _ => rfl

theorem hasResult_throw (failure : Failure) :
    (throw failure : Collecting Item α).HasResult (.error failure) :=
  fun _ => rfl

theorem hasResult_ofAttempt (attempt : Attempt α) :
    (ofAttempt attempt : Collecting Item α).HasResult attempt := by
  cases attempt with
  | ok a => exact hasResult_pure a
  | error failure => exact hasResult_throw failure

theorem hasResult_add (item : Item) : (add item).HasResult (.ok ()) := fun _ => rfl

theorem hasResult_bind {computation : Collecting Item α} {next : α → Collecting Item β} {a : α}
    {result : Attempt β} (h : computation.HasResult (.ok a)) (hnext : (next a).HasResult result) :
    (computation >>= next).HasResult result := by
  intro items
  have hfirst := h items
  rw [outcome_bind]
  rcases houtcome : computation.outcome items with ⟨attempt, between⟩
  rw [houtcome] at hfirst
  subst hfirst
  exact hnext between

theorem hasResult_bind_error {computation : Collecting Item α} {next : α → Collecting Item β}
    {failure : Failure} (h : computation.HasResult (.error failure)) :
    (computation >>= next).HasResult (.error failure) := by
  intro items
  have hfirst := h items
  rw [outcome_bind]
  rcases houtcome : computation.outcome items with ⟨attempt, between⟩
  rw [houtcome] at hfirst
  subst hfirst
  rfl

theorem hasResult_map {computation : Collecting Item α} {g : α → β} {a : α}
    (h : computation.HasResult (.ok a)) :
    (g <$> computation).HasResult (.ok (g a)) :=
  map_eq_pure_bind g computation ▸ hasResult_bind h (hasResult_pure (g a))

/-- A computation has one result, whatever the items before it, and something holds of it. -/
def Gives (computation : Collecting Item α) (P : α → Prop) : Prop :=
  ∃ result, computation.HasResult result ∧ ∀ a, result = .ok a → P a

theorem gives_pure {a : α} {P : α → Prop} (h : P a) : (pure a : Collecting Item α).Gives P :=
  ⟨_, hasResult_pure a, fun _ heq => Except.ok.inj heq ▸ h⟩

theorem gives_throw {failure : Failure} {P : α → Prop} : (throw failure : Collecting Item α).Gives P :=
  ⟨_, hasResult_throw failure, fun _ heq => nomatch heq⟩

theorem gives_ofAttempt {attempt : Attempt α} {P : α → Prop} (h : ∀ a, attempt = .ok a → P a) :
    (ofAttempt attempt : Collecting Item α).Gives P := ⟨attempt, hasResult_ofAttempt attempt, h⟩

theorem gives_add (item : Item) : (add item).Gives fun _ => True :=
  ⟨_, hasResult_add item, fun _ _ => trivial⟩

theorem gives_bind {computation : Collecting Item α} {next : α → Collecting Item β} {P : α → Prop}
    {Q : β → Prop} (h : computation.Gives P) (hnext : ∀ a, P a → (next a).Gives Q) :
    (computation >>= next).Gives Q := by
  obtain ⟨failure | a, hresult, hP⟩ := h
  · exact ⟨_, hasResult_bind_error hresult, fun _ heq => nomatch heq⟩
  · obtain ⟨result, hrest, hQ⟩ := hnext a (hP a rfl)
    exact ⟨result, hasResult_bind hresult hrest, hQ⟩

/-! ### Elements and results -/

/-- What holds of the elements of two lists together holds of each element of the second with one of
the first. -/
theorem exists_of_mem_right {R : α → β → Prop} {list : List α} {results : List β}
    (h : List.Forall₂ R list results) {b : β} (hb : b ∈ results) : ∃ a ∈ list, R a b := by
  obtain ⟨i, hi, rfl⟩ := List.getElem_of_mem hb
  have hlength : i < list.length := h.length_eq ▸ hi
  exact ⟨list[i], List.getElem_mem hlength, h.get hlength hi⟩

/-- What holds of the elements of two lists together holds of each element of the first with one of
the second. -/
theorem exists_of_mem_left {R : α → β → Prop} {list : List α} {results : List β}
    (h : List.Forall₂ R list results) {a : α} (ha : a ∈ list) : ∃ b ∈ results, R a b :=
  exists_of_mem_right h.flip ha

/-- If each element has a result, the elements of a list have results one by one. -/
theorem exists_results {R : α → β → Prop} {list : List α} (h : ∀ a ∈ list, ∃ b, R a b) :
    ∃ results, List.Forall₂ R list results := by
  induction list with
  | nil => exact ⟨[], .nil⟩
  | cons first list ih =>
    obtain ⟨⟨b, hb⟩, hlist⟩ := List.forall_mem_cons.mp h
    obtain ⟨results, hresults⟩ := ih hlist
    exact ⟨b :: results, .cons hb hresults⟩

/-- Results that are images of others belong to the elements as these do. -/
theorem exists_map {γ : Type} {R : α → γ → Prop} {g : γ → β} {list : List α} {results : List β}
    (h : List.Forall₂ (fun a b => ∃ c, R a c ∧ b = g c) list results) :
    ∃ sources, List.Forall₂ R list sources ∧ results = sources.map g := by
  induction h with
  | nil => exact ⟨[], .nil, rfl⟩
  | cons hfirst _ ih =>
    obtain ⟨c, hc, rfl⟩ := hfirst
    obtain ⟨sources, hsources, rfl⟩ := ih
    exact ⟨c :: sources, .cons hc hsources, rfl⟩

end JsonCompanion.Collecting
