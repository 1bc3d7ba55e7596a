import JsonCompanion.Proofs.Patch.Splice

/-!
# The order of a batch

A batch is taken in an order of its own, so all that is left of the order in which it is given are
the ties: patches that start at the same place.

* `Overlaps` says that two ranges share a place, or that an insertion lies strictly inside a
  replaced range.
* `InsertsBefore` is the one tie that counts: an insertion where a replaced range begins.
* `ascending_eq_of_ties`: orders of a batch with the same ties are sorted alike.
* `fits_ascending_iff`: a batch fits a text exactly if its ranges lie apart in the order in which
  they are given.
* `apply_order_settles`: of ranges that do not overlap, an order is refused exactly if an insertion
  stands behind the patch that replaces the range at its place.
-/

namespace JsonCompanion

namespace Patch

variable {length : Nat} {text : Text} {a b : Patch} {patches others batch : List Patch}

/-! ### Ranges that overlap -/

/-- A place lies in the range of a patch. -/
def Covers (patch : Patch) (place : Nat) : Prop := patch.start.place ≤ place ∧ place < patch.stop.place

/-- An insertion lies strictly inside the range of another patch. -/
def InsertsInside (patch other : Patch) : Prop :=
  patch.start.place = patch.stop.place ∧ other.start.place < patch.start.place ∧
    patch.start.place < other.stop.place

/-- The ranges of two patches share a place, or one patch inserts strictly inside the range of the
other. -/
def Overlaps (patch other : Patch) : Prop :=
  (∃ place, patch.Covers place ∧ other.Covers place) ∨ patch.InsertsInside other ∨
    other.InsertsInside patch

/-- A patch inserts where a range begins that another one replaces. -/
def InsertsBefore (patch other : Patch) : Prop :=
  patch.start.place = patch.stop.place ∧ patch.start.place = other.start.place ∧
    other.start.place < other.stop.place

instance (patch other : Patch) : Decidable (patch.InsertsBefore other) :=
  inferInstanceAs (Decidable (_ ∧ _ ∧ _))

private theorem not_overlaps_iff (ha : a.start.place ≤ a.stop.place)
    (hb : b.start.place ≤ b.stop.place) :
    ¬ a.Overlaps b ↔ a.stop.place ≤ b.start.place ∨ b.stop.place ≤ a.start.place := by
  constructor
  · intro h
    by_contra hno
    rw [not_or, Nat.not_le, Nat.not_le] at hno
    obtain ⟨hstop, hstop'⟩ := hno
    rcases Nat.eq_or_lt_of_le ha with hinserts | hreplaces
    · exact h (.inr (.inl ⟨hinserts, by omega, by omega⟩))
    · rcases Nat.eq_or_lt_of_le hb with hinserts' | hreplaces'
      · exact h (.inr (.inr ⟨hinserts', by omega, by omega⟩))
      · -- both replace something, so the later start is a place of both ranges
        refine h (.inl ⟨max a.start.place b.start.place, ⟨?_, ?_⟩, ?_, ?_⟩) <;> omega
  · rintro hapart
      (⟨place, ⟨hstart, hstop⟩, hstart', hstop'⟩ | ⟨hinserts, hstart, hstop⟩ | ⟨hinserts, hstart, hstop⟩)
    · omega
    · omega
    · omega

/-- Ranges lie apart in their order if they do not overlap and the later one does not insert where
the first begins. -/
private theorem liesApart_iff (ha : a.start.place ≤ a.stop.place) (hb : b.start.place ≤ b.stop.place) :
    a.LiesApart b ↔ ¬ a.Overlaps b ∧ ¬ b.InsertsBefore a := by
  rw [not_overlaps_iff ha hb]
  unfold LiesApart InsertsBefore
  omega

/-! ### Batches that fit -/

private theorem Fits.pairwise (h : Fits length patches) :
    patches.Pairwise fun a b => a.stop.place ≤ b.start.place := by
  obtain ⟨hinside, hapart⟩ := h
  induction patches with
  | nil => exact .nil
  | cons patch patches ih =>
    obtain ⟨hpatch, hinside⟩ := List.forall_mem_cons.1 hinside
    have hrest := ih hinside hapart.tail
    refine List.pairwise_cons.2 ⟨fun p hp => ?_, hrest⟩
    cases patches with
    | nil => cases hp
    | cons next patches =>
      have hnext : patch.stop.place ≤ next.start.place := hapart.rel
      rcases List.mem_cons.1 hp with rfl | hp
      · exact hnext
      · have hle := start_le_stop (hinside next List.mem_cons_self)
        have hbehind := (List.pairwise_cons.1 hrest).1 p hp
        omega

private theorem units_trans (a b c : Patch) (hab : decide (a.start.units ≤ b.start.units) = true)
    (hbc : decide (b.start.units ≤ c.start.units) = true) :
    decide (a.start.units ≤ c.start.units) = true := by
  rw [decide_eq_true_iff] at *
  omega

private theorem units_total (a b : Patch) :
    (decide (a.start.units ≤ b.start.units) || decide (b.start.units ≤ a.start.units)) = true := by
  rw [Bool.or_eq_true, decide_eq_true_iff, decide_eq_true_iff]
  omega

private theorem ascending_perm (patches : List Patch) : (ascending patches).Perm patches :=
  List.mergeSort_perm patches _

private theorem ascending_sorted (patches : List Patch) :
    (ascending patches).Pairwise fun a b => a.start.units ≤ b.start.units := by
  have hsorted := List.pairwise_mergeSort units_trans units_total patches
  exact hsorted.imp of_decide_eq_true

/-- A batch fits a text exactly if its ranges lie in the text and, in the order of the batch, apart. -/
theorem fits_ascending_iff (hinside : ∀ p ∈ patches, LiesIn length p) :
    Fits length (ascending patches) ↔ patches.Pairwise LiesApart := by
  refine ⟨fun hfits => ?_, fits_ascending hinside⟩
  have hapart := hfits.pairwise
  rw [List.pairwise_iff_forall_sublist]
  intro a b hab
  have ha := hinside a (hab.subset List.mem_cons_self)
  have hb := hinside b (hab.subset (List.mem_cons_of_mem _ List.mem_cons_self))
  by_cases hle : a.start.place ≤ b.start.place
  · -- the first of the two stays in front of the other
    have hsorted : [a, b].Sublist (ascending patches) :=
      List.pair_sublist_mergeSort units_trans units_total
        (decide_eq_true ((units_le_iff ha hb).2 hle)) hab
    exact .inl (List.pairwise_iff_forall_sublist.1 hapart hsorted)
  · -- the other one goes in front
    have hne : a ≠ b := by
      rintro rfl
      exact hle le_rfl
    have horder : (ascending patches).Pairwise fun a b => a.stop.place ≤ b.start.place ∨
        b.stop.place ≤ a.start.place :=
      hapart.imp .inl
    have hmem (p : Patch) (hp : p ∈ [a, b]) : p ∈ ascending patches := mem_ascending.2 (hab.subset hp)
    have : Std.Symm fun a b : Patch => a.stop.place ≤ b.start.place ∨ b.stop.place ≤ a.start.place :=
      ⟨fun _ _ => Or.symm⟩
    have hstop := horder.forall (hmem a (by simp)) (hmem b (by simp)) hne
    have hrange := start_le_stop ha
    refine .inr ⟨Nat.lt_of_not_le hle, ?_⟩
    omega

/-! ### Ties -/

/-- Two orders of a batch have the same ties if patches with the same start stand in the same order. -/
def SameTies (patches others : List Patch) : Prop :=
  ∀ start, patches.filter (fun p => p.start = start) = others.filter (fun p => p.start = start)

private theorem mem_iff_of_filter_eq {list list' : List Patch} {key : Patch → Int}
    (hkeys : ∀ k, list.filter (fun p => key p = k) = list'.filter (fun p => key p = k)) (p : Patch) :
    p ∈ list ↔ p ∈ list' := by
  have hkey : p ∈ list.filter (fun q => key q = key p) ↔
      p ∈ list'.filter (fun q => key q = key p) := by rw [hkeys]
  simpa using hkey

/-- Sorted lists are equal if they agree on the elements of each key. -/
private theorem eq_of_filter_eq {list list' : List Patch} {key : Patch → Int}
    (h : list.Pairwise fun a b => key a ≤ key b) (h' : list'.Pairwise fun a b => key a ≤ key b)
    (hkeys : ∀ k, list.filter (fun p => key p = k) = list'.filter (fun p => key p = k)) :
    list = list' := by
  have hmem := mem_iff_of_filter_eq hkeys
  induction list generalizing list' with
  | nil => exact (List.eq_nil_iff_forall_not_mem.2 fun p hp => List.not_mem_nil ((hmem p).2 hp)).symm
  | cons a list ih =>
    cases list' with
    | nil => exact absurd ((hmem a).1 List.mem_cons_self) List.not_mem_nil
    | cons b list' =>
      obtain ⟨hfirst, hrest⟩ := List.pairwise_cons.1 h
      obtain ⟨hfirst', hrest'⟩ := List.pairwise_cons.1 h'
      -- both heads have the least key, and are the first elements of it
      have hsame : key a = key b := by
        apply Int.le_antisymm
        · rcases List.mem_cons.1 ((hmem b).2 List.mem_cons_self) with rfl | hb
          · exact Int.le_refl _
          · exact hfirst b hb
        · rcases List.mem_cons.1 ((hmem a).1 List.mem_cons_self) with rfl | ha
          · exact Int.le_refl _
          · exact hfirst' a ha
      have hhead := hkeys (key a)
      rw [List.filter_cons_of_pos (by simp), List.filter_cons_of_pos (by simp [hsame])] at hhead
      obtain ⟨rfl, -⟩ := List.cons.inj hhead
      have htails (k : Int) : list.filter (fun p => key p = k) = list'.filter (fun p => key p = k) := by
        have hk := hkeys k
        by_cases ha : key a = k
        · rw [List.filter_cons_of_pos (by simpa using ha),
            List.filter_cons_of_pos (by simpa using ha)] at hk
          exact (List.cons.inj hk).2
        · rwa [List.filter_cons_of_neg (by simpa using ha),
            List.filter_cons_of_neg (by simpa using ha)] at hk
      rw [ih hrest hrest' htails (mem_iff_of_filter_eq htails)]

/-- Sorting keeps the order of the patches that start at the same place. -/
private theorem filter_ascending (patches : List Patch) (k : Int) :
    (ascending patches).filter (fun p => p.start.units = k) = patches.filter
    (fun p => p.start.units = k) := by
  have hpairwise : (patches.filter fun p => p.start.units = k).Pairwise
      fun a b => decide (a.start.units ≤ b.start.units) = true := by
    rw [List.pairwise_filter]
    exact List.pairwise_of_forall fun a b ha hb => decide_eq_true (by simp_all)
  have hsub : (patches.filter fun p => p.start.units = k).Sublist (ascending patches) :=
    List.sublist_mergeSort units_trans units_total hpairwise List.filter_sublist
  have hsub' := hsub.filter fun p => decide (p.start.units = k)
  rw [List.filter_filter] at hsub'
  simp only [Bool.and_self] at hsub'
  refine (hsub'.eq_of_length ?_).symm
  exact (((ascending_perm patches).filter _).length_eq).symm

/-- Orders of a batch with the same ties are sorted alike. -/
theorem ascending_eq_of_ties (hinside : ∀ p ∈ patches, LiesIn length p)
    (hinside' : ∀ p ∈ others, LiesIn length p) (hties : SameTies patches others) :
    ascending patches = ascending others := by
  have hstart {p q : Patch} (hp : LiesIn length p) (hq : LiesIn length q) :
      p.start.units = q.start.units ↔ p.start = q.start := by
    refine ⟨fun heq => ?_, fun heq => by rw [heq]⟩
    have hle := (units_le_iff hp hq).1 (Int.le_of_eq heq)
    have hge := (units_le_iff hq hp).1 (Int.le_of_eq heq.symm)
    obtain ⟨n, -, hn, -⟩ := hp
    obtain ⟨m, -, hm, -⟩ := hq
    simp only [hn, hm, Offset.place, Int.toNat_natCast] at hle hge ⊢
    rw [Nat.le_antisymm hle hge]
  have hunits {q : Patch} (hq : LiesIn length q) :
      patches.filter (fun p => p.start.units = q.start.units) = others.filter
        (fun p => p.start.units = q.start.units) := by
    have heq (list : List Patch) (hlist : ∀ p ∈ list, LiesIn length p) :
        list.filter (fun p => p.start.units = q.start.units) =
          list.filter (fun p => p.start = q.start) :=
      List.filter_congr fun p hp => decide_eq_decide.2 (hstart (hlist p hp) hq)
    rw [heq patches hinside, heq others hinside', hties]
  -- sorted lists are equal if they have the same items at each place
  refine eq_of_filter_eq (ascending_sorted patches) (ascending_sorted others) fun k => ?_
  rw [filter_ascending, filter_ascending]
  by_cases hsome : ∃ q ∈ patches ++ others, q.start.units = k
  · obtain ⟨q, hq, rfl⟩ := hsome
    rcases List.mem_append.1 hq with hq | hq
    · exact hunits (hinside q hq)
    · exact hunits (hinside' q hq)
  · have hnone (list : List Patch) (hlist : list ⊆ patches ++ others) :
        list.filter (fun p => p.start.units = k) = [] :=
      List.filter_eq_nil_iff.2 fun p hp hk => hsome ⟨p, hlist hp, of_decide_eq_true hk⟩
    rw [hnone patches (List.subset_append_left _ _), hnone others (List.subset_append_right _ _)]

/-! ### Orders of a batch -/

/-- What the order of a batch decides. -/
structure OrderSettles (path text : Text) (batch : List Patch) : Prop where
  /-- An order is accepted exactly if no insertion stands behind the patch that replaces the range
  at its place. -/
  accepted_iff : ∀ patches, patches.Perm batch →
    ((∃ result, apply path text patches = .ok result) ↔ patches.Pairwise fun a b => ¬ b.InsertsBefore a)
  /-- All orders are accepted exactly if nothing is inserted where a replaced range begins. -/
  all_accepted_iff : (∀ patches, patches.Perm batch → ∃ result, apply path text patches = .ok result) ↔
    ∀ a ∈ batch, ∀ b ∈ batch, ¬ b.InsertsBefore a
  /-- An order that is not accepted is refused for a range. -/
  refused : ∀ patches, patches.Perm batch → (¬ ∃ result, apply path text patches = .ok result) →
    ∃ reason, apply path text patches = .error (.patchRange reason path)
  /-- Orders with the same ties give the same text. -/
  same : ∀ patches others, patches.Perm batch → others.Perm batch → SameTies patches others →
    apply path text patches = apply path text others

private theorem apply_congr {path : Text} (hinside : ∀ p ∈ patches, LiesIn text.length p)
    (hinside' : ∀ p ∈ others, LiesIn text.length p) (hties : SameTies patches others) :
    apply path text patches = apply path text others := by
  have hintegers (list : List Patch) (hlist : ∀ p ∈ list, LiesIn text.length p) :
      backwards list = (ascending list).reverse := by
    refine backwards_eq fun p hp => ?_
    obtain ⟨start, -, hstart, -⟩ := hlist p hp
    exact ⟨start, hstart⟩
  unfold apply
  rw [hintegers patches hinside, hintegers others hinside', ascending_eq_of_ties hinside hinside' hties]

/-- Ranges in a text that do not overlap are accepted in every order that puts insertions in front
of the patch that replaces the range at their place; orders with the same ties give the same text.
-/
theorem apply_order_settles (path : Text) (hinside : ∀ p ∈ batch, LiesIn text.length p)
    (hapart : batch.Pairwise fun a b => ¬ a.Overlaps b) : OrderSettles path text batch := by
  have hsymm {a b : Patch} (hno : ¬ a.Overlaps b) : ¬ b.Overlaps a := by
    rintro (⟨place, hb, ha⟩ | h)
    · exact hno (.inl ⟨place, ha, hb⟩)
    · exact hno (.inr h.symm)
  have hmem {patches : List Patch} (hperm : patches.Perm batch) : ∀ p ∈ patches, LiesIn text.length p :=
    fun p hp => hinside p (hperm.mem_iff.1 hp)
  have haccepted (patches : List Patch) (hperm : patches.Perm batch) :
      (∃ result, apply path text patches = .ok result) ↔ patches.Pairwise fun a b =>
        ¬ b.InsertsBefore a := by
    have hapart : patches.Pairwise fun a b => ¬ a.Overlaps b := (hperm.pairwise_iff hsymm).2 hapart
    have hfits : (∃ result, apply path text patches = .ok result) ↔
        Fits text.length (ascending patches) := by
      constructor
      · rintro ⟨result, hresult⟩
        exact (((apply_eq_splice path text patches).1 result).1 hresult).1
      · intro hfits
        exact ⟨_, ((apply_eq_splice path text patches).1 _).2 ⟨hfits, rfl⟩⟩
    rw [hfits, fits_ascending_iff (hmem hperm)]
    have hpair {a b : Patch} (ha : a ∈ patches) (hb : b ∈ patches) :
        a.LiesApart b ↔ ¬ a.Overlaps b ∧ ¬ b.InsertsBefore a :=
      liesApart_iff (start_le_stop (hmem hperm a ha)) (start_le_stop (hmem hperm b hb))
    constructor
    · exact fun h => h.imp_of_mem fun ha hb hlies => ((hpair ha hb).1 hlies).2
    · exact fun h => (hapart.and h).imp_of_mem fun ha hb hboth => (hpair ha hb).2 hboth
  constructor
  · exact haccepted
  · constructor
    · intro hall a ha b hb hinserts
      have hne : a ≠ b := by
        rintro rfl
        exact absurd hinserts.1 (Nat.ne_of_lt hinserts.2.2)
      -- the order that begins with the two is refused
      obtain ⟨rest, hrest⟩ : ∃ rest, (a :: b :: rest).Perm batch := by
        have hb' : b ∈ batch.erase a := (List.mem_erase_of_ne hne.symm).2 hb
        exact ⟨(batch.erase a).erase b,
          ((List.perm_cons_erase hb').symm.cons a).trans (List.perm_cons_erase ha).symm⟩
      have hpairwise := (haccepted _ hrest).1 (hall _ hrest)
      exact (List.pairwise_cons.1 hpairwise).1 b List.mem_cons_self hinserts
    · intro hnone patches hperm
      refine (haccepted patches hperm).2 (List.pairwise_of_forall_mem_list fun a ha b hb => ?_)
      exact hnone a (hperm.mem_iff.1 ha) b (hperm.mem_iff.1 hb)
  · intro patches hperm hrefused
    refine (apply_eq_splice path text patches).2 fun hfits => hrefused ?_
    exact ⟨_, ((apply_eq_splice path text patches).1 _).2 ⟨hfits, rfl⟩⟩
  · intro patches others hperm hperm' hties
    exact apply_congr (hmem hperm) (hmem hperm') hties

/-- A deletion and an insertion where it begins are taken in one order only. -/
theorem apply_order_settles_digits :
    let text : Text := "0123456789"
    let deletion : Patch := .replacing "a.js" 5 8 []
    let insertion : Patch := .inserting "a.js" 5 "X"
    OrderSettles "a.js" text [deletion, insertion] ∧
      (∀ p ∈ [deletion, insertion], LiesIn text.length p) ∧ ¬ deletion.Overlaps insertion ∧
      insertion.InsertsBefore deletion ∧
      (apply "a.js" text [insertion, deletion]).toOption = some "01234X89" ∧
      (apply "a.js" text [deletion, insertion]).toOption = none := by
  intro text deletion insertion
  have hinside : ∀ p ∈ [deletion, insertion], LiesIn text.length p := by
    intro p hp
    rcases List.mem_pair.1 hp with rfl | rfl
    · exact ⟨5, 8, rfl, rfl, by decide, by decide⟩
    · exact ⟨5, 5, rfl, rfl, by decide, by decide⟩
  have hapart : ¬ deletion.Overlaps insertion := by
    rw [not_overlaps_iff (by decide) (by decide)]
    decide
  have hpairwise : [deletion, insertion].Pairwise fun a b => ¬ a.Overlaps b :=
    List.pairwise_pair.2 hapart
  refine ⟨apply_order_settles "a.js" hinside hpairwise, hinside, hapart, by decide, ?_, ?_⟩
  · decide
  · decide

end Patch

end JsonCompanion
