import Mathlib.Data.List.Basic
import Mathlib.Data.List.Induction
import JsonCompanion.Data.Value

/-!
# Records in order

* `Record.IsOrdered` says that the keys of a record differ and that no key stands behind one that it
  goes before.
* `Record.IsOrdered.insert`: writing a property keeps the order.
* `Record.IsOrdered.insert_end`: a new key that goes before no other one is written at the end, so
  that writing the properties of a record again from left to right gives the same record.
* `Record.Holds` says what is left of properties that are written one after another: the last value
  of each key at the place of the first one.  `Record.holds_iff`: this is one record.
-/

namespace JsonCompanion

namespace Record

/-- The keys differ, and none goes before one in front of it. -/
def IsOrdered (record : Record) : Prop :=
  record.Pairwise fun first second => first.1 ≠ second.1 ∧ goesBefore second.1 first.1 = false

variable {record : Record} {key : Text} {value : Value}

/-- A key behind one that a new key goes before does not go before the new one. -/
private theorem goesBefore_behind {new old later : Text} (hnew : goesBefore new old = true)
    (hold : goesBefore later old = false) : goesBefore later new = false := by
  unfold goesBefore at *
  cases hn : new.arrayIndex? <;> cases hm : old.arrayIndex? <;> cases hk : later.arrayIndex? <;>
    simp only [hn, hm, hk, decide_eq_true_eq, decide_eq_false_iff_not, Bool.false_eq_true,
      Bool.true_eq_false] at *
  omega

private theorem goesBefore_asymm {new old : Text} (h : goesBefore new old = true) :
    goesBefore old new = false := by
  refine goesBefore_behind h ?_
  unfold goesBefore
  cases old.arrayIndex? with
  | none => rfl
  | some m => exact decide_eq_false (Nat.lt_irrefl m)

/-- What holds of a new key and of those of a record holds of the keys with the new one among them. -/
private theorem forall_place {P : Text × Value → Prop} (hnew : P (key, value)) : ∀ {record : Record},
    (∀ entry ∈ record, P entry) → ∀ entry ∈ place key value record, P entry
  | [], _ => by simpa only [place, List.forall_mem_singleton] using hnew
  | (old, content) :: rest, h => by
    rw [List.forall_mem_cons] at h
    unfold place
    split
    · exact List.forall_mem_cons.mpr ⟨hnew, List.forall_mem_cons.mpr h⟩
    · exact List.forall_mem_cons.mpr ⟨h.1, forall_place hnew h.2⟩

theorem IsOrdered.place : ∀ {record : Record}, record.IsOrdered → (∀ entry ∈ record, entry.1 ≠ key) →
    (place key value record).IsOrdered
  | [], _, _ => List.pairwise_singleton _ _
  | (old, content) :: rest, h, hnew => by
    obtain ⟨hfirst, hrest⟩ := List.pairwise_cons.mp h
    rw [List.forall_mem_cons] at hnew
    unfold Record.place
    cases hbefore : goesBefore key old with
    | true =>
      simp only [if_true]
      refine List.pairwise_cons.mpr
        ⟨List.forall_mem_cons.mpr ⟨⟨hnew.1.symm, goesBefore_asymm hbefore⟩, ?_⟩, h⟩
      exact fun entry hmem => ⟨(hnew.2 entry hmem).symm, goesBefore_behind hbefore (hfirst entry hmem).2⟩
    | false =>
      simp only [Bool.false_eq_true, if_false]
      refine List.pairwise_cons.mpr ⟨forall_place ⟨hnew.1, hbefore⟩ hfirst, ?_⟩
      exact IsOrdered.place hrest hnew.2

/-- An order of keys does not depend on the values. -/
private theorem IsOrdered.map {f : Text × Value → Text × Value} (hf : ∀ entry, (f entry).1 = entry.1)
    (h : record.IsOrdered) : IsOrdered (List.map f record) := by
  refine List.pairwise_map.mpr (List.Pairwise.imp (fun {first second} hpair => ?_) h)
  rwa [hf, hf]

theorem IsOrdered.insert (h : record.IsOrdered) (key : Text) (value : Value) :
    (record.insert key value).IsOrdered := by
  unfold Record.insert
  split
  · exact h.map fun entry => by dsimp only; split <;> rfl
  · next hany =>
    exact h.place fun entry hmem heq => hany (List.any_eq_true.mpr ⟨entry, hmem, beq_iff_eq.mpr heq⟩)

private theorem place_end : ∀ {record : Record}, (∀ entry ∈ record, goesBefore key entry.1 = false) →
    place key value record = record ++ [(key, value)]
  | [], _ => rfl
  | (old, content) :: rest, h => by
    rw [List.forall_mem_cons] at h
    rw [place, h.1, if_neg Bool.false_ne_true, place_end h.2, List.cons_append]

/-- The last property of an ordered record is written at its end. -/
theorem IsOrdered.insert_end (h : IsOrdered (record ++ [(key, value)])) :
    record.insert key value = record ++ [(key, value)] := by
  have hlast := (List.pairwise_append.mp h).2.2
  unfold Record.insert
  split
  · next hany =>
    obtain ⟨entry, hmem, heq⟩ := List.any_eq_true.mp hany
    exact absurd (eq_of_beq heq) (hlast entry hmem _ (List.mem_singleton_self _)).1
  · exact place_end fun entry hmem => (hlast entry hmem _ (List.mem_singleton_self _)).2

/-- What holds of a new property and of those of a record holds of the properties with the new one
among them. -/
theorem forall_insert {P : Value → Prop} (hvalue : P value) (h : ∀ entry ∈ record, P entry.2)
    (key : Text) :
    ∀ entry ∈ record.insert key value, P entry.2 := by
  unfold Record.insert
  split
  · intro entry hmem
    obtain ⟨old, hold, rfl⟩ := List.mem_map.mp hmem
    dsimp only
    split
    · exact hvalue
    · exact h old hold
  · exact forall_place hvalue h

/-! ### Look-ups -/

theorem find?_cons {known : Text} :
    find? ((known, value) :: record) key = if known = key then some value else find? record key := by
  by_cases h : known = key <;> simp [find?, h]

theorem mem_keys_iff : key ∈ record.keys ↔ (record.find? key).isSome = true := by
  unfold keys find?
  simp

@[simp]
theorem get_nil : get [] key = .undefined := rfl

theorem get_cons {known : Text} :
    get ((known, value) :: record) key = if known = key then value else get record key := by
  unfold get
  rw [find?_cons]
  split <;> rfl

theorem get_of_not_mem (h : key ∉ record.keys) : get record key = .undefined := by
  unfold get
  rw [Option.not_isSome_iff_eq_none.1 (mt mem_keys_iff.2 h)]
  rfl

private theorem find?_write {other : Text} :
    find? (List.map (fun (old, content) => if old == key then (old, value) else (old, content))
      record) other =
      (find? record other).map fun content => if key = other then value else content := by
  induction record with
  | nil => rfl
  | cons entry record ih =>
    obtain ⟨old, content⟩ := entry
    rw [List.map_cons, find?_cons]
    by_cases hkey : old = key
    · subst hkey
      rw [if_pos (beq_self_eq_true old), find?_cons, ih]
      by_cases hother : old = other
      · rw [if_pos hother, if_pos hother, Option.map_some, if_pos hother]
      · rw [if_neg hother, if_neg hother]
    · rw [if_neg (mt beq_iff_eq.1 hkey), find?_cons, ih]
      by_cases hother : old = other
      · rw [if_pos hother, if_pos hother, Option.map_some, if_neg fun heq =>
          hkey (hother.trans heq.symm)]
      · rw [if_neg hother, if_neg hother]

private theorem find?_place {other : Text} (hnew : key ∉ record.keys) :
    find? (place key value record) other = if key = other then some value else find? record other := by
  induction record with
  | nil => exact find?_cons
  | cons entry record ih =>
    obtain ⟨old, content⟩ := entry
    obtain ⟨hold, hrest⟩ := not_or.1 (mt List.mem_cons.2 hnew)
    unfold place
    split
    · exact find?_cons
    · rw [find?_cons, find?_cons, ih hrest]
      by_cases hkey : key = other
      · rw [if_pos hkey, if_neg fun heq => hold (hkey.trans heq.symm)]
        exact (if_pos hkey).symm
      · rw [if_neg hkey, if_neg hkey]

private theorem any_key_iff : (record.any fun (old, _) => old == key) = true ↔ key ∈ record.keys := by
  unfold keys
  simp

/-- A written property has its value, and all others keep theirs. -/
theorem find?_insert (record : Record) (key other : Text) (value : Value) :
    (record.insert key value).find? other = if key = other then some value else record.find? other := by
  unfold insert
  split
  · next hany =>
    obtain ⟨content, hcontent⟩ := Option.isSome_iff_exists.1 (mem_keys_iff.1 (any_key_iff.1 hany))
    rw [find?_write]
    by_cases hkey : key = other
    · rw [if_pos hkey, ← hkey, hcontent, Option.map_some, if_pos rfl]
    · rw [if_neg hkey]
      cases record.find? other with
      | none => rfl
      | some content => rw [Option.map_some, if_neg hkey]
  · next hany => exact find?_place (mt any_key_iff.2 hany)

/-! ### Properties written one after another -/

/-- A record holds the last one of the values that are written for each key.  Keys that are no
indices stand in the order in which they were first written. -/
structure Holds (record : Record) (written : List (Text × Value)) : Prop where
  isOrdered : record.IsOrdered
  find?_eq : ∀ key, record.find? key = find? written.reverse key
  inOrder : record.keys.Pairwise fun first second => first.arrayIndex? = none →
    second.arrayIndex? = none →
    (keys written).idxOf first < (keys written).idxOf second

private theorem keys_write :
    keys (List.map (fun (old, content) => if old == key then (old, value) else (old, content))
      record) = record.keys := by
  unfold keys
  rw [List.map_map]
  refine List.map_congr_left fun entry _ => ?_
  obtain ⟨old, content⟩ := entry
  dsimp only [Function.comp_apply]
  split <;> rfl

/-- What holds of pairs of keys, and of the new one with each of them, holds with the new one among
them. -/
private theorem pairwise_place {R : Text → Text → Prop}
    (hnew : ∀ old ∈ record.keys, R key old ∧ R old key) (h : record.keys.Pairwise R) :
    (keys (place key value record)).Pairwise R := by
  induction record with
  | nil => exact List.pairwise_singleton R key
  | cons entry record ih =>
    obtain ⟨old, content⟩ := entry
    obtain ⟨hold, hrest⟩ := List.forall_mem_cons.1 hnew
    obtain ⟨hfirst, hbehind⟩ := List.pairwise_cons.1 h
    unfold place
    split
    · exact List.pairwise_cons.2 ⟨fun known hknown => (hnew known hknown).1, h⟩
    · refine List.pairwise_cons.2 ⟨?_, ih hrest hbehind⟩
      have hall : ∀ entry ∈ place key value record, R old entry.1 :=
        forall_place (P := fun entry => R old entry.1) hold.2 fun entry hmem =>
          hfirst entry.1 (List.mem_map_of_mem hmem)
      exact List.forall_mem_map.2 hall

private theorem Holds.mem_keys_iff {written : List (Text × Value)} (h : record.Holds written) :
    key ∈ record.keys ↔ key ∈ keys written := by
  rw [Record.mem_keys_iff, h.find?_eq, ← Record.mem_keys_iff, keys, List.map_reverse, List.mem_reverse]
  rfl

/-- Writing one more property. -/
private theorem Holds.insert {written : List (Text × Value)} (h : record.Holds written) (key : Text)
    (value : Value) :
    (record.insert key value).Holds (written ++ [(key, value)]) := by
  have hkeys : keys (written ++ [(key, value)]) = keys written ++ [key] := List.map_append
  have hplace {old : Text} (hold : old ∈ record.keys) :
      (keys written ++ [key]).idxOf old = (keys written).idxOf old :=
    List.idxOf_append_of_mem (h.mem_keys_iff.1 hold)
  have hbefore : record.keys.Pairwise fun first second => first.arrayIndex? = none →
      second.arrayIndex? = none →
      (keys written ++ [key]).idxOf first < (keys written ++ [key]).idxOf second := by
    refine h.inOrder.imp_of_mem fun hfirst hsecond himp => ?_
    rwa [hplace hfirst, hplace hsecond]
  refine ⟨h.isOrdered.insert key value, fun other => ?_, ?_⟩
  · rw [find?_insert, h.find?_eq, List.reverse_append, List.reverse_singleton,
      List.singleton_append, find?_cons]
  · rw [hkeys]
    unfold Record.insert
    split
    · rwa [keys_write]
    · next hany =>
      have hnew : key ∉ keys written := fun hmem => hany (any_key_iff.2 (h.mem_keys_iff.2 hmem))
      have hlast : (keys written ++ [key]).idxOf key = (keys written).length := by
        rw [List.idxOf_append_of_notMem hnew, List.idxOf_cons_self, Nat.add_zero]
      -- a new index belongs to no pair that has to be in order, any other new key is written at the end
      cases hindex : key.arrayIndex? with
      | some n =>
        refine pairwise_place (fun old _ => ⟨fun hno => ?_, fun _ hno => ?_⟩) hbefore
        · cases hindex.symm.trans hno
        · cases hindex.symm.trans hno
      | none =>
        have hend : ∀ entry ∈ record, goesBefore key entry.1 = false := by
          intro entry _
          unfold goesBefore
          rw [hindex]
        have hkeysEnd : keys (record ++ [(key, value)]) = record.keys ++ [key] := List.map_append
        rw [place_end hend, hkeysEnd]
        refine List.pairwise_append.2
          ⟨hbefore, List.pairwise_singleton _ _, fun old hold new hmem _ _ => ?_⟩
        obtain rfl : new = key := List.mem_singleton.1 hmem
        rw [hlast, hplace hold]
        exact List.idxOf_lt_length_of_mem (h.mem_keys_iff.1 hold)

/-- Properties that are written one after another. -/
theorem holds_ofList (written : List (Text × Value)) : (ofList written).Holds written := by
  induction written using List.reverseRecOn with
  | nil => exact ⟨List.Pairwise.nil, fun _ => rfl, List.Pairwise.nil⟩
  | append_singleton written property ih =>
    unfold ofList
    rw [List.foldl_append]
    exact ih.insert property.1 property.2

private theorem arrayIndex?_inj {first second : Text} {n : Nat} (hfirst : first.arrayIndex? = some n)
    (hsecond : second.arrayIndex? = some n) : first = second := by
  have htext : ∀ t : Text, t.arrayIndex? = some n → Text.ofNat n = t := by
    intro t ht
    unfold Text.arrayIndex? at ht
    split at ht
    · split at ht
      · next hcondition =>
        obtain rfl := Option.some.inj ht
        exact eq_of_beq (Bool.and_eq_true_iff.1 hcondition).2
      · cases ht
    · cases ht
  rw [← htext first hfirst, htext second hsecond]

/-- Of two keys, not both can stand in front of the other one. -/
private theorem not_inFront {names : List Text} {first second : Text} (hne : first ≠ second)
    (hsecond : goesBefore second first = false) (hfirst : goesBefore first second = false)
    (horder : first.arrayIndex? = none → second.arrayIndex? = none →
      names.idxOf first < names.idxOf second)
    (horder' : second.arrayIndex? = none → first.arrayIndex? = none →
      names.idxOf second < names.idxOf first) : False := by
  unfold goesBefore at hfirst hsecond
  cases hn : first.arrayIndex? with
  | none =>
    cases hm : second.arrayIndex? with
    | none => exact absurd (horder hn hm) (Nat.lt_asymm (horder' hm hn))
    | some m => simp [hn, hm] at hsecond
  | some n =>
    cases hm : second.arrayIndex? with
    | none => simp [hn, hm] at hfirst
    | some m =>
      simp only [hn, hm, decide_eq_false_iff_not, Nat.not_lt] at hfirst hsecond
      obtain rfl := Nat.le_antisymm hsecond hfirst
      exact hne (arrayIndex?_inj hn hm)

private theorem mem_iff_find? (h : record.IsOrdered) :
    (key, value) ∈ record ↔ record.find? key = some value := by
  induction record with
  | nil => simp [find?]
  | cons entry record ih =>
    obtain ⟨known, content⟩ := entry
    obtain ⟨hfirst, hrest⟩ := List.pairwise_cons.1 h
    rw [List.mem_cons, find?_cons, ih hrest, Prod.mk.injEq]
    by_cases hkey : known = key
    · subst hkey
      have hno : find? record known ≠ some value := fun hfound => (hfirst _ ((ih hrest).2 hfound)).1 rfl
      rw [if_pos rfl, Option.some.injEq]
      exact ⟨fun h => (h.resolve_right hno).2.symm, fun h => .inl ⟨rfl, h.symm⟩⟩
    · rw [if_neg hkey]
      exact ⟨fun h => h.resolve_left fun hsame => hkey hsame.1.symm, .inr⟩

/-- There is one record that holds what is written. -/
theorem holds_iff {written : List (Text × Value)} : record.Holds written ↔ record = ofList written := by
  constructor
  · intro h
    have h' := holds_ofList written
    have hnodup {record : Record} (hordered : record.IsOrdered) : record.Nodup :=
      hordered.imp fun hpair heq => hpair.1 (congrArg Prod.fst heq)
    have hperm : record.Perm (ofList written) := by
      refine (List.perm_ext_iff_of_nodup (hnodup h.isOrdered) (hnodup h'.isOrdered)).2
        fun ⟨key, value⟩ => ?_
      rw [mem_iff_find? h.isOrdered, mem_iff_find? h'.isOrdered, h.find?_eq, h'.find?_eq]
    -- both have the same properties, and no two properties can stand in either order
    have hbefore {record : Record} (h : record.Holds written) :=
      h.isOrdered.and (List.pairwise_map.1 h.inOrder)
    refine hperm.eq_of_pairwise (fun first second _ _ hsecond hfirst => ?_) (hbefore h) (hbefore h')
    obtain ⟨⟨hne, hgoes⟩, horder⟩ := hsecond
    obtain ⟨⟨-, hgoes'⟩, horder'⟩ := hfirst
    exact absurd (not_inFront hne hgoes hgoes' horder horder') id
  · rintro rfl
    exact holds_ofList written

end Record

end JsonCompanion
