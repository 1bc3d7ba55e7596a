import Mathlib.Data.List.Chain
import Mathlib.Data.List.Induction
import JsonCompanion.Patch.Basic

/-!
# Patching is splicing

`Patch.apply` goes through a batch from the back to the front and checks each range against a text
that has changed already.  `splice` is the reference: it reads the original text once from the
front, with the patches in ascending order, those of one start in the order of the batch.

* `applyInOrder_eq` is the loop: in front of the start of the last range that was replaced the text
  is the original one, so a range is refused exactly if it ends behind that start.
* `backwards_eq` says that the batch is taken in the reverse of the ascending order.
* `apply_eq_splice`: the batch is accepted exactly if its ranges fit the original text, and the
  result is the splice.
* `exists_apply`: a batch of ranges that lie pairwise apart is accepted.
-/

namespace JsonCompanion

/-- The exact value of an offset in units of the least number; what is not finite counts as zero. -/
def Offset.units : Offset → Int
  | .at n => n * twoTo 1074
  | .nowhere n => n.units?.getD 0

/-- The place in a text that an offset stands for. -/
def Offset.place : Offset → Nat
  | .at n => n.toNat
  | .nowhere _ => 0

namespace Patch

/-- The patches by ascending start, those of one start in the order of the batch. -/
def ascending (patches : List Patch) : List Patch :=
  patches.mergeSort fun a b => decide (a.start.units ≤ b.start.units)

/-- The range of a patch is one of integers, in a text of a length. -/
def LiesIn (length : Nat) (patch : Patch) : Prop :=
  ∃ start stop : Nat, patch.start = .at start ∧ patch.stop = .at stop ∧ start ≤ stop ∧ stop ≤ length

/-- The ranges lie in a text of a length, and each one ends where the next one starts, or before. -/
structure Fits (length : Nat) (patches : List Patch) : Prop where
  inside : ∀ patch ∈ patches, LiesIn length patch
  apart : patches.IsChain fun a b => a.stop.place ≤ b.start.place

/-- What patches make of the part of a text from one place up to another. -/
def splicedPart (text : Text) : (start : Nat) → List Patch → (stop : Nat) → Text
  | start, [], stop => text.slice start stop
  | start, patch :: patches, stop =>
    text.slice start patch.start.place ++ patch.replacement ++
      splicedPart text patch.stop.place patches stop

/-- What patches make of a text. -/
def splice (text : Text) (patches : List Patch) : Text := splicedPart text 0 patches text.length

/-! ### Ranges -/

theorem bounds?_eq_some_iff {patch : Patch} {start stop : Nat} :
    patch.bounds? = some (start, stop) ↔
      patch.start = .at start ∧ patch.stop = .at stop ∧ start ≤ stop := by
  obtain ⟨path, first, last, replacement⟩ := patch
  unfold bounds?
  rcases first with (n | n) | n <;> rcases last with (m | m) | m <;> simp
  constructor
  · rintro ⟨h, rfl, rfl⟩
    exact ⟨rfl, rfl, h⟩
  · rintro ⟨h, h', hle⟩
    exact ⟨by omega, by omega, by omega⟩

/-- A range is accepted exactly if it ends in front of the range that was replaced before, and in
the text. -/
theorem complaint?_eq_none_iff {patch : Patch} {path : Text} {length stop : Nat}
    {previous : Option Nat} :
    patch.complaint? path length stop previous = none ↔ stop ≤ length ∧ ∀ start ∈ previous,
      stop ≤ start := by
  unfold complaint?
  by_cases h : length < stop
  · simp [h]
  · rcases previous with _ | start
    · simp [h]; omega
    · by_cases h' : start < stop
      · simp [h, h']
      · simp [h, h']
        omega

/-- A patch starts at an integer. -/
private def StartsAtInteger (patch : Patch) : Prop := ∃ n, patch.start = .at n

/-! ### The loop -/

/-- The patches, taken from the back to the front, lie one before the other in front of a place. -/
private def FitsBackwards : Nat → List Patch → Prop
  | _, [] => True
  | place, patch :: patches => LiesIn place patch ∧ FitsBackwards patch.start.place patches

/-- The text behind a place, as patches that are taken from the back to the front leave it. -/
private def rewritten (text : Text) : (place : Nat) → (behind : Text) → List Patch → Text
  | place, behind, [] => text.take place ++ behind
  | place, behind, patch :: patches =>
    rewritten text patch.start.place
      (patch.replacement ++ text.slice patch.stop.place place ++ behind) patches

/-- What is known of the text and of the last start while patches are applied: in front of that
start, or of the end if there is none, the text is the original one. -/
private structure Untouched (text current : Text) (previous : Option Nat) (place : Nat) (behind : Text) :
    Prop where
  current_eq : current = text.take place ++ behind
  place_le : place ≤ text.length
  previous_eq : previous = some place ∨ previous = none ∧ place = text.length ∧ behind = []

private theorem Untouched.complaint?_eq_none_iff {text current : Text} {previous : Option Nat}
    {place : Nat} {behind : Text} (h : Untouched text current previous place behind) {patch : Patch}
    {path : Text} {stop : Nat} :
    patch.complaint? path current.length stop previous = none ↔ stop ≤ place := by
  rw [Patch.complaint?_eq_none_iff]
  have hle := h.place_le
  have hlength : current.length = place + behind.length := by
    rw [h.current_eq, List.length_append, List.length_take]
    omega
  rcases h.previous_eq with rfl | ⟨rfl, rfl, rfl⟩
  · simp; omega
  · simp_all

/-- Replacing a range in front of the place keeps what is known. -/
private theorem Untouched.replace {text current : Text} {previous : Option Nat} {place : Nat}
    {behind : Text} (h : Untouched text current previous place behind) {start stop : Nat}
    (hstart : start ≤ stop) (hstop : stop ≤ place) (replacement : Text) :
    Untouched text (current.take start ++ replacement ++ current.drop stop) (some start) start
      (replacement ++ text.slice stop place ++ behind) := by
  have hle := h.place_le
  refine ⟨?_, by omega, .inl rfl⟩
  have htake : current.take start = text.take start := by
    rw [h.current_eq, List.take_append_of_le_length (by simp; omega), List.take_take]
    congr 1
    omega
  have hdrop : current.drop stop = text.slice stop place ++ behind := by
    rw [h.current_eq, List.drop_append_of_le_length (by simp; omega), List.drop_take, Text.slice]
  rw [htake, hdrop]
  simp [List.append_assoc]

/-- The loop accepts the patches exactly if they fit, and it leaves the rewritten text. -/
private theorem applyInOrder_eq {text : Text} (path : Text) (patches : List Patch) :
    ∀ {current : Text} {previous : Option Nat} {place : Nat} {behind : Text},
      Untouched text current previous place behind →
        (FitsBackwards place patches →
          applyInOrder path previous current patches = .ok (rewritten text place behind patches)) ∧
        (¬ FitsBackwards place patches →
          ∃ reason, applyInOrder path previous current patches = .error (.patchRange reason path)) := by
  induction patches with
  | nil =>
    intro current previous place behind h
    simp [FitsBackwards, applyInOrder, rewritten, h.current_eq]
  | cons patch patches ih =>
    intro current previous place behind h
    rcases hbounds : patch.bounds? with _ | ⟨start, stop⟩
    · -- a patch without bounds is refused, and it lies nowhere
      have hno : ¬ LiesIn place patch := by
        rintro ⟨start, stop, hstart, hstop, hle, -⟩
        rw [bounds?_eq_some_iff.2 ⟨hstart, hstop, hle⟩] at hbounds
        cases hbounds
      simp [FitsBackwards, applyInOrder, hbounds, hno, refusal]
    · obtain ⟨hstart, hstop, hle⟩ := bounds?_eq_some_iff.1 hbounds
      have hlies : LiesIn place patch ↔ stop ≤ place := by
        refine ⟨?_, fun hplace => ⟨start, stop, hstart, hstop, hle, hplace⟩⟩
        rintro ⟨first, last, -, hlast, -, hplace⟩
        obtain rfl : stop = last := Int.ofNat_inj.1 (Offset.at.inj (hstop.symm.trans hlast))
        exact hplace
      rcases hcomplaint : patch.complaint? path current.length stop previous with _ | reason
      · have hplace := h.complaint?_eq_none_iff.1 hcomplaint
        -- the text in front of a spliced patch is as it was
        have hnext := ih (h.replace hle hplace patch.replacement)
        simpa [FitsBackwards, applyInOrder, rewritten, hbounds, hcomplaint, hlies, hplace, hstart, hstop,
          Offset.place] using hnext
      · have hno : ¬ stop ≤ place := fun hplace => by
          rw [h.complaint?_eq_none_iff.2 hplace] at hcomplaint
          cases hcomplaint
        simp [FitsBackwards, applyInOrder, hbounds, hcomplaint, hlies, hno, refusal]

private theorem startsAtInteger_of_fitsBackwards {place : Nat} {patches : List Patch}
    (h : FitsBackwards place patches) {patch : Patch} (hpatch : patch ∈ patches) :
    StartsAtInteger patch := by
  induction patches generalizing place with
  | nil => simp at hpatch
  | cons p patches ih =>
    rcases List.mem_cons.1 hpatch with rfl | hpatch
    · obtain ⟨start, -, hstart, -⟩ := h.1
      exact ⟨start, hstart⟩
    · exact ih h.2 hpatch

/-! ### The order -/

/-- A patch does not start before another one. -/
private def notBefore (patch other : Patch) : Bool := decide (patch.start.units ≤ other.start.units)

private theorem below_eq {a b : Patch} (ha : StartsAtInteger a) (hb : StartsAtInteger b) :
    a.start.below b.start = !notBefore b a := by
  obtain ⟨n, hn⟩ := ha
  obtain ⟨m, hm⟩ := hb
  have hpos : (0 : Int) < (twoTo 1074 : Nat) := Int.natCast_pos.2 (twoTo_pos 1074)
  simp only [hn, hm, notBefore, Offset.below, Offset.units, Int.mul_le_mul_right hpos]
  by_cases h : n < m
  · simp [h]
  · simp [h]; omega

/-- In the ascending order the first patch of a batch stands behind those that start before it. -/
private theorem ascending_cons (patch : Patch) (patches : List Patch) :
    ascending (patch :: patches) =
      (ascending patches).filter (fun p => !notBefore patch p) ++
        patch :: (ascending patches).filter (notBefore patch) := by
  have trans : ∀ a b c : Patch, notBefore a b → notBefore b c → notBefore a c := by
    simp only [notBefore, decide_eq_true_eq]
    omega
  have total : ∀ a b : Patch, (notBefore a b || notBefore b a) = true := by
    simp only [notBefore, Bool.or_eq_true, decide_eq_true_eq]
    omega
  obtain ⟨before, behind, hcons, hrest, hbefore⟩ := List.mergeSort_cons trans total patch patches
  have hsorted := List.pairwise_mergeSort trans total (patch :: patches)
  rw [hcons] at hsorted
  have hbehind : ∀ p ∈ behind, notBefore patch p = true :=
    (List.pairwise_cons.1 (List.pairwise_append.1 hsorted).2.1).1
  have hnone : before.filter (notBefore patch) = [] :=
    List.filter_eq_nil_iff.2 fun p hp => by simpa using hbefore p hp
  have hnone' : behind.filter (fun p => !notBefore patch p) = [] :=
    List.filter_eq_nil_iff.2 fun p hp => by simpa using hbehind p hp
  show (patch :: patches).mergeSort notBefore = _
  rw [hcons, show ascending patches = before ++ behind from hrest, List.filter_append,
    List.filter_append, hnone, hnone', List.filter_eq_self.2 hbefore, List.filter_eq_self.2 hbehind]
  simp

private theorem mem_place {later p : Patch} {patches : List Patch} :
    p ∈ place later patches ↔ p = later ∨ p ∈ patches := by
  induction patches with
  | nil => simp [place]
  | cons q patches ih =>
    unfold place
    split
    · simp only [List.mem_cons, ih]
      exact or_left_comm
    · simp

theorem mem_backwards {p : Patch} {patches : List Patch} : p ∈ backwards patches ↔ p ∈ patches := by
  suffices h : ∀ list, p ∈ patches.foldl (fun list patch => place patch list) list ↔ p ∈ list ∨
      p ∈ patches by
    simpa [backwards] using h []
  induction patches with
  | nil => simp
  | cons q patches ih =>
    intro list
    simp only [List.foldl_cons, ih, mem_place, List.mem_cons]
    grind

/-- A patch goes behind all those that start behind it. -/
private theorem place_append {later : Patch} {front : List Patch} (back : List Patch)
    (hfront : ∀ p ∈ front, later.start.below p.start = true) :
    place later (front ++ back) = front ++ place later back := by
  induction front with
  | nil => rfl
  | cons p front ih =>
    have hp : later.start.below p.start = true := hfront p (by simp)
    simp [place, hp, ih fun q hq => hfront q (by simp [hq])]

/-- A patch goes in front of the first one that does not start behind it. -/
private theorem place_append_of_mem {later : Patch} {front : List Patch} (back : List Patch)
    (hfront : ∃ p ∈ front, later.start.below p.start = false) :
    place later (front ++ back) = place later front ++ back := by
  induction front with
  | nil => simp at hfront
  | cons p front ih =>
    by_cases hp : later.start.below p.start = true
    · have hrest : ∃ q ∈ front, later.start.below q.start = false := by
        obtain ⟨q, hq, hlater⟩ := hfront
        rcases List.mem_cons.1 hq with rfl | hq
        · simp [hp] at hlater
        · exact ⟨q, hq, hlater⟩
      simp [place, hp, ih hrest]
    · simp [place, hp]

/-- A patch that stands between those that start before it and the others stays there while further
patches are placed, and these go where they would go without it. -/
private theorem foldl_place {patch : Patch} {patches : List Patch} (hpatch : StartsAtInteger patch)
    (hpatches : ∀ p ∈ patches, StartsAtInteger p) :
    ∀ front back : List Patch, (∀ p ∈ front, StartsAtInteger p ∧ notBefore patch p = true) →
      (∀ p ∈ back, StartsAtInteger p ∧ notBefore patch p = false) →
      patches.foldl (fun list patch => place patch list) (front ++ patch :: back) =
        (patches.foldl (fun list patch => place patch list) (front ++ back)).filter (notBefore patch) ++
          patch :: (patches.foldl (fun list patch => place patch list) (front ++ back)).filter
            (fun p => !notBefore patch p) := by
  induction patches with
  | nil =>
    intro front back hfront hback
    have h₁ : front.filter (notBefore patch) = front := List.filter_eq_self.2 fun p hp => (hfront p hp).2
    have h₂ : back.filter (notBefore patch) = [] :=
      List.filter_eq_nil_iff.2 fun p hp => by simp [(hback p hp).2]
    have h₃ : front.filter (fun p => !notBefore patch p) = [] :=
      List.filter_eq_nil_iff.2 fun p hp => by simp [(hfront p hp).2]
    have h₄ : back.filter (fun p => !notBefore patch p) = back :=
      List.filter_eq_self.2 fun p hp => by simp [(hback p hp).2]
    simp [h₁, h₂, h₃, h₄]
  | cons later patches ih =>
    intro front back hfront hback
    have hlater : StartsAtInteger later := hpatches later (by simp)
    have hrest : ∀ p ∈ patches, StartsAtInteger p := fun p hp => hpatches p (by simp [hp])
    simp only [List.foldl_cons]
    by_cases hsome : ∃ p ∈ front, later.start.below p.start = false
    · -- the new patch goes among those in front
      rw [place_append_of_mem _ hsome, place_append_of_mem _ hsome]
      refine ih hrest _ _ (fun p hp => ?_) hback
      rcases mem_place.1 hp with rfl | hp
      · obtain ⟨q, hq, hbelow⟩ := hsome
        rw [below_eq hlater (hfront q hq).1] at hbelow
        have := (hfront q hq).2
        simp only [notBefore, Bool.not_eq_false', decide_eq_true_eq] at this hbelow ⊢
        exact ⟨hlater, by omega⟩
      · exact hfront p hp
    · simp only [not_exists, not_and, Bool.not_eq_false] at hsome
      rw [place_append _ hsome, place_append _ hsome]
      by_cases hbefore : notBefore patch later = true
      · -- the new patch goes directly in front of the given one
        have hplace : place later (patch :: back) = later :: patch :: back := by
          simp [place, below_eq hlater hpatch, hbefore]
        have hplace' : place later back = later :: back := by
          cases back with
          | nil => rfl
          | cons q back =>
            have hq := hback q (by simp)
            have hle : notBefore q later = true := by
              simp only [notBefore, decide_eq_true_eq, decide_eq_false_iff_not] at hq hbefore ⊢
              omega
            simp [place, below_eq hlater hq.1, hle]
        rw [hplace, hplace']
        have hnext := ih hrest (front ++ [later]) back
          (fun p hp => by
            rcases List.mem_append.1 hp with hp | hp
            · exact hfront p hp
            · obtain rfl := List.mem_singleton.1 hp
              exact ⟨hlater, hbefore⟩) hback
        simpa using hnext
      · -- the new patch goes behind the given one
        have hplace : place later (patch :: back) = patch :: place later back := by
          simp [place, below_eq hlater hpatch, hbefore]
        rw [hplace]
        refine ih hrest front _ hfront fun p hp => ?_
        rcases mem_place.1 hp with rfl | hp
        · exact ⟨hlater, by simpa using hbefore⟩
        · exact hback p hp

/-- A batch is taken in the reverse of the ascending order. -/
theorem backwards_eq {patches : List Patch} (h : ∀ p ∈ patches, StartsAtInteger p) :
    backwards patches = (ascending patches).reverse := by
  induction patches with
  | nil => simp [backwards, ascending]
  | cons patch patches ih =>
    have hrest : ∀ p ∈ patches, StartsAtInteger p := fun p hp => h p (by simp [hp])
    have hfold := foldl_place (h patch (by simp)) hrest [] [] (by simp) (by simp)
    have ih' : patches.foldl (fun list patch => place patch list) [] =
        (ascending patches).reverse := ih hrest
    simp only [List.nil_append] at hfold
    rw [backwards, List.foldl_cons, place, hfold, ih', ascending_cons]
    simp [List.filter_reverse]

theorem mem_ascending {p : Patch} {patches : List Patch} : p ∈ ascending patches ↔ p ∈ patches :=
  List.mem_mergeSort

/-! ### The batch -/

private theorem fits_append {length : Nat} {patches : List Patch} {patch : Patch} :
    Fits length (patches ++ [patch]) ↔ LiesIn length patch ∧ Fits patch.start.place patches := by
  constructor
  · rintro ⟨hinside, hapart⟩
    refine ⟨hinside patch (by simp), ?_, (List.isChain_append.1 hapart).1⟩
    -- a range ends in front of the next one, and so in front of the last one
    induction patches with
    | nil => simp
    | cons p patches ih =>
      rw [List.cons_append] at hapart hinside
      have hrest := ih (fun q hq => hinside q (by simp [hq])) hapart.tail
      obtain ⟨start, stop, hstart, hstop, hle, -⟩ := hinside p (by simp)
      intro q hq
      rcases List.mem_cons.1 hq with rfl | hq
      · refine ⟨start, stop, hstart, hstop, hle, ?_⟩
        rcases patches with _ | ⟨next, patches⟩
        · simpa [hstop, Offset.place] using hapart.rel
        · obtain ⟨first, last, hfirst, hlast, hle', hlast'⟩ := hrest next (by simp)
          have hnext : q.stop.place ≤ next.start.place := hapart.rel
          simp only [hstop, hfirst, Offset.place, Int.toNat_natCast] at hnext
          omega
      · exact hrest q hq
  · rintro ⟨⟨start, stop, hstart, hstop, hle, hlength⟩, hinside, hapart⟩
    have hends : ∀ p ∈ patches, LiesIn start p := by simpa [hstart, Offset.place] using hinside
    refine ⟨fun p hp => ?_, ?_⟩
    · rcases List.mem_append.1 hp with hp | hp
      · obtain ⟨first, last, hfirst, hlast, hle', hlast'⟩ := hends p hp
        exact ⟨first, last, hfirst, hlast, hle', by omega⟩
      · obtain rfl := List.mem_singleton.1 hp
        exact ⟨start, stop, hstart, hstop, hle, hlength⟩
    · refine List.isChain_append.2 ⟨hapart, by simp, fun p hp q hq => ?_⟩
      obtain rfl : patch = q := by simpa using hq
      obtain ⟨first, last, -, hlast, -, hlast'⟩ := hends p (List.mem_of_getLast? hp)
      simpa [hlast, hstart, Offset.place] using hlast'

private theorem fitsBackwards_reverse {place : Nat} {patches : List Patch} :
    FitsBackwards place patches.reverse ↔ Fits place patches := by
  induction patches using List.reverseRecOn generalizing place with
  | nil => exact ⟨fun _ => ⟨by simp, by simp⟩, fun _ => trivial⟩
  | append_singleton patches patch ih =>
    rw [List.reverse_append, fits_append, ← ih]
    rfl

private theorem splicedPart_append {text : Text} {patches : List Patch} {patch : Patch}
    {start stop : Nat} :
    splicedPart text start (patches ++ [patch]) stop =
      splicedPart text start patches patch.start.place ++ patch.replacement ++
        text.slice patch.stop.place stop := by
  induction patches generalizing start with
  | nil => rfl
  | cons p patches ih => simp [splicedPart, ih, List.append_assoc]

private theorem rewritten_reverse {text behind : Text} {place : Nat} {patches : List Patch} :
    rewritten text place behind patches.reverse = splicedPart text 0 patches place ++ behind := by
  induction patches using List.reverseRecOn generalizing place behind with
  | nil => simp [rewritten, splicedPart, Text.slice]
  | append_singleton patches patch ih =>
    rw [List.reverse_append, splicedPart_append]
    simp [rewritten, ih, List.append_assoc]

/-- A batch is accepted exactly if its ranges, taken in ascending order, lie in the original text
and do not overlap. The result is then the splice of the original text; otherwise a range of the
batch is reported. -/
theorem apply_eq_splice (path text : Text) (patches : List Patch) :
    (∀ result, apply path text patches = .ok result ↔
      Fits text.length (ascending patches) ∧ result = splice text (ascending patches)) ∧
    (¬ Fits text.length (ascending patches) →
      ∃ reason, apply path text patches = .error (.patchRange reason path)) := by
  have hstart : Untouched text text none text.length [] := ⟨by simp, le_rfl, .inr ⟨rfl, rfl, rfl⟩⟩
  obtain ⟨haccepted, hrefused⟩ := applyInOrder_eq path (backwards patches) hstart
  -- a batch with a start that is no integer is refused in whatever order it is taken
  have hfits : FitsBackwards text.length (backwards patches) ↔ Fits text.length (ascending patches) := by
    by_cases hintegers : ∀ p ∈ patches, StartsAtInteger p
    · rw [backwards_eq hintegers, fitsBackwards_reverse]
    · simp only [not_forall] at hintegers
      obtain ⟨p, hp, hno⟩ := hintegers
      refine iff_of_false (fun h => hno ?_) fun h => hno ?_
      · exact startsAtInteger_of_fitsBackwards h (mem_backwards.2 hp)
      · obtain ⟨start, -, hstart, -⟩ := h.inside p (mem_ascending.2 hp)
        exact ⟨start, hstart⟩
  rw [hfits] at haccepted hrefused
  have hsplice (h : Fits text.length (ascending patches)) :
      apply path text patches = .ok (splice text (ascending patches)) := by
    have hintegers : ∀ p ∈ patches, StartsAtInteger p := fun p hp => by
      obtain ⟨start, -, hstart, -⟩ := h.inside p (mem_ascending.2 hp)
      exact ⟨start, hstart⟩
    rw [apply, haccepted h, backwards_eq hintegers, rewritten_reverse, List.append_nil]
    rfl
  refine ⟨fun result => ⟨fun hresult => ?_, fun ⟨h, hresult⟩ => hresult ▸ hsplice h⟩, hrefused⟩
  by_cases h : Fits text.length (ascending patches)
  · rw [hsplice h] at hresult
    exact ⟨h, (Except.ok.inj hresult).symm⟩
  · obtain ⟨reason, herror⟩ := hrefused h
    rw [apply, herror] at hresult
    cases hresult

/-! ### Ranges that lie apart -/

/-- The range of an earlier patch of a batch ends where the range of a later one starts, or in front
of that, or it starts behind the whole of it. -/
def LiesApart (patch later : Patch) : Prop :=
  patch.stop.place ≤ later.start.place ∨ later.start.place < patch.start.place ∧
    later.stop.place ≤ patch.start.place

/-- Starts in a text are compared as places. -/
theorem units_le_iff {length : Nat} {a b : Patch} (ha : LiesIn length a) (hb : LiesIn length b) :
    a.start.units ≤ b.start.units ↔ a.start.place ≤ b.start.place := by
  obtain ⟨n, -, hn, -⟩ := ha
  obtain ⟨m, -, hm, -⟩ := hb
  have hpos : (0 : Int) < (twoTo 1074 : Nat) := Int.natCast_pos.2 (twoTo_pos 1074)
  rw [hn, hm]
  simp only [Offset.units, Offset.place, Int.mul_le_mul_right hpos, Int.ofNat_le, Int.toNat_natCast]

private theorem notBefore_iff {length : Nat} {a b : Patch} (ha : LiesIn length a)
    (hb : LiesIn length b) :
    notBefore a b = true ↔ a.start.place ≤ b.start.place := by
  rw [notBefore, decide_eq_true_iff, units_le_iff ha hb]

theorem start_le_stop {length : Nat} {patch : Patch} (h : LiesIn length patch) :
    patch.start.place ≤ patch.stop.place := by
  obtain ⟨start, stop, hstart, hstop, hle, -⟩ := h
  simpa [hstart, hstop, Offset.place] using hle

/-- A batch fits a text if its ranges lie in the text and pairwise apart. -/
theorem fits_ascending {length : Nat} {patches : List Patch} (hinside : ∀ p ∈ patches, LiesIn length p)
    (hapart : patches.Pairwise LiesApart) : Fits length (ascending patches) := by
  refine ⟨fun p hp => hinside p (mem_ascending.1 hp), List.Pairwise.isChain ?_⟩
  -- the first patch stands behind those that start before it, and these end in front of it
  induction patches with
  | nil => simp [ascending]
  | cons patch patches ih =>
    obtain ⟨hpatch, hrest⟩ := List.forall_mem_cons.1 hinside
    obtain ⟨hfirst, hapart⟩ := List.pairwise_cons.1 hapart
    have hsorted := ih hrest hapart
    have hbefore : ∀ p ∈ (ascending patches).filter (fun p => !notBefore patch p),
        p.stop.place ≤ patch.start.place := by
      intro p hp
      obtain ⟨hmem, hnot⟩ := List.mem_filter.1 hp
      have hinside := hrest p (mem_ascending.1 hmem)
      have hstart : ¬ patch.start.place ≤ p.start.place := fun hle => by
        simp [(notBefore_iff hpatch hinside).2 hle] at hnot
      have hle := start_le_stop hpatch
      rcases hfirst p (mem_ascending.1 hmem) with hstop | ⟨-, hstop⟩
      · omega
      · exact hstop
    have hbehind : ∀ p ∈ (ascending patches).filter (notBefore patch),
        patch.stop.place ≤ p.start.place := by
      intro p hp
      obtain ⟨hmem, hnot⟩ := List.mem_filter.1 hp
      have hstart := (notBefore_iff hpatch (hrest p (mem_ascending.1 hmem))).1 hnot
      rcases hfirst p (mem_ascending.1 hmem) with hstop | ⟨hlt, -⟩
      · exact hstop
      · omega
    rw [ascending_cons, List.pairwise_append, List.pairwise_cons]
    refine ⟨hsorted.filter _, ⟨hbehind, hsorted.filter _⟩, fun p hp q hq => ?_⟩
    have hp := hbefore p hp
    rcases List.mem_cons.1 hq with rfl | hq
    · exact hp
    · have hq := hbehind q hq
      have hle := start_le_stop hpatch
      omega

/-- A batch of ranges that lie in a text and pairwise apart is accepted. -/
theorem exists_apply {path text : Text} {patches : List Patch}
    (hinside : ∀ p ∈ patches, LiesIn text.length p) (hapart : patches.Pairwise LiesApart) :
    ∃ result, apply path text patches = .ok result := by
  have hfits := fits_ascending hinside hapart
  exact ⟨_, ((apply_eq_splice path text patches).1 _).2 ⟨hfits, rfl⟩⟩

end Patch

end JsonCompanion
