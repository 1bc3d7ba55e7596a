import Mathlib.Data.List.Basic
import JsonCompanion.Text.Letter

/-!
# ASCII units

* `CodeUnit.of_ascii`: what holds of the first 128 units holds of every ASCII unit.
* `Text.codePoints_eq_map`: without leading surrogates the code points of a text are its units.
* `Text.codePoints_units`: a unit is a code point or one half of a pair.
* `Text.toCapitals_ascii`: the capitals of an ASCII text are those of its units, one by one.
-/

namespace JsonCompanion

/-- What holds of the first 128 units holds of every ASCII unit. -/
theorem CodeUnit.of_ascii {P : CodeUnit → Prop} {u : CodeUnit} (h : u.toNat < 128)
    (hall : ∀ n < 128, P (UInt16.ofNat n)) : P u := by
  have hu := hall u.toNat h
  rwa [UInt16.ofNat_toNat] at hu

/-- The capital of an ASCII small letter; any other unit is kept. -/
def CodeUnit.toCapital (u : CodeUnit) : CodeUnit := if u.isSmall then u - 32 else u

namespace Text

/-- Without leading surrogates every unit is a code point. -/
theorem codePoints_eq_map {t : Text} (h : ∀ u ∈ t, u.isLeading = false) :
    t.codePoints = t.map UInt16.toNat := by
  fun_induction codePoints t with
  | case1 => rfl
  | case2 u => rfl
  | case3 u v us hpair ih =>
    rw [h u List.mem_cons_self, Bool.false_and] at hpair
    cases hpair
  | case4 u v us hpair ih => rw [List.map_cons, ih fun w hw => h w (List.mem_cons_of_mem _ hw)]

/-- A unit is a code point or one half of a pair. -/
theorem codePoints_units {t : Text} {isIn : Nat → Bool} (h : t.codePoints.all isIn = true) :
    ∀ u ∈ t, isIn u.toNat = true ∨ (0xD800 ≤ u.toNat ∧ u.toNat < 0xE000) := by
  fun_induction codePoints t with
  | case1 => exact fun _ hmem => absurd hmem List.not_mem_nil
  | case2 u =>
    rw [List.all_cons, Bool.and_eq_true] at h
    rintro v hmem
    obtain rfl := List.mem_singleton.1 hmem
    exact .inl h.1
  | case3 u v rest hpair ih =>
    rw [List.all_cons, Bool.and_eq_true] at h
    simp only [CodeUnit.isLeading, CodeUnit.isTrailing, Bool.and_eq_true, decide_eq_true_eq] at hpair
    rintro w hmem
    rcases List.mem_cons.1 hmem with rfl | hmem
    · exact .inr (by omega)
    · rcases List.mem_cons.1 hmem with rfl | hmem
      · exact .inr (by omega)
      · exact ih h.2 w hmem
  | case4 u v rest _ ih =>
    rw [List.all_cons, Bool.and_eq_true] at h
    rintro w hmem
    rcases List.mem_cons.1 hmem with rfl | hmem
    · exact .inl h.1
    · exact ih h.2 w hmem

/-- Runs and forms of larger code points do not matter for the image of a code point. -/
private theorem caseImage_append {runs more : List (Nat × Nat × Nat × Int)}
    {forms : List (Nat × List Nat)} {n : Nat} (hmore : ∀ run ∈ more, n < run.1)
    (hforms : ∀ form ∈ forms, n < form.1) :
    caseImage (runs ++ more) forms n = caseImage runs [] n := by
  have hrun : runImage? (runs ++ more) n = runImage? runs n := by
    rw [runImage?, List.find?_append, (List.find?_eq_none (l := more)).mpr, Option.or_none, runImage?]
    intro run hmem
    have hlarger := hmore run hmem
    simp only [Bool.and_eq_true, decide_eq_true_eq]
    omega
  rw [caseImage, (List.find?_eq_none (l := forms)).mpr, hrun]
  · rfl
  · intro form hmem
    have hlarger := hforms form hmem
    simp only [beq_iff_eq]
    omega

/-- An ASCII code point is in the first run of capitals, or in none. -/
private theorem caseImage_ascii {n : Nat} (h : n < 128) :
    caseImage capitalRuns capitalForms n = caseImage (capitalRuns.take 1) [] n := by
  have hruns : ∀ run ∈ capitalRuns.drop 1, 128 ≤ run.1 := by decide +kernel
  have hforms : ∀ form ∈ capitalForms, 128 ≤ form.1 := by decide +kernel
  rw [← caseImage_append (fun run hrun => Nat.lt_of_lt_of_le h (hruns run hrun))
    (fun form hform => Nat.lt_of_lt_of_le h (hforms form hform)), List.take_append_drop]

/-- ASCII units have their capitals one by one. -/
theorem toCapitals_ascii {t : Text} (h : ∀ u ∈ t, u.toNat < 128) :
    t.toCapitals = t.map CodeUnit.toCapital := by
  have hunit (u : CodeUnit) (hu : u ∈ t) : u.isLeading = false ∧
      (caseImage capitalRuns capitalForms u.toNat).flatMap ofCodePoint = [u.toCapital] := by
    rw [caseImage_ascii (h u hu)]
    exact CodeUnit.of_ascii (P := fun u => u.isLeading = false ∧
      (caseImage (capitalRuns.take 1) [] u.toNat).flatMap ofCodePoint = [u.toCapital]) (h u hu)
        (by decide +kernel)
  rw [toCapitals, codePoints_eq_map fun u hu => (hunit u hu).1, List.flatMap_map,
    List.flatMap_congr fun u hu => (hunit u hu).2, ← List.map_eq_flatMap]

end Text

end JsonCompanion
