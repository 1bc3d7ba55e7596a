import JsonCompanion.Proofs.Model.Selection
import JsonCompanion.Proofs.Text.Ascii

/-!
# Keys of different names

Names in camel case have different keys, whichever strategy forms them.

* `Text.isCamelCase` holds of a small ASCII letter with ASCII letters and digits behind it.
* `RenameStrategy.restore` reads a name off its key; `restore_apply` says that it is the name that
  the key was formed of.
* `camelCaseKeys_settle`: every strategy is injective on such names, and fields that have them and
  no keys of their own are all written.
-/

namespace JsonCompanion

/-- An ASCII letter or digit. -/
def CodeUnit.isAlphanumeric (u : CodeUnit) : Bool := u.isSmall || u.isCapital || u.isDigit

namespace Text

/-- A small ASCII letter with ASCII letters and digits behind it. -/
def isCamelCase : Text → Bool
  | [] => false
  | u :: us => u.isSmall && us.all CodeUnit.isAlphanumeric

/-- Joins the words between separators: a word that is `raised` begins with a capital, all other
letters are small. -/
def camelCased (separator : CodeUnit) : (raised : Bool) → Text → Text
  | _, [] => []
  | raised, u :: us =>
    if u = separator then camelCased separator true us
    else (if raised then u.toCapital else u.toSmall) :: camelCased separator false us

end Text

/-- The name of a field with some key. -/
def RenameStrategy.restore : RenameStrategy → Text → Text
  | .none, key => key
  | .kebab, key => key.camelCased '-' false
  | .snake, key | .screamingSnake, key => key.camelCased '_' false
  | .pascal, [] => []
  | .pascal, u :: us => u.toSmall :: us

/-! ### Units -/

private theorem toNat_lt_of_isAlphanumeric {u : CodeUnit} (h : u.isAlphanumeric) : u.toNat < 128 := by
  have hchars : 'z'.toNat = 122 ∧ 'Z'.toNat = 90 ∧ '9'.toNat = 57 := ⟨rfl, rfl, rfl⟩
  simp only [CodeUnit.isAlphanumeric, CodeUnit.isSmall, CodeUnit.isCapital, CodeUnit.isDigit,
    CodeUnit.between, Bool.or_eq_true, Bool.and_eq_true, decide_eq_true_eq] at h
  omega

/-- What holds of the alphanumeric units among the first 128 holds of all alphanumeric ones. -/
private theorem of_alphanumeric {P : CodeUnit → Prop} {u : CodeUnit} (h : u.isAlphanumeric)
    (hall : ∀ n < 128, CodeUnit.isAlphanumeric (UInt16.ofNat n) → P (UInt16.ofNat n)) : P u :=
  CodeUnit.of_ascii (P := fun u => u.isAlphanumeric → P u) (toNat_lt_of_isAlphanumeric h) hall h

/-- The form that a letter has in a key shows the letter, given whether it was a capital. -/
private def Shows (form : CodeUnit → CodeUnit) (u : CodeUnit) : Prop :=
  (form u).isAlphanumeric = true ∧ (if u.isCapital then (form u).toCapital else (form u).toSmall) = u

private instance (form : CodeUnit → CodeUnit) (u : CodeUnit) : Decidable (Shows form u) :=
  inferInstanceAs (Decidable (_ ∧ _))

private theorem shows_toSmall {u : CodeUnit} (h : u.isAlphanumeric) : Shows CodeUnit.toSmall u :=
  of_alphanumeric (P := Shows CodeUnit.toSmall) h (by decide +kernel)

private theorem shows_toCapital {u : CodeUnit} (h : u.isAlphanumeric) :
    Shows (fun u => u.toSmall.toCapital) u :=
  of_alphanumeric (P := Shows fun u => u.toSmall.toCapital) h (by decide +kernel)

private theorem not_isCapital {u : CodeUnit} (h : u.isSmall) : u.isCapital = false := by
  have hchars : 'a'.toNat = 97 ∧ 'Z'.toNat = 90 := ⟨rfl, rfl⟩
  simp only [CodeUnit.isSmall, CodeUnit.isCapital, CodeUnit.between, Bool.and_eq_true, decide_eq_true_eq,
    Bool.and_eq_false_iff, decide_eq_false_iff_not] at h ⊢
  omega

/-! ### Words -/

/-- A unit in some form, with a separator in front if it is a capital. -/
private def marked (separator : CodeUnit) (form : CodeUnit → CodeUnit) (u : CodeUnit) : Text :=
  if u.isCapital then [separator, form u] else [form u]

variable {separator : CodeUnit} {name : Text}

private theorem camelCased_marked (hseparator : separator.isAlphanumeric = false)
    {form : CodeUnit → CodeUnit} (hname : ∀ u ∈ name, Shows form u) :
    Text.camelCased separator false (name.flatMap (marked separator form)) = name := by
  induction name with
  | nil => rfl
  | cons u us ih =>
    obtain ⟨⟨hform, hshown⟩, hus⟩ := List.forall_mem_cons.mp hname
    have hne : form u ≠ separator := by
      intro heq
      rw [heq, hseparator] at hform
      cases hform
    rw [List.flatMap_cons, marked]
    split at hshown
    · next hcapital => simp [hcapital, Text.camelCased, hne, hshown, ih hus]
    · next hcapital => simp [hcapital, Text.camelCased, hne, hshown, ih hus]

private theorem isAlphanumeric_of_isCamelCase (h : name.isCamelCase) : ∀ u ∈ name, u.isAlphanumeric := by
  cases name with
  | nil => cases h
  | cons u us =>
    obtain ⟨hsmall, hall⟩ := Bool.and_eq_true_iff.mp h
    refine List.forall_mem_cons.mpr ⟨?_, List.all_eq_true.mp hall⟩
    simp [CodeUnit.isAlphanumeric, hsmall]

/-- A name in camel case begins with no capital, so that no separator is produced in front. -/
private theorem separated_eq_flatMap (hseparator : separator.isAlphanumeric = false)
    (h : name.isCamelCase) :
    name.separated separator = name.flatMap (marked separator CodeUnit.toSmall) := by
  have hmarked : CodeUnit.separated separator = marked separator CodeUnit.toSmall := by
    funext u
    by_cases hcapital : u.isCapital <;> simp [CodeUnit.separated, marked, CodeUnit.toSmall, hcapital]
  cases name with
  | nil => cases h
  | cons u us =>
    obtain ⟨hsmall, -⟩ := Bool.and_eq_true_iff.mp h
    have hcapital := not_isCapital hsmall
    have hne : u ≠ separator := by
      rintro rfl
      simp [CodeUnit.isAlphanumeric, hsmall] at hseparator
    unfold Text.separated
    simp [hmarked, marked, hcapital, CodeUnit.toSmall, hne]

private theorem toCapitals_flatMap (hname : ∀ u ∈ name, u.isAlphanumeric) :
    Text.toCapitals (name.flatMap (marked '_' CodeUnit.toSmall)) =
      name.flatMap (marked '_' fun u => u.toSmall.toCapital) := by
  have hascii : ∀ v ∈ name.flatMap (marked '_' CodeUnit.toSmall), v.toNat < 128 := by
    intro v hv
    obtain ⟨u, hu, hv⟩ := List.mem_flatMap.mp hv
    have hform := toNat_lt_of_isAlphanumeric (shows_toSmall (hname u hu)).1
    unfold marked at hv
    split at hv
    · rcases List.mem_cons.mp hv with rfl | hv
      · decide
      · rwa [List.mem_singleton.mp hv]
    · rwa [List.mem_singleton.mp hv]
  rw [Text.toCapitals_ascii hascii, List.map_flatMap]
  refine List.flatMap_congr fun u _ => ?_
  unfold marked
  split <;> rfl

/-! ### Keys -/

/-- A name in camel case can be read off its key. -/
theorem restore_apply (strategy : RenameStrategy) (h : name.isCamelCase) :
    strategy.restore (strategy.apply name) = name := by
  have hall := isAlphanumeric_of_isCamelCase h
  have hsmalls : ∀ u ∈ name, Shows CodeUnit.toSmall u := fun u hu => shows_toSmall (hall u hu)
  -- only the first unit is raised
  have hcapitals : ∀ u ∈ name, Shows (fun u => u.toSmall.toCapital) u :=
    fun u hu => shows_toCapital (hall u hu)
  cases strategy with
  | none => rfl
  | kebab =>
    have hdash : CodeUnit.isAlphanumeric '-' = false := by decide
    rw [RenameStrategy.apply, separated_eq_flatMap hdash h]
    exact camelCased_marked hdash hsmalls
  | snake =>
    have hline : CodeUnit.isAlphanumeric '_' = false := by decide
    rw [RenameStrategy.apply, separated_eq_flatMap hline h]
    exact camelCased_marked hline hsmalls
  | screamingSnake =>
    have hline : CodeUnit.isAlphanumeric '_' = false := by decide
    rw [RenameStrategy.apply, separated_eq_flatMap hline h, toCapitals_flatMap hall]
    exact camelCased_marked hline hcapitals
  | pascal =>
    cases name with
    | nil => rfl
    | cons u us =>
      obtain ⟨hsmall, -⟩ := Bool.and_eq_true_iff.mp h
      obtain ⟨-, hshown⟩ := hcapitals u List.mem_cons_self
      have hascii : ∀ v ∈ [u], v.toNat < 128 :=
        List.forall_mem_singleton.mpr (toNat_lt_of_isAlphanumeric (hall u List.mem_cons_self))
      have hcapital := not_isCapital hsmall
      have hkept : u.toSmall = u := by simp [CodeUnit.toSmall, hcapital]
      simp only [hcapital, Bool.false_eq_true, if_false, hkept] at hshown
      rw [RenameStrategy.apply, Text.capitalizeFirst, Text.toCapitals_ascii hascii]
      simp [RenameStrategy.restore, hshown]

/-- Every strategy gives different names in camel case different keys.  Fields with such names, and
with no keys of their own, are therefore written without a clash. -/
theorem camelCaseKeys_settle :
    (∀ (strategy : RenameStrategy) (name other : Text), name.isCamelCase → other.isCamelCase →
      strategy.apply name = strategy.apply other → name = other) ∧
    ∀ (model : ClassModel) (config : Config) (consumed : Option (List Text)),
      (model.fields.map Field.name).Nodup →
      (∀ field ∈ model.fields, field.name.isCamelCase ∧
        (config.override? field.name).bind Override.name? = none) →
      ∃ written, encodeFields model config consumed = .ok written := by
  have hinjective (strategy : RenameStrategy) (name other : Text) (hname : name.isCamelCase)
      (hother : other.isCamelCase) (h : strategy.apply name = strategy.apply other) : name = other := by
    rw [← restore_apply strategy hname, h, restore_apply strategy hother]
  refine ⟨hinjective, fun model config consumed hnodup hfields => exists_encodeFields ?_ consumed⟩
  have hkey (field : Field) (hfield : field ∈ model.fields) :
      config.outputKey field = config.fieldRename.apply field.name := by
    rw [Config.outputKey, Config.key, (hfields field hfield).2]
    rfl
  have hkeys :
      model.fields.map config.outputKey =
      (model.fields.map Field.name).map config.fieldRename.apply := by
    rw [List.map_congr_left hkey, List.map_map]
    rfl
  rw [hkeys]
  refine List.Nodup.map_on ?_ hnodup
  simp only [List.mem_map]
  rintro _ ⟨field, hfield, rfl⟩ _ ⟨other, hother, rfl⟩ h
  exact hinjective config.fieldRename field.name other.name (hfields field hfield).1
    (hfields other hother).1 h

/-- Three names that differ by their capitals only. -/
theorem camelCaseKeys_settle_created :
    let field (name : Text) : Field := ⟨name, "string", false, false, true, true⟩
    let model : ClassModel :=
      ⟨"Post", [field "createdAt", field "createdat", field "createdAT"], [], [], none⟩
    let config : Config := ⟨true, true, false, false, false, false, true, false, .screamingSnake, []⟩
    (model.fields.map Field.name).Nodup ∧
      (∀ field ∈ model.fields, field.name.isCamelCase ∧
        (config.override? field.name).bind Override.name? = none) ∧
      model.fields.map config.outputKey = [("CREATED_AT" : Text), "CREATEDAT", "CREATED_A_T"] ∧
      ∃ written, encodeFields model config none = .ok written := by
  intro field model config
  have hnodup : (model.fields.map Field.name).Nodup := by decide
  have hfields : ∀ field ∈ model.fields,
      field.name.isCamelCase ∧ (config.override? field.name).bind Override.name? = none := by
    have hall : model.fields.all (fun field => field.name.isCamelCase) = true := by decide
    exact fun other hother => ⟨List.all_eq_true.mp hall other hother, rfl⟩
  exact ⟨hnodup, hfields, by decide +kernel, camelCaseKeys_settle.2 model config none hnodup hfields⟩

end JsonCompanion
