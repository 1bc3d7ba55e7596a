import JsonCompanion.Config.Rename

/-!
# Keys and the words of names

Keys with separators are to show the words that the capitals of a name begin.

* `Text.worded` puts these words down, each unit by its place in the name: only a capital that is
  not the first unit gets a separator.
* `separated_eq`: a name that begins with the separator itself loses it, any other name is worded.
* `renameKeys_settle` says so of the strategies.
-/

namespace JsonCompanion

variable {separator : CodeUnit} {name : Text}

/-- What a unit at a place of a name becomes: a capital begins a word, which the first unit does
anyway. -/
def CodeUnit.worded (u separator : CodeUnit) (place : Nat) : Text :=
  if u.isCapital then
    if place = 0 then [u.toSmall] else [separator, u.toSmall]
  else [u]

/-- The words of a name, with separators between them. -/
def Text.worded (separator : CodeUnit) (name : Text) : Text :=
  name.zipIdx.flatMap fun (u, place) => u.worded separator place

private theorem worded_behind (separator u : CodeUnit) {place : Nat} (hplace : place ≠ 0) :
    u.worded separator place = CodeUnit.separated separator u := by
  unfold CodeUnit.worded CodeUnit.separated
  rw [if_neg hplace]

private theorem flatMap_worded (separator : CodeUnit) (name : Text) {place : Nat} (hplace : place ≠ 0) :
    ((name.zipIdx place).flatMap fun (u, place) => u.worded separator place) =
      name.flatMap (CodeUnit.separated separator) := by
  induction name generalizing place with
  | nil => rfl
  | cons u name ih =>
    have hnext : place + 1 ≠ 0 := Nat.succ_ne_zero place
    simp only [List.zipIdx_cons, List.flatMap_cons, ih hnext, worded_behind separator u hplace]

private theorem worded_cons (separator u : CodeUnit) (name : Text) :
    Text.worded separator (u :: name) =
      u.worded separator 0 ++ name.flatMap (CodeUnit.separated separator) := by
  unfold Text.worded
  rw [List.zipIdx_cons, List.flatMap_cons, flatMap_worded separator name (Nat.succ_ne_zero 0)]

/-- Every separator that is produced stays, except one in front; so a separator that begins the name
is lost. -/
theorem separated_eq (hseparator : separator.isCapital = false) (name : Text) :
    name.separated separator =
      if name.head? = some separator then (name.worded separator).tail else name.worded separator := by
  cases name with
  | nil => rfl
  | cons u name =>
    rw [worded_cons, List.head?_cons]
    unfold Text.separated CodeUnit.worded
    dsimp only
    rw [List.flatMap_cons]
    by_cases hcapital : u.isCapital = true
    · -- the separator in front was produced for the capital
      have hne : u ≠ separator := by
        rintro rfl
        rw [hcapital] at hseparator
        cases hseparator
      simp [CodeUnit.separated, hcapital, hne]
    · by_cases hu : u = separator
      · simp [CodeUnit.separated, hu, hseparator]
      · simp [CodeUnit.separated, hcapital, hu]

private theorem worded_ne_nil (h : name ≠ []) : name.worded separator ≠ [] := by
  obtain ⟨u, us, rfl⟩ := List.exists_cons_of_ne_nil h
  rw [worded_cons]
  unfold CodeUnit.worded
  split
  · simp
  · simp

/-- How the key of a name shows its words: as they are, unless the name begins with the separator,
which is then missing. -/
structure ShowsWords (separator : CodeUnit) (name key : Text) : Prop where
  eq_iff : key = name.worded separator ↔ name.head? ≠ some separator
  eq_tail : name.head? = some separator → key = (name.worded separator).tail

private theorem showsWords_separated (hseparator : separator.isCapital = false) (name : Text) :
    ShowsWords separator name (name.separated separator) := by
  have hkey := separated_eq hseparator name
  by_cases hhead : name.head? = some separator
  · rw [if_pos hhead] at hkey
    have hname : name ≠ [] := by
      rintro rfl
      cases hhead
    have hlength : (name.worded separator).tail ≠ name.worded separator := by
      have hne : name.worded separator ≠ [] := worded_ne_nil hname
      obtain ⟨u, us, hwords⟩ := List.exists_cons_of_ne_nil hne
      rw [hwords]
      exact fun heq => absurd (congrArg List.length heq) (by simp)
    constructor
    · rw [hkey]
      exact ⟨fun heq => absurd heq hlength, fun hother => absurd hhead hother⟩
    · exact fun _ => hkey
  · rw [if_neg hhead] at hkey
    constructor
    · exact ⟨fun _ => hhead, fun _ => hkey⟩
    · exact fun hother => absurd hother hhead

/-- The keys with separators show the words of a name exactly if it does not begin with the
separator; the screaming key is the snake key in capitals. -/
theorem renameKeys_settle (name : Text) :
    ShowsWords '-' name (RenameStrategy.kebab.apply name) ∧
      ShowsWords '_' name (RenameStrategy.snake.apply name) ∧
      RenameStrategy.screamingSnake.apply name = (RenameStrategy.snake.apply name).toCapitals := by
  refine ⟨?_, ?_, rfl⟩
  · exact showsWords_separated (by decide) name
  · exact showsWords_separated (by decide) name

/-- A leading underscore is no separator that was produced, and is dropped all the same. -/
example : RenameStrategy.snake.apply ("_createdAt" : Text) = "created_at" := by decide

end JsonCompanion
