import JsonCompanion.Text.Letter

/-!
# Renaming fields

`RenameStrategy.apply` turns the name of a field into its JSON key.

* `Text.separated` marks every capital by a separator and a small letter, but puts no separator in
  front.
-/

namespace JsonCompanion

/-- The ways to derive a JSON key from the name of a field. -/
inductive RenameStrategy
  | none
  | kebab
  | snake
  | pascal
  | screamingSnake
  deriving DecidableEq

namespace RenameStrategy

/-- All strategies in the order in which messages list them. -/
def all : List RenameStrategy := [.none, .kebab, .snake, .pascal, .screamingSnake]

/-- The name of a strategy in options. -/
def name : RenameStrategy → Text
  | .none => "none"
  | .kebab => "kebab"
  | .snake => "snake"
  | .pascal => "pascal"
  | .screamingSnake => "screamingSnake"

/-- The strategy of a name. -/
def ofName? (t : Text) : Option RenameStrategy := all.find? fun strategy => strategy.name == t

end RenameStrategy

/-- The small letter of a capital behind a separator; any other unit is kept. -/
def CodeUnit.separated (separator u : CodeUnit) : Text :=
  if u.isCapital then [separator, u.toSmall] else [u]

/-- Words that capitals begin, with separators between them; one in front is dropped. -/
def Text.separated (separator : CodeUnit) (t : Text) : Text :=
  let marked : Text := t.flatMap (CodeUnit.separated separator)
  if marked.head? == some separator then marked.drop 1 else marked

/-- The JSON key of a field. -/
def RenameStrategy.apply (strategy : RenameStrategy) (name : Text) : Text :=
  match strategy with
  | .none => name
  | .kebab => name.separated '-'
  | .snake => name.separated '_'
  | .screamingSnake => (name.separated '_').toCapitals
  | .pascal => name.capitalizeFirst

end JsonCompanion
