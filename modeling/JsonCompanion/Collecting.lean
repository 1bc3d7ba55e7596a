import JsonCompanion.Failure

/-!
# Collecting while trying

`Collecting Item` is the monad of computations that may fail and that leave items behind in order,
also when they fail later.
-/

namespace JsonCompanion

/-- A computation that may fail and leaves items behind. -/
abbrev Collecting (Item : Type) := ExceptT Failure (StateM (List Item))

namespace Collecting

variable {Item α : Type}

/-- Leaves an item behind. -/
def add (item : Item) : Collecting Item Unit := modify fun items => items ++ [item]

/-- Leaves items behind in order. -/
def addAll (list : List Item) : Collecting Item Unit := modify fun items => items ++ list

/-- An attempt that leaves nothing behind. -/
def ofAttempt : Attempt α → Collecting Item α
  | .ok a => pure a
  | .error failure => throw failure

/-- The result, and the given items with all that were left behind. -/
def outcome (computation : Collecting Item α) (items : List Item) : Attempt α × List Item :=
  computation.run items

end Collecting

end JsonCompanion
